/-
  What calls make of all connections, and of the streams that are open.

  A call outside of a transaction takes connections of its own, or ends a stream and with it the
  stream's use of a connection; whatever else there is it leaves alone.

  * `ReturnsTaken`: the connections that deeds take are done with in the end;
  * `leasesOn`: the leases of open streams on a connection; `LeaseChange`: how deeds change them;
  * `Call.Effects`: what a call does to the streams and connections that there are;
  * `Call.Effects.leaseChange`: what that means for the leases on each connection.
-/
import QueryClient.Proofs.Session.Calling
import QueryClient.Proofs.Session.SessionLimit

namespace QueryClient.Session

variable {σ : Type} {c : Client} {conn m m' : ℕ} {abort : Option ℕ} {ds ds' : List Deed}

/-! ## Connections that are taken -/

/-- Outside of transactions a call takes the connection that it has. -/
theorem Client.Has.mem_heldIn (h : c.Has conn ds) (hc : c.transaction = none) :
    conn ∈ heldIn ds := by
  rcases h with ⟨-, hheld⟩ | hconn
  · exact Session.mem_heldIn.2 hheld
  · rw [hc] at hconn
    cases hconn

/-- A connection that a deed takes is something to it. -/
theorem not_held_of_none (h : ∀ d ∈ ds, d.useStep? conn = none) : conn ∉ heldIn ds := by
  intro hmem
  obtain ⟨m, hd⟩ := mem_heldIn.1 hmem
  have := h _ hd
  rw [Deed.useStep?, if_pos rfl] at this
  cases this

/-- Nothing is left to be done by a call about a connection. -/
def Usage.Idle (k : Usage) : Prop := k = .untaken ∨ ∃ reset, k.Done reset

theorem Usage.Idle.ne_misused {k : Usage} (h : k.Idle) : k ≠ .misused := by
  rcases h with rfl | ⟨reset, h⟩
  · exact Usage.noConfusion
  · cases h with
    | unlimited _ h => rcases h with rfl | rfl <;> exact Usage.noConfusion
    | _ => exact Usage.noConfusion

/-- Deeds that concern the connections only that they take, and are done with these in the end; they
may have limited sessions. -/
structure ReturnsTaken (reset : Bool) (ds : List Deed) : Prop where
  others : ∀ conn, conn ∉ heldIn ds → ∀ d ∈ ds, d.useStep? conn = none
  own : ∀ conn ∈ heldIn ds, (Usage.after conn .untaken ds).Done reset

section
variable {reset : Bool}

theorem ReturnsTaken.append (h : ReturnsTaken reset ds) (h' : ReturnsTaken reset ds')
    (hnodup : (heldIn (ds ++ ds')).Nodup) : ReturnsTaken reset (ds ++ ds') := by
  rw [heldIn_append] at hnodup
  have hdisjoint := (List.nodup_append.1 hnodup).2.2
  refine ⟨fun conn hconn d hd => ?_, fun conn hconn => ?_⟩
  · rw [heldIn_append, List.mem_append, not_or] at hconn
    rcases List.mem_append.1 hd with hd | hd
    · exact h.others conn hconn.1 d hd
    · exact h'.others conn hconn.2 d hd
  · rw [heldIn_append] at hconn
    rw [Usage.after_append]
    rcases List.mem_append.1 hconn with hconn | hconn
    · have hnot : conn ∉ heldIn ds' := fun hmem => hdisjoint conn hconn conn hmem rfl
      rw [Usage.after_of_none (h'.others conn hnot)]
      exact h.own conn hconn
    · have hnot : conn ∉ heldIn ds := fun hmem => hdisjoint conn hmem conn hconn rfl
      rw [Usage.after_of_none (h.others conn hnot)]
      exact h'.own conn hconn

theorem returnsTaken_of_none (h : ∀ conn, ∀ d ∈ ds, d.useStep? conn = none) :
    ReturnsTaken reset ds :=
  ⟨fun conn _ => h conn, fun conn hconn => absurd hconn (not_held_of_none (h conn))⟩

/-- What a call makes of its connection. -/
theorem UsesOnly.returnsTaken (hconn : conn ∈ heldIn ds)
    (h : UsesOnly conn .untaken ds (·.Done reset)) : ReturnsTaken reset ds := by
  refine ⟨fun conn' hconn' => h.others conn' fun he => hconn' (he ▸ hconn), fun conn' hconn' => ?_⟩
  by_cases he : conn' = conn
  · rw [he]
    exact h.after
  · exact absurd hconn' (not_held_of_none (h.others conn' he))

end

theorem Client.UsesConnection.returnsTaken (h : c.UsesConnection ds) (hc : c.transaction = none) :
    ReturnsTaken c.limitsSession ds := by
  cases h with
  | nothing hnone => exact returnsTaken_of_none hnone
  | @connected conn hhas huses =>
    exact (huses _ (.outside hc)).returnsTaken (hhas.mem_heldIn hc)

section
variable {q : Query} {statement : Statement}

theorem Retrying.returnsTaken (hc : c.transaction = none)
    (hs : Statement.compile c.config.safety q = .ok statement) {left number : ℕ}
    {o : Except Halt Outcome} (h : Retrying c q statement abort left number m o ds m')
    (hnodup : (heldIn ds).Nodup) : ReturnsTaken c.limitsSession ds := by
  induction h with
  | last h | done h _ | undelayed h _ _ => exact (h.usesConnection hs).returnsTaken hc
  | again h _ _ _ ih =>
    have hparts := hnodup
    rw [heldIn_append] at hparts
    exact ((h.usesConnection hs).returnsTaken hc).append (ih (List.nodup_append.1 hparts).2.1)
      hnodup

theorem Executing.returnsTaken (hc : c.transaction = none) {o : Except Halt (Response Json)}
    (h : Executing c q abort m o ds m') (hnodup : (heldIn ds).Nodup) :
    ReturnsTaken c.limitsSession ds := by
  cases h with
  | late _ _ | uncompiled _ _ => exact returnsTaken_of_none fun _ => List.forall_mem_nil _
  | tried _ hs h | givenUp _ hs _ h => exact h.returnsTaken hc hs hnodup

theorem Selecting.returnsTaken (hc : c.transaction = none) {halt : Halt}
    (h : Selecting c q abort m (.error halt) ds m') : ReturnsTaken c.limitsSession ds := by
  cases h with
  | refused => exact returnsTaken_of_none fun _ => List.forall_mem_nil _
  | compiled _ hs h => exact (h.usesConnection hs).returnsTaken hc

end

/-! ## Streams that are open -/

/-- The lease of a stream that is open on a connection. -/
def RowStream.leaseOn? (conn : ℕ) (s : RowStream) : Option Lease :=
  if s.done = false ∧ s.lease.conn = conn then some s.lease else none

/-- The leases of the streams that are open on a connection. -/
def leasesOn (conn : ℕ) (streams : List RowStream) : List Lease :=
  streams.filterMap (·.leaseOn? conn)

/-- How deeds change who uses a connection by a stream. -/
inductive LeaseChange (conn : ℕ) (ds : List Deed) : List Lease → List Lease → Prop
  | aside {ls} : (∀ d ∈ ds, d.useStep? conn = none) → LeaseChange conn ds ls ls
  /-- The connection was taken, and is done with. -/
  | taken {ls} : conn ∈ heldIn ds → (Usage.after conn .untaken ds).Idle → LeaseChange conn ds ls ls
  | opened {ls l} : conn ∈ heldIn ds → l.Proper → (Usage.after conn .untaken ds).Used l.reset →
    cancelsOf conn ds = 0 → LeaseChange conn ds ls (ls ++ [l])
  | ended {xs l ys} : (∀ k : Usage, k.Used l.reset → (Usage.after conn k ds).Idle) →
    LeaseChange conn ds (xs ++ l :: ys) (xs ++ ys)

section
variable {streams : List RowStream} {s s' : RowStream} {i : ℕ}

theorem ReturnsTaken.leaseChange {reset : Bool} (h : ReturnsTaken reset ds) (ls : List Lease)
    (conn : ℕ) : LeaseChange conn ds ls ls := by
  by_cases hconn : conn ∈ heldIn ds
  · exact .taken hconn (Or.inr ⟨reset, h.own conn hconn⟩)
  · exact .aside (h.others conn hconn)

/-- What becomes of a stream: it is as before, or it has come to an end. -/
inductive RowStream.Becomes (s : RowStream) (ds : List Deed) (s' : RowStream) : Prop
  | same : s'.lease = s.lease → s'.done = s.done → ds = [] → s.Becomes ds s'
  | ended : s'.lease = s.lease → s.done = false → s'.done → (∀ k : Usage,
    k.Used s.lease.reset → UsesOnly s.lease.conn k ds (·.Done s.lease.reset)) → s.Becomes ds s'

theorem leaseOn?_eq_some {l : Lease} (h : s.leaseOn? conn = some l) :
    s.done = false ∧ s.lease.conn = conn ∧ l = s.lease := by
  unfold RowStream.leaseOn? at h
  split at h
  · next hand => exact ⟨hand.1, hand.2, (Option.some.inj h).symm⟩
  · cases h

theorem leaseOn?_of_done (h : s.done) : s.leaseOn? conn = none := by
  simp [RowStream.leaseOn?, h]

theorem leaseChange_replace (h : s.Becomes ds s') (front back : List RowStream) (conn : ℕ) :
    LeaseChange conn ds (leasesOn conn (front ++ s :: back))
      (leasesOn conn (front ++ s' :: back)) := by
  have hparts : ∀ s : RowStream, leasesOn conn (front ++ s :: back) =
      leasesOn conn front ++ ((s.leaseOn? conn).toList ++ leasesOn conn back) := by
    intro s
    unfold leasesOn
    rw [List.filterMap_append, List.filterMap_cons]
    cases s.leaseOn? conn <;> rfl
  rw [hparts s, hparts s']
  cases h with
  | same hlease hdone hds =>
    have hsame : s'.leaseOn? conn = s.leaseOn? conn := by
      rw [RowStream.leaseOn?, RowStream.leaseOn?, hlease, hdone]
    rw [hsame, hds]
    exact .aside (List.forall_mem_nil _)
  | ended _ hundone hdone huses =>
    have hused : (Usage.limited.Used s.lease.reset) ∨ Usage.fresh.Used s.lease.reset := by
      cases hreset : s.lease.reset
      · exact Or.inr (.unlimited rfl (Or.inl rfl))
      · exact Or.inl (.limited rfl)
    rw [leaseOn?_of_done hdone]
    by_cases hconn : s.lease.conn = conn
    · have hlease : s.leaseOn? conn = some s.lease := if_pos ⟨hundone, hconn⟩
      rw [hlease]
      subst hconn
      exact .ended fun k hk => Or.inr ⟨_, (huses k hk).after⟩
    · have hlease : s.leaseOn? conn = none := if_neg fun h => hconn h.2
      rw [hlease]
      refine .aside ?_
      rcases hused with hk | hk
      · exact (huses _ hk).others conn (Ne.symm hconn)
      · exact (huses _ hk).others conn (Ne.symm hconn)

theorem leaseChange_set (hi : streams[i]? = some s) (h : s.Becomes ds s') (conn : ℕ) :
    LeaseChange conn ds (leasesOn conn streams) (leasesOn conn (streams.set i s')) := by
  obtain ⟨hlt, he⟩ := List.getElem?_eq_some_iff.1 hi
  have hsplit : ∃ front back, streams = front ++ streams[i] :: back ∧ front.length = i ∧
      streams.set i s' = front ++ s' :: back := List.exists_of_set hlt
  obtain ⟨front, back, hstreams, -, hset⟩ := hsplit
  rw [hset]
  conv in leasesOn conn streams => rw [hstreams, he]
  exact leaseChange_replace h front back conn

theorem modify_eq_set_of_getElem? (hi : streams[i]? = some s) (f : RowStream → RowStream) :
    streams.modify i f = streams.set i (f s) := by
  obtain ⟨hlt, he⟩ := List.getElem?_eq_some_iff.1 hi
  rw [List.modify_eq_set_get f hlt, List.get_eq_getElem, he]

/-- What is given by a stream. -/
theorem RowStream.Awaiting.becomes {item : Item} (h : s.Awaiting m (.ok (item, s')) ds m')
    (hs : s.done = false → s.lease.Proper) : s.Becomes ds s' := by
  have hpolling : ∀ {s₁ : RowStream} {m ds}, s₁.lease = s.lease → s₁.done = s.done →
      s₁.Polling m item s' ds → s.Becomes ds s' := by
    intro s₁ m ds hlease hdone h
    cases hundone : s.done with
    | true =>
      rw [hundone] at hdone
      cases h with
      | past _ => exact .same hlease (hdone.trans hundone.symm) rfl
      | aborted hno | exhausted hno | row hno | failed hno | pending hno =>
        rw [hdone] at hno
        cases hno
    | false =>
      have hproper : s₁.lease.Proper := hlease ▸ hs hundone
      obtain ⟨hlease', hquiet, hended⟩ := h.usesOnly hproper (hdone.trans hundone)
      cases hdone' : s'.done with
      | false => exact .same (hlease'.trans hlease) (hdone'.trans hundone.symm) (hquiet hdone')
      | true =>
        refine .ended (hlease'.trans hlease) hundone hdone' ?_
        rw [← hlease]
        exact hended hdone'
  cases h with
  | polled h => exact hpolling rfl rfl h
  | waited hpending _ h =>
    cases hpending with | pending _ _ _ _ =>
    have hlater : ({ s with asked := some (s.asked.getD m) } : RowStream).lease = s.lease := rfl
    exact hpolling hlater rfl h

theorem RowStream.Closing.becomes {o : Except Halt Unit} (h : s.Closing m o ds m')
    (hs : s.done = false → s.lease.Proper) : s.Becomes ds (Call.finished s) := by
  cases hundone : s.done with
  | true =>
    cases h with
    | past _ => exact .same rfl hundone.symm rfl
    | closed hno _ =>
      rw [hundone] at hno
      cases hno
  | false => exact .ended rfl hundone rfl fun k hk => h.usesOnly (hs hundone) hundone hk

theorem RowStream.becomes_drops (hs : s.done = false → s.lease.Proper) :
    s.Becomes (s.drops m) (Call.finished s) := by
  unfold RowStream.drops
  cases hundone : s.done with
  | true => exact .same rfl hundone.symm rfl
  | false =>
    exact .ended rfl hundone rfl fun k hk => RowStream.usesOnly_finishes (hs hundone) true hk

end

/-! ## Calls -/

/-- The streams that are open after a call. -/
def Call.streamsAfter (streams : List RowStream) (call : Call σ) :
    Except Halt (Reply × List RowStream) → List RowStream
  | .ok (_, streams') => streams'
  | .error _ => call.leaves streams

/-- What a call can come to: the deeds, and the streams that are open then. -/
inductive Call.Effects (c : Client) (streams : List RowStream) (m : ℕ) (ds : List Deed) :
    List RowStream → Prop
  | nothing : (∀ conn, ∀ d ∈ ds, d.useStep? conn = none) → Effects c streams m ds streams
  | executed {q abort o m'} : Executing c q abort m o ds m' → Effects c streams m ds streams
  | refused {q abort halt m'} : Selecting c q abort m (.error halt) ds m' →
    Effects c streams m ds streams
  | opened {q abort s m'} : Selecting c q abort m (.ok s) ds m' →
    Effects c streams m ds (streams ++ [s])
  | changed {i s s'} : streams[i]? = some s → s.Becomes ds s' →
    Effects c streams m ds (streams.set i s')

section
variable {streams : List RowStream}

theorem Call.Effects.modified {i : ℕ} {s : RowStream} {f : RowStream → RowStream} {ds : List Deed}
    (hi : streams[i]? = some s) (h : s.Becomes ds (f s)) :
    Call.Effects c streams m ds (streams.modify i f) := by
  rw [modify_eq_set_of_getElem? hi]
  exact .changed hi h

theorem Call.Effects.idle : Call.Effects c streams m [] streams :=
  .nothing fun _ => List.forall_mem_nil _

theorem Call.effects_execute {q : Query} {abort patience : Option ℕ}
    {o : Except Halt (Reply × List RowStream)}
    (h : (execute q abort patience : Call σ).Answering c streams m o ds m') :
    Effects c streams m ds ((execute q abort patience : Call σ).streamsAfter streams o) := by
  obtain ⟨o', hpatient, rfl⟩ := h
  have hexecuted : Effects c streams m ds streams := by
    cases hpatient with
    | ended h | givenUp h | halted h => exact .executed h
  rcases o' with _ | _ | _ <;> exact hexecuted

theorem Call.effects_stream {q : Query} {abort patience : Option ℕ}
    {o : Except Halt (Reply × List RowStream)}
    (h : (stream q abort patience : Call σ).Answering c streams m o ds m') :
    Effects c streams m ds ((stream q abort patience : Call σ).streamsAfter streams o) := by
  obtain ⟨o', hpatient, rfl⟩ := h
  cases hpatient with
  | @ended o _ _ htried =>
    cases htried with | ended hselecting =>
    cases o with
    | error e => exact .refused hselecting
    | ok s => exact .opened hselecting
  | givenUp htried | halted htried =>
    cases htried with | halted _ hselecting => exact .refused hselecting

theorem Call.effects_abortStream (i : ℕ) :
    Effects c streams m [] (streams.modify i fun s => { s with abort := some m }) := by
  cases hi : streams[i]? with
  | none =>
    rw [List.modify_eq_self (List.getElem?_eq_none_iff.1 hi)]
    exact .idle
  | some s => exact .modified hi (.same rfl rfl rfl)

section
variable {o : Except Halt (Reply × List RowStream)}
  (hstreams : ∀ s ∈ streams, s.done = false → s.lease.Proper)
include hstreams

theorem Call.effects_next {i patience : ℕ}
    (h : (next i patience : Call σ).Answering c streams m o ds m') :
    Effects c streams m ds ((next i patience : Call σ).streamsAfter streams o) := by
  cases h with
  | absent _ => exact .idle
  | present hi h =>
    obtain ⟨o', hawaiting, rfl⟩ := h
    rcases o' with _ | ⟨item, s'⟩
    · cases hawaiting
      exact .idle
    · exact .changed hi (hawaiting.becomes (hstreams _ (List.mem_of_getElem? hi)))

theorem Call.effects_closeStream {i : ℕ} {patience : Option ℕ}
    (h : (closeStream i patience : Call σ).Answering c streams m o ds m') :
    Effects c streams m ds ((closeStream i patience : Call σ).streamsAfter streams o) := by
  cases h with
  | absent _ => exact .idle
  | present hi h =>
    obtain ⟨o', hpatient, rfl⟩ := h
    have hchanged : Effects c streams m ds (streams.modify i finished) := by
      cases hpatient with
      | ended h | givenUp h | halted h =>
        exact .modified hi (h.becomes (hstreams _ (List.mem_of_getElem? hi)))
    rcases o' with _ | _ | _ <;> exact hchanged

theorem Call.effects_dropStream {i : ℕ}
    (h : (dropStream i : Call σ).Answering c streams m o ds m') :
    Effects c streams m ds ((dropStream i : Call σ).streamsAfter streams o) := by
  cases h with
  | absent _ => exact .idle
  | present hi h =>
    obtain ⟨rfl, rfl, rfl⟩ := h
    exact .modified hi (RowStream.becomes_drops (hstreams _ (List.mem_of_getElem? hi)))

/-- **A call does one thing** to the streams and connections that there are. -/
theorem Call.Answering.effects {call : Call σ} (h : call.Answering c streams m o ds m') :
    Call.Effects c streams m ds (call.streamsAfter streams o) := by
  cases call with
  | execute q abort patience => exact Call.effects_execute h
  | stream q abort patience => exact Call.effects_stream h
  | next i patience => exact Call.effects_next hstreams h
  | closeStream i patience => exact Call.effects_closeStream hstreams h
  | dropStream i => exact Call.effects_dropStream hstreams h
  | abortStream i =>
    obtain ⟨rfl, rfl, rfl⟩ := h
    exact Call.effects_abortStream i
  | close =>
    obtain ⟨rfl, rfl, rfl⟩ := h
    refine .nothing fun conn d hd => ?_
    unfold Client.closes at hd
    split at hd
    · cases hd
    · rw [List.mem_singleton.1 hd]
      rfl
  | transact callback =>
    obtain ⟨rfl, rfl, rfl⟩ := h
    exact .idle
  | wait time =>
    obtain ⟨o', hwaits, rfl⟩ := h
    cases hwaits <;> exact .idle

end

/-! ## Calls outside of transactions -/

/-- A stream that is opened takes its connection. -/
theorem Selecting.leaseChange {q : Query} {s : RowStream} (h : Selecting c q abort m (.ok s) ds m')
    (hc : c.transaction = none) (streams : List RowStream) (conn : ℕ) :
    LeaseChange conn ds (leasesOn conn streams) (leasesOn conn (streams ++ [s])) := by
  cases h with | compiled _ hs h =>
  obtain ⟨conn', hlease, hdone, hhas, hcancels, huses⟩ := h.opened_usesOnly hs
  have huses := huses _ (.outside hc)
  have hheld : conn' ∈ heldIn ds := hhas.mem_heldIn hc
  have hleases : leasesOn conn (streams ++ [s]) =
      leasesOn conn streams ++ (s.leaseOn? conn).toList := by
    unfold leasesOn
    rw [List.filterMap_append, List.filterMap_cons]
    cases s.leaseOn? conn <;> rfl
  rw [hleases]
  have hsconn : s.lease.conn = conn' := by rw [hlease, Client.lease]
  by_cases hconn : conn' = conn
  · have hon : s.leaseOn? conn = some s.lease := if_pos ⟨hdone, hsconn.trans hconn⟩
    rw [hon]
    subst hconn
    refine .opened hheld ?_ ?_ (hcancels conn')
    · rw [hlease]
      exact proper_lease
    · rw [hlease]
      exact huses.after
  · have hon : s.leaseOn? conn = none := if_neg fun h => hconn (hsconn.symm.trans h.2)
    rw [hon, Option.toList_none, List.append_nil]
    exact .aside (huses.others conn (Ne.symm hconn))

/-- **What a call does** outside of a transaction means nothing to the connections that other calls
and streams use. -/
theorem Call.Effects.leaseChange {streams' : List RowStream}
    (h : Call.Effects c streams m ds streams') (hc : c.transaction = none)
    (hnodup : (heldIn ds).Nodup) (conn : ℕ) :
    LeaseChange conn ds (leasesOn conn streams) (leasesOn conn streams') := by
  cases h with
  | nothing hnone => exact .aside (hnone conn)
  | executed h => exact (h.returnsTaken hc hnodup).leaseChange _ conn
  | refused h => exact (h.returnsTaken hc).leaseChange _ conn
  | opened h => exact h.leaseChange hc streams conn
  | changed hi h => exact leaseChange_set hi h conn

end

end QueryClient.Session
