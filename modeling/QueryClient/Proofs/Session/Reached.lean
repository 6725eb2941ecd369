/-
  The states that calls lead to.

  A transaction limits no session, whatever its work is.  So in every state that calls lead to, each
  connection is used by one open stream at most, and else nothing is left to be done about it.

  * `LimitsNothing`: what is done on the connection of a transaction;
  * `Transacted.returnsTaken`: a transaction is done with its connection in the end;
  * `LeasedBy`: the streams that are open on a connection, which are to restore its session;
  * `Reached.reachedBy`: there is one at most, in every state that calls lead to.
-/
import QueryClient.Proofs.Session.Transaction
import QueryClient.Proofs.Session.StreamLeases

namespace QueryClient.Session

open Run

variable {σ α β : Type} {c : Client} {conn m m' : ℕ} {abort : Option ℕ} {ds ds' : List Deed}

/-! ## Calls in transactions -/

/-- Deeds that limit no session, and concern one connection only. -/
def LimitsNothing (conn : ℕ) (ds : List Deed) : Prop :=
  ∀ k : Usage, k.Unlimited → UsesOnly conn k ds Usage.Unlimited

namespace LimitsNothing

theorem nil : LimitsNothing conn [] := fun _ hk => .nil hk

theorem append (h : LimitsNothing conn ds) (h' : LimitsNothing conn ds') :
    LimitsNothing conn (ds ++ ds') :=
  fun k hk => (h k hk).append h'

theorem letGo : LimitsNothing conn [.letGo m conn] := fun k hk => by
  refine .single (fun _ hconn' => useStep?_letGo_other (Ne.symm hconn')) ?_
  rw [Usage.step_letGo]
  exact hk.letGo

theorem asked {r : Request} {a : Answer Yield} (hr : ∀ conn', r.sessionStep? conn' = none) :
    LimitsNothing conn [.asked m r a] := fun k hk => by
  have hasks : Asks conn none m [.asked m r a] m := .asked (Nat.le_refl m) hr
  exact hasks.usesOnly (hk.imp id Or.inl) hk

end LimitsNothing

/-- A statement of a call in a transaction limits no session, and restores none. -/
theorem Request.Scoped.sessionStep?_eq_none {r : Request} (h : r.Scoped conn) (conn' : ℕ) :
    r.sessionStep? conn' = none := by
  rw [Option.eq_none_iff_forall_ne_some]
  intro k hsession
  cases k with
  | limit =>
    obtain ⟨limit, rfl⟩ := sessionStep?_eq_some_limit hsession
    obtain ⟨_, hvalues⟩ := h.2.2.2.2 rfl
    cases hvalues
  | stop =>
    obtain rfl := sessionStep?_eq_some_stop hsession
    exact h
  | reset =>
    obtain rfl := sessionStep?_eq_some_reset hsession
    exact h.2.1 rfl

/-- A deed that is confined to the connection limits no session, unless it is a statement that
does. -/
theorem Deed.ConfinedTo.limitsNothing {d : Deed} (h : d.ConfinedTo conn)
    (hd : ∀ x ∈ concerning conn [d], ∃ r v, x = .asked r v ∧ ∀ conn', r.sessionStep? conn' = none) :
    LimitsNothing conn [d] := by
  cases d with
  | asked m r a =>
    cases r with
    | acquire => exact h.elim
    | statement kind conn' sql values =>
      obtain rfl : conn' = conn := h
      rw [concerning_statement] at hd
      obtain ⟨_, _, he, hnone⟩ := hd _ List.mem_cons_self
      cases he
      exact .asked hnone
    | cancel conn' =>
      obtain rfl : conn' = conn := h
      exact fun k hk => (usesOnly_stop (.unlimited rfl hk) a).mono fun _ hused => hused.of_false
  | left m conn' steps =>
    obtain ⟨rfl, rfl⟩ := h
    intro k hk
    refine .single (fun _ hother => if_neg (Ne.symm hother)) ?_
    rw [Usage.step_left]
    exact hk.hand
  | closed | held | letGo => exact h.elim

theorem limitsNothing_of_confined (h : ∀ d ∈ ds, d.ConfinedTo conn)
    (hds : ∀ x ∈ concerning conn ds, ∃ r v, x = .asked r v ∧ ∀ conn', r.sessionStep? conn' = none) :
    LimitsNothing conn ds := by
  induction ds with
  | nil => exact .nil
  | cons d ds ih =>
    obtain ⟨hd, hrest⟩ := List.forall_mem_cons.1 h
    have hsplit : concerning conn (d :: ds) = concerning conn [d] ++ concerning conn ds :=
      concerning_append conn [d] ds
    rw [hsplit] at hds
    exact (hd.limitsNothing fun x hx => hds x (List.mem_append_left _ hx)).append
      (ih hrest fun x hx => hds x (List.mem_append_right _ hx))

/-! ## Transactions -/

/-- A statement that begins or closes a transaction has nothing to do with the limit of a
session. -/
theorem sessionStep?_bracket {sql : String} (hsql : sql ∈ brackets) (conn' : ℕ) :
    (Request.statement .batch conn sql []).sessionStep? conn' = none := by
  have hreset : resetStatement ∉ brackets := by decide
  rw [Option.eq_none_iff_forall_ne_some]
  intro k hsession
  cases k with
  | limit =>
    obtain ⟨_, he⟩ := sessionStep?_eq_some_limit hsession
    cases he
  | stop => cases sessionStep?_eq_some_stop hsession
  | reset =>
    obtain ⟨-, -, he, -⟩ := Request.statement.inj (sessionStep?_eq_some_reset hsession)
    exact hreset (he ▸ hsql)

section
variable {plan : Except String (Work σ α)}

/-- What concerns the connection of a transaction has nothing to do with the limit of a session. -/
theorem Transacts.sessionStep?_eq_none {t : List Happening} (h : Transacts c conn plan t) :
    ∀ x ∈ t, ∃ r v, x = .asked r v ∧ ∀ conn', r.sessionStep? conn' = none := by
  have hbegin : ∀ v, ∃ r v', Happening.batch conn "BEGIN" v = .asked r v' ∧
      ∀ conn', r.sessionStep? conn' = none :=
    fun v => ⟨_, v, rfl, sessionStep?_bracket (by decide)⟩
  cases h with
  | @idle v =>
    intro x hx
    rw [List.mem_singleton.1 hx]
    exact hbegin v
  | @working _ _ _ v _ _ hperforms hcloses =>
    intro x hx
    rcases List.mem_cons.1 hx with rfl | hx
    · exact hbegin v
    rcases List.mem_append.1 hx with hx | hx
    · obtain ⟨r, v, rfl, hscoped⟩ := hperforms.asks x hx
      exact ⟨r, v, rfl, hscoped.sessionStep?_eq_none⟩
    · obtain ⟨sql, hsql, v, rfl⟩ := hcloses.batches x hx
      exact ⟨_, v, rfl, sessionStep?_bracket hsql⟩

/-- **A transaction** is done with its connection in the end, and means nothing to the others. -/
theorem Transacted.returnsTaken (h : Transacted c plan m ds) : ReturnsTaken false ds := by
  cases h with
  | nested _ => exact returnsTaken_of_none fun _ => List.forall_mem_nil _
  | unacquired h => exact returnsTaken_of_none (Connecting.useStep?_error h)
  | @acquired conn m₁ m' ds ds' h hconfined htransacts =>
    obtain ⟨hhas, huses⟩ := Connecting.usesOnly h
    have hon : LimitsNothing conn (ds' ++ [.letGo m' conn]) :=
      (limitsNothing_of_confined hconfined htransacts.sessionStep?_eq_none).append .letGo
    have hall : UsesOnly conn .untaken (ds ++ (ds' ++ [.letGo m' conn])) Usage.Unlimited :=
      (huses _ (.outside rfl)).append fun k hk => hon k hk.of_false
    refine (hall.mono fun k hk => .unlimited rfl hk).returnsTaken ?_
    rw [heldIn_append]
    exact List.mem_append_left _ (hhas.mem_heldIn rfl)

end

/-! ## The streams that are open on a connection -/

/-- Who is to restore the session on a connection after some deeds: a stream that is open on it, or
no call any more. -/
inductive LeasedBy (conn : ℕ) (ds : List Deed) : List Lease → Prop
  | none : (Usage.after conn .untaken ds).Idle → LeasedBy conn ds []
  /-- As long as the stream is open, nothing was stopped. -/
  | one {l} : l.Proper → (Usage.after conn .untaken ds).Used l.reset → cancelsOf conn ds = 0 →
    LeasedBy conn ds [l]

theorem cancels_of_none (h : ∀ d ∈ ds, d.useStep? conn = none) : cancelsOf conn ds = 0 := by
  refine List.sum_eq_zero fun n hn => ?_
  obtain ⟨d, hd, rfl⟩ := List.mem_map.1 hn
  have hnone := h d hd
  cases d with
  | asked m r a =>
    cases r with
    | cancel c =>
      refine if_neg fun hc => ?_
      simp [Deed.useStep?, hc] at hnone
    | acquire | statement => rfl
  | left m c steps =>
    refine if_neg fun hc => ?_
    simp [Deed.useStep?, hc] at hnone
  | closed | held | letGo => rfl

namespace Usage

theorem next_ne_untaken {k : Usage} (h : k ≠ .untaken) (a : UseStep) : k.next a ≠ .untaken := by
  have hif : ∀ {p : Prop} [Decidable p] {k : Usage}, k ≠ .untaken →
      (if p then k else .misused) ≠ .untaken := by
    intro p _ k hk
    split
    · exact hk
    · exact Usage.noConfusion
  cases k with
  | untaken => exact absurd rfl h
  | limited | restoring =>
    cases a with
    | asked m a t => cases t <;> exact Usage.noConfusion
    | hand steps => exact hif Usage.noConfusion
    | letGo m => first | exact hif Usage.noConfusion | exact Usage.noConfusion
    | take => exact Usage.noConfusion
  | fresh | plain | handed | restored | misused =>
    cases a with
    | asked m a t => cases t <;> exact Usage.noConfusion
    | _ => exact Usage.noConfusion

theorem after_ne_untaken {k : Usage} (h : k ≠ .untaken) : after conn k ds ≠ .untaken := by
  induction ds generalizing k with
  | nil => exact h
  | cons d ds ih =>
    refine ih ?_
    unfold step
    cases d.useStep? conn with
    | none => exact h
    | some a => exact next_ne_untaken h a

/-- Deeds that are nothing to a connection do not take it. -/
theorem none_of_after_untaken (h : after conn .untaken ds = .untaken) :
    ∀ d ∈ ds, d.useStep? conn = none := by
  induction ds with
  | nil => exact List.forall_mem_nil _
  | cons d ds ih =>
    rw [after_cons] at h
    have hnone : d.useStep? conn = none := by
      cases huse : d.useStep? conn with
      | none => rfl
      | some a =>
        have hnext : Usage.untaken.step conn d ≠ .untaken := by
          rw [step, huse]
          cases a <;> exact Usage.noConfusion
        exact absurd h (after_ne_untaken hnext)
    rw [step_of_none hnone] at h
    exact List.forall_mem_cons.2 ⟨hnone, ih h⟩

theorem after_of_not_held (h : conn ∉ heldIn ds) :
    after conn .untaken ds = .untaken ∨ after conn .untaken ds = .misused := by
  induction ds with
  | nil => exact Or.inl rfl
  | cons d ds ih =>
    have hrest : conn ∉ heldIn ds := fun hmem => by
      obtain ⟨m, hd⟩ := mem_heldIn.1 hmem
      exact h (mem_heldIn.2 ⟨m, List.mem_cons_of_mem _ hd⟩)
    have hstep : Usage.untaken.step conn d = .untaken ∨ Usage.untaken.step conn d = .misused := by
      unfold step
      cases huse : d.useStep? conn with
      | none => exact Or.inl rfl
      | some a =>
        cases a with
        | take =>
          refine absurd (mem_heldIn.2 ?_) h
          cases d with
          | held m c =>
            obtain ⟨rfl, -⟩ := Option.ite_none_right_eq_some.1 huse
            exact ⟨m, List.mem_cons_self⟩
          | asked m r a =>
            obtain ⟨_, -, hno⟩ := Option.map_eq_some_iff.1 huse
            cases hno
          | closed => cases huse
          | letGo | left =>
            obtain ⟨-, hno⟩ := Option.ite_none_right_eq_some.1 huse
            cases hno
        | _ => exact Or.inr rfl
    rw [after_cons]
    rcases hstep with he | he <;> rw [he]
    · exact ih hrest
    · exact Or.inr after_misused

end Usage

theorem LeasedBy.ne_misused {ls : List Lease} (h : LeasedBy conn ds ls) :
    Usage.after conn .untaken ds ≠ .misused := by
  cases h with
  | none hidle => exact hidle.ne_misused
  | one _ hused _ => rcases hused.cases with he | he | he <;> rw [he] <;> exact Usage.noConfusion

/-- A connection that is not taken yet is a new one. -/
theorem LeasedBy.untaken {ls : List Lease} (h : LeasedBy conn ds ls) (hconn : conn ∉ heldIn ds) :
    Usage.after conn .untaken ds = .untaken :=
  (Usage.after_of_not_held hconn).resolve_right h.ne_misused

/-- No stream is open on a new connection. -/
theorem LeasedBy.eq_nil_of_untaken {ls : List Lease} (h : LeasedBy conn ds ls)
    (hconn : Usage.after conn .untaken ds = .untaken) : ls = [] := by
  cases h with
  | none _ => rfl
  | one _ hused _ =>
    rcases hused.cases with he | he | he <;> rw [hconn] at he <;> cases he

/-- **One stream at most** stays open on a connection, whatever calls do. -/
theorem LeaseChange.leasedBy {ls ls' : List Lease} (h' : LeaseChange conn ds' ls ls')
    (h : LeasedBy conn ds ls) (hconn : conn ∈ heldIn ds' → conn ∉ heldIn ds) :
    LeasedBy conn (ds ++ ds') ls' := by
  cases h' with
  | aside hnone =>
    have hafter : Usage.after conn .untaken (ds ++ ds') = Usage.after conn .untaken ds := by
      rw [Usage.after_append, Usage.after_of_none hnone]
    cases h with
    | none hidle => exact .none (hafter.symm ▸ hidle)
    | one hproper hused hcancels =>
      refine .one hproper (hafter.symm ▸ hused) ?_
      rw [cancelsOf_append, hcancels, cancels_of_none hnone]
  | taken hheld hidle =>
    have huntaken := h.untaken (hconn hheld)
    rw [h.eq_nil_of_untaken huntaken]
    refine .none ?_
    rw [Usage.after_append, huntaken]
    exact hidle
  | opened hheld hproper hused hcancels =>
    have huntaken := h.untaken (hconn hheld)
    rw [h.eq_nil_of_untaken huntaken]
    refine .one hproper ?_ ?_
    · rw [Usage.after_append, huntaken]
      exact hused
    · rw [cancelsOf_append, hcancels, cancels_of_none (Usage.none_of_after_untaken huntaken)]
  | @ended xs l ys hidle =>
    generalize hls : xs ++ l :: ys = ls at h
    cases h with
    | none _ => simp at hls
    | one _ hused _ =>
      obtain ⟨rfl, he⟩ | ⟨_, rfl, he⟩ := List.append_eq_cons_iff.1 hls
      · obtain ⟨rfl, rfl⟩ := List.cons.inj he
        refine .none ?_
        rw [Usage.after_append]
        exact hidle _ hused
      · simp at he

/-! ## Sessions -/

/-- What leads to a state, in which one stream at most is open on every connection. -/
structure ReachedBy (source : Source σ) (st : σ) (ds : List Deed) (entries : List Entry)
    (s : State σ) (streams : List RowStream) : Prop where
  passage : Passage source { source := st } ds entries s
  leasedBy : ∀ conn, LeasedBy conn ds (leasesOn conn streams)

namespace ReachedBy

variable {source : Source σ} {st : σ} {s s' : State σ} {entries entries' : List Entry}
  {streams streams' : List RowStream}

theorem consistent (h : ReachedBy source st ds entries s streams) (conn : ℕ) :
    s.Consistent conn (Usage.after conn .untaken ds) (sessionState conn .untouched entries) ∧
      ReleasedClear conn .untouched entries := by
  refine h.passage.consistent (.untaken List.not_mem_nil rfl) (h.leasedBy conn).ne_misused

/-- As long as a stream is open, nothing was stopped on its connection. -/
theorem opened (h : ReachedBy source st ds entries s streams) {stream : RowStream}
    (hmem : stream ∈ streams) (hdone : stream.done = false) :
    stream.lease.Proper ∧ cancelsOf stream.lease.conn ds = 0 := by
  have hlease : stream.lease ∈ leasesOn stream.lease.conn streams :=
    List.mem_filterMap.2 ⟨stream, hmem, if_pos ⟨hdone, rfl⟩⟩
  have hleased := h.leasedBy stream.lease.conn
  generalize leasesOn stream.lease.conn streams = ls at hlease hleased
  cases hleased with
  | none _ => cases hlease
  | one hproper _ hcancels =>
    refine ⟨?_, hcancels⟩
    rw [List.mem_singleton.1 hlease]
    exact hproper

/-- A connection that is taken is none that was taken before. -/
theorem fresh (h : ReachedBy source st ds entries s streams)
    (hpassage : Passage source s ds' entries' s') (hconn : conn ∈ heldIn ds') :
    conn ∉ heldIn ds := by
  intro hmem
  obtain ⟨m, hd⟩ := mem_heldIn.1 hconn
  obtain ⟨m', hd'⟩ := mem_heldIn.1 hmem
  have hnew := (hpassage.held_fresh hd).1
  have hold := (h.passage.held_fresh hd').2
  omega

theorem step (h : ReachedBy source st ds entries s streams)
    (hpassage : Passage source s ds' entries' s')
    (hchange : ∀ conn, LeaseChange conn ds' (leasesOn conn streams) (leasesOn conn streams')) :
    ReachedBy source st (ds ++ ds') (entries ++ entries') s' streams' :=
  ⟨h.passage.trans hpassage, fun conn =>
    (hchange conn).leasedBy (h.leasedBy conn) (h.fresh hpassage)⟩

theorem call {c : Client} {call : Call σ} {deadlines : List ℕ}
    {o : Except Halt (Reply × List RowStream)} (h : ReachedBy source st ds entries s streams)
    (hc : c.transaction = none) (hplain : call.isTransaction = false)
    (hexec : (call.answer c streams).exec ⟨source, deadlines⟩ s = (o, s')) :
    ∃ ds entries, ReachedBy source st ds entries s' (call.streamsAfter streams o) := by
  have hin : call.isTransaction → c.inTransaction := fun he => absurd he (by simp [hplain])
  have hacts : Acts ⟨source, deadlines⟩ s.now (call.answer c streams)
      (call.Answering c streams s.now) := Call.acts_answer hin
  obtain ⟨ds', entries', hpassage, hanswering⟩ := hacts.passes s rfl
  rw [hexec] at hpassage hanswering
  have heffects := hanswering.effects fun s hs hdone => (h.opened hs hdone).1
  exact ⟨_, _, h.step hpassage (heffects.leaseChange hc hpassage.nodup_heldIn)⟩

end ReachedBy

/-- The states that calls of clients outside of a transaction lead to, and the streams that are open
then.  Each call has callers of its own, who may give it up. -/
inductive Reached (source : Source σ) : State σ → List RowStream → Prop
  | start (st : σ) : Reached source { source := st } []
  | settled {s : State σ} {streams : List RowStream} (before : Reached source s streams) :
    Reached source (s.settle source) streams
  | answered {s s' : State σ} {streams streams' : List RowStream} {c : Client} {call : Call σ}
    {deadlines : List ℕ} {reply : Reply} (before : Reached source s streams)
    (outside : c.transaction = none) (plain : call.isTransaction = false)
    (ends : (call.answer c streams).exec ⟨source, deadlines⟩ s = (.ok (reply, streams'), s')) :
    Reached source s' streams'
  | givenUp {s s' : State σ} {streams : List RowStream} {c : Client} {call : Call σ}
    {deadlines : List ℕ} {halt : Halt} (before : Reached source s streams)
    (outside : c.transaction = none) (plain : call.isTransaction = false)
    (ends : (call.answer c streams).exec ⟨source, deadlines⟩ s = (.error halt, s')) :
    Reached source s' (call.leaves streams)
  | transacted {s s' : State σ} {streams : List RowStream} {c : Client} {deadlines : List ℕ}
    {α : Type} {plan : Except String (Work σ α)} {outcome : Except Halt (Response α)}
    (before : Reached source s streams) (outside : c.transaction = none)
    (ends : (c.transact (Work.callback plan)).exec ⟨source, deadlines⟩ s = (outcome, s')) :
    Reached source s' streams

/-- **In every state that calls lead to**, one stream at most is open on every connection. -/
theorem Reached.reachedBy {source : Source σ} {s : State σ} {streams : List RowStream}
    (h : Reached source s streams) : ∃ st ds entries, ReachedBy source st ds entries s streams := by
  induction h with
  | start st => exact ⟨st, [], [], .refl _, fun conn => .none (Or.inl rfl)⟩
  | @settled s streams _ ih =>
    obtain ⟨st, ds, entries, h⟩ := ih
    obtain ⟨⟨entries', hidle⟩, -, -⟩ := State.idle_settle source s
    exact ⟨st, _, _, h.step hidle fun conn => .aside (List.forall_mem_nil _)⟩
  | answered _ outside plain ends ih =>
    obtain ⟨st, ds, entries, h⟩ := ih
    exact ⟨st, h.call outside plain ends⟩
  | givenUp _ outside plain ends ih =>
    obtain ⟨st, ds, entries, h⟩ := ih
    exact ⟨st, h.call outside plain ends⟩
  | @transacted s s' streams c deadlines _ plan outcome _ outside ends ih =>
    obtain ⟨st, ds, entries, h⟩ := ih
    have hacts : Acts ⟨source, deadlines⟩ s.now (c.transact (Work.callback plan)) _ :=
      Client.acts_transact c plan
    obtain ⟨ds', entries', hpassage, htransacted⟩ := hacts.passes s rfl
    rw [ends] at hpassage
    exact ⟨st, _, _, h.step hpassage fun conn => htransacted.returnsTaken.leaseChange _ conn⟩

/-- **The states that calls lead to are sound.** -/
theorem Reached.sound {source : Source σ} {s : State σ} {streams : List RowStream}
    (h : Reached source s streams) : s.Sound := by
  obtain ⟨st, ds, entries, hreached⟩ := h.reachedBy
  intro c hc
  by_contra hlt
  have hnew : c.conn ∉ heldIn ds := fun hmem => by
    obtain ⟨m, hd⟩ := mem_heldIn.1 hmem
    exact hlt (hreached.passage.held_fresh hd).2
  have hnone := Usage.none_of_after_untaken ((hreached.leasedBy c.conn).untaken hnew)
  refine hreached.passage.undisturbed (fun _ hc' => nomatch hc') (fun m steps hmem => ?_) c hc rfl
  have huse := hnone _ hmem
  rw [Deed.useStep?, if_pos rfl] at huse
  cases huse

end QueryClient.Session
