/-
  Sessions are restored.

  Once a call has limited the session on a connection, the session is asked to be restored, and the
  connection is not released before that is answered.  Only a request to stop that is never answered
  is in the way: the cleanup that made it goes on waiting, and keeps the connection.

  * `Unsettles`, `Restores`, `Hangs`: what a chronicle says about the session on a connection;
  * `Unstopped`: the server is only asked to stop what a call does if its caller aborts;
  * `Recovers`: a connection that a call had when it was given up is stopped and then restored;
  * `Restoring`: all of that together; `session_restored`: it is so whatever calls have done before.
-/
import QueryClient.Proofs.Session.Reached
import QueryClient.Proofs.Session.GivenUp

namespace QueryClient.Session

open Run

variable {σ : Type} {c : Client} {conn m m₁ m' : ℕ} {abort : Option ℕ} {ds ds' : List Deed}

/-! ## What a chronicle says -/

/-- An entry that limits the session on a connection. -/
def Entry.Limits (conn : ℕ) (x : Entry) : Prop :=
  ∃ m limit a, x = .asked m (sessionLimit conn limit) a

/-- An entry after which the session on a connection has to be restored: the session is limited, or
the server is asked to stop after it was. -/
def Unsettles (conn : ℕ) (front : List Entry) (x : Entry) : Prop :=
  x.Limits conn ∨ (∃ m a, x = .asked m (.cancel conn) a) ∧ ∃ y ∈ front, y.Limits conn

/-- The session on a connection is asked to be restored. -/
def Resets (conn : ℕ) (entries : List Entry) : Prop :=
  ∃ m a, .asked m (resetRequest conn) a ∈ entries

/-- That is answered by some moment, with success or not. -/
def Restores (conn t : ℕ) (entries : List Entry) : Prop :=
  ∃ m a, .asked m (resetRequest conn) a ∈ entries ∧
    Inquiry.AnsweredBy t ⟨m, resetRequest conn, a⟩

/-- The server was asked to stop, and has not answered by some moment. -/
def Hangs (conn t : ℕ) (entries : List Entry) : Prop :=
  ∃ m a, .asked m (.cancel conn) a ∈ entries ∧ ¬ Inquiry.AnsweredBy t ⟨m, .cancel conn, a⟩

section
variable {front mid back entries : List Entry} {x : Entry} {t : SessionState}

theorem sessionState_of_limits (h : ∃ y ∈ entries, y.Limits conn) :
    sessionState conn t entries ≠ .untouched := by
  obtain ⟨y, hy, m, limit, a, rfl⟩ := h
  obtain ⟨front, back, rfl⟩ := List.append_of_mem hy
  rw [sessionState_append, sessionState_cons, update_asked, sessionStep?_sessionLimit, if_pos rfl]
  exact sessionState_ne_untouched SessionState.noConfusion

/-- How the session stands then. -/
theorem Unsettles.update (h : Unsettles conn front x) :
    (sessionState conn .untouched front).update conn x = .limited ∨ ∃ m a,
      x = .asked m (.cancel conn) a ∧
        (sessionState conn .untouched front).update conn x = .stopping m a := by
  rcases h with ⟨m, limit, a, rfl⟩ | ⟨⟨m, a, rfl⟩, hlimits⟩
  · left
    rw [update_asked, sessionStep?_sessionLimit, if_pos rfl]
    rfl
  · right
    have hlimited : sessionState conn .untouched front ≠ .untouched :=
      sessionState_of_limits hlimits
    refine ⟨m, a, rfl, ?_⟩
    rw [update_asked, sessionStep?_cancel, if_pos rfl]
    cases hfront : sessionState conn .untouched front with
    | untouched => exact absurd hfront hlimited
    | _ => rfl

theorem Unsettles.sessionState_ne (h : Unsettles conn front x) :
    sessionState conn .untouched (front ++ x :: back) ≠ .untouched := by
  rw [sessionState_append, sessionState_cons]
  refine sessionState_ne_untouched ?_
  rcases h.update with he | ⟨_, _, -, he⟩ <;> rw [he] <;> exact SessionState.noConfusion

theorem Unsettles.of_restoring {a : Answer Yield} (h : Unsettles conn front x)
    (hstate : sessionState conn .untouched (front ++ x :: back) = .restoring m a) :
    .asked m (resetRequest conn) a ∈ back := by
  rw [sessionState_append, sessionState_cons] at hstate
  refine (sessionState_eq_restoring hstate).resolve_left fun he => ?_
  rcases h.update with he' | ⟨_, _, -, he'⟩ <;> rw [he'] at he <;> cases he

theorem Unsettles.of_stopping {a : Answer Yield} (h : Unsettles conn front x)
    (hstate : sessionState conn .untouched (front ++ x :: back) = .stopping m a) :
    .asked m (.cancel conn) a ∈ x :: back := by
  rw [sessionState_append, sessionState_cons] at hstate
  rcases sessionState_eq_stopping hstate with he | hmem
  · rcases h.update with he' | ⟨_, _, rfl, he'⟩ <;> rw [he'] at he <;> cases he
    exact List.mem_cons_self
  · exact List.mem_cons_of_mem _ hmem

/-- **Nothing is left to be done** when the session is restored. -/
theorem Unsettles.of_clear (h : Unsettles conn front x) {now : ℕ}
    (hclear : (sessionState conn .untouched (front ++ x :: back)).Clear now) :
    Restores conn now back := by
  cases hstate : sessionState conn .untouched (front ++ x :: back) with
  | untouched => exact absurd hstate h.sessionState_ne
  | restoring m a =>
    rw [hstate] at hclear
    exact ⟨m, a, h.of_restoring hstate, hclear⟩
  | limited | stopping =>
    rw [hstate] at hclear
    cases hclear

theorem Restores.resets {now : ℕ} (h : Restores conn now entries) : Resets conn entries := by
  obtain ⟨m, a, hmem, -⟩ := h
  exact ⟨m, a, hmem⟩

/-- A connection that is released was restored before. -/
theorem ReleasedClear.restores (h : ReleasedClear conn .untouched entries)
    (he : entries = front ++ x :: (mid ++ .noted m (.released conn) :: back))
    (hx : Unsettles conn front x) : Restores conn m mid := by
  have hsplit : entries = (front ++ x :: mid) ++ .noted m (.released conn) :: back := by simp [he]
  rw [hsplit, releasedClear_append] at h
  exact hx.of_clear (h.2.1 m rfl)

/-- When all cleanups wait, they wait for what comes later. -/
theorem State.Settled.pending {s : State σ} (hs : s.Settled) :
    ∀ c ∈ s.cleanupsOn conn, ∃ p, c.pending = some p ∧ ∀ due ∈ p.due, s.now < due :=
  fun c hc => hs c (List.mem_filter.1 hc).1

theorem State.Settled.cleanupsOn_ne {s : State σ} (hs : s.Settled) {steps : List CleanupStep} :
    s.cleanupsOn conn ≠ [⟨conn, none, steps⟩] := by
  intro hone
  obtain ⟨_, hno, -⟩ := hs.pending _ (hone ▸ List.mem_cons_self)
  cases hno

/-- When all cleanups wait, a session is being restored, or the server has not stopped yet. -/
theorem State.Consistent.restores {s : State σ}
    (h : s.Consistent conn .handed (sessionState conn .untouched (front ++ x :: back)))
    (hs : s.Settled) (hx : Unsettles conn front x) :
    Resets conn back ∨ Hangs conn s.now (x :: back) := by
  generalize hstate : sessionState conn .untouched (front ++ x :: back) = t at h
  cases h with
  | handed hone _ | resetDone hone _ => exact absurd hone hs.cleanupsOn_ne
  | @stopping p m a hone hdue =>
    obtain ⟨_, he, hlater⟩ := hs.pending _ (hone ▸ List.mem_cons_self)
    cases he
    refine Or.inr ⟨m, a, hx.of_stopping hstate, ?_⟩
    rintro ⟨w, hw, hle⟩
    have := hlater (m + w) (by rw [hdue, hw]; rfl)
    dsimp only at hle
    omega
  | @resetting p m a _ _ => exact Or.inl ⟨m, a, hx.of_restoring hstate⟩
  | past _ hclear =>
    rw [← hstate] at hclear
    exact Or.inl (hx.of_clear hclear).resets

/-- **In a session** that calls have led to, connections are restored or being restored, or used by
a stream, or the server has not stopped yet what it does there. -/
theorem ReachedBy.restores {source : Source σ} {st : σ} {s : State σ} {streams : List RowStream}
    (h : ReachedBy source st ds (front ++ x :: back) s streams) (hs : s.Settled)
    (hx : Unsettles conn front x) :
    Resets conn back ∨ (∃ stream ∈ streams, stream.done = false ∧ stream.lease.conn = conn) ∨
      Hangs conn s.now (x :: back) := by
  have hconsistent := (h.consistent conn).1
  have hleased := h.leasedBy conn
  generalize hls : leasesOn conn streams = ls at hleased
  cases hleased with
  | one _ _ _ =>
    right
    left
    have hmem : _ ∈ leasesOn conn streams := hls ▸ List.mem_cons_self
    obtain ⟨stream, hstream, hlease⟩ := List.mem_filterMap.1 hmem
    obtain ⟨hdone, hconn, -⟩ := leaseOn?_eq_some hlease
    exact ⟨stream, hstream, hdone, hconn⟩
  | none hidle =>
    have hlimited : sessionState conn .untouched (front ++ x :: back) ≠ .untouched :=
      hx.sessionState_ne
    generalize Usage.after conn .untaken ds = k at hidle hconsistent
    have huntouched : ∀ {k : Usage}, k = .untaken ∨ k.Unlimited →
        s.Consistent conn k (sessionState conn .untouched (front ++ x :: back)) → False := by
      rintro k (rfl | rfl | rfl) hconsistent
      all_goals
        generalize sessionState conn .untouched (front ++ x :: back) = t at hconsistent hlimited
        cases hconsistent
        exact hlimited rfl
    rcases hidle with he | ⟨reset, hdone⟩
    · exact (huntouched (Or.inl he) hconsistent).elim
    · cases hdone with
      | unlimited _ hun => exact (huntouched (Or.inr hun) hconsistent).elim
      | handed _ => exact (hconsistent.restores hs hx).imp id Or.inr
      | restored _ =>
        left
        generalize hstate : sessionState conn .untouched (front ++ x :: back) = t at hconsistent
        cases hconsistent with | restored _ hclear =>
        rw [← hstate] at hclear
        exact (hx.of_clear hclear).resets

theorem limits_of_sessionState (h : sessionState conn .untouched entries ≠ .untouched) :
    ∃ y ∈ entries, y.Limits conn := by
  induction entries with
  | nil => exact absurd rfl h
  | cons y ys ih =>
    rw [sessionState_cons] at h
    have hstays : SessionState.untouched.update conn y = .untouched →
        ∃ y' ∈ y :: ys, y'.Limits conn := by
      intro he
      rw [he] at h
      obtain ⟨y', hy', hlimits⟩ := ih h
      exact ⟨y', List.mem_cons_of_mem _ hy', hlimits⟩
    rcases update_cases conn .untouched y with he | ⟨m, limit, a, rfl, -⟩ | ⟨m, a, rfl, -⟩ |
      ⟨m, a, rfl, -⟩
    · exact hstays he
    · exact ⟨_, List.mem_cons_self, m, limit, a, rfl⟩
    · refine hstays ?_
      rw [update_asked, sessionStep?_cancel, if_pos rfl]
      rfl
    · refine hstays ?_
      rw [update_asked, sessionStep?_resetRequest, if_pos rfl]
      rfl

end

/-! ## Calls that come to their end -/

/-- The server is not asked to stop anything, beyond what cleanups were to ask before. -/
def Unstopped (source : Source σ) (s s' : State σ) : Prop :=
  ∃ entries, Chronicles source s entries s' ∧ ∀ conn,
    entries.countP (·.isCancel conn) + s'.cancelsLeft conn = s.cancelsLeft conn

section
variable {source : Source σ} {s s' : State σ} {entries : List Entry} {q : Query}
  {deadlines : List ℕ}

theorem Passage.unstopped (h : Passage source s ds entries s')
    (hconcluded : Concluded abort m ds m') (habort : ∀ t ∈ abort, m' < t) :
    Unstopped source s s' := by
  refine ⟨entries, h.chronicles, fun conn => ?_⟩
  rw [h.cancels, hconcluded.unstopped habort, Nat.add_zero]

theorem unstopped_execute {r : Response Json}
    (hexec : (c.execute q abort).exec ⟨source, deadlines⟩ s = (.ok r, s'))
    (habort : ∀ t ∈ abort, s'.now < t) : Unstopped source s s' := by
  have hacts : Acts ⟨source, deadlines⟩ s.now (c.execute q abort) (Executing c q abort s.now) :=
    Client.acts_execute q
  obtain ⟨ds, entries, hpassage, hexecuting⟩ := hacts.passes s rfl
  rw [hexec] at hpassage hexecuting
  exact hpassage.unstopped hexecuting.concluded habort

theorem unstopped_stream {o : Except Error RowStream}
    (hexec : (c.stream q abort).exec ⟨source, deadlines⟩ s = (o.mapError .failed, s'))
    (habort : ∀ t ∈ abort, s'.now < t) : Unstopped source s s' := by
  have hacts : Acts ⟨source, deadlines⟩ s.now (c.stream q abort) (Selecting c q abort s.now) :=
    Client.acts_stream q abort
  obtain ⟨ds, entries, hpassage, hselecting⟩ := hacts.passes s rfl
  rw [hexec] at hpassage hselecting
  exact hpassage.unstopped hselecting.concluded habort

end

/-- A stream that comes to an end without an abort has the server stop nothing. -/
theorem RowStream.Awaiting.cancels_eq_zero {stream stream' : RowStream} {item : Item}
    (h : stream.Awaiting m (.ok (item, stream')) ds m') (habort : ∀ t ∈ stream.abort, m' < t) :
    cancelsOf conn ds = 0 := by
  have hfinishes : ∀ {stream : RowStream} {m}, cancelsOf conn (stream.finishes false m) = 0 := by
    intro stream m
    unfold finishes Lease.discards
    rw [cancelsOf_append, Lease.cancels_letsGo, Nat.add_zero]
    split
    · rfl
    · rw [cancelsOf_cons, cancelsOf_nil, Nat.add_zero, Deed.cancels]
      split
      · exact List.count_eq_zero.2 (cancel_notMem_cleanupSteps _)
      · rfl
  have hpolling : ∀ {stream₁ : RowStream} {ds}, stream₁.abort = stream.abort →
      stream₁.Polling m' item stream' ds → cancelsOf conn ds = 0 := by
    intro stream₁ ds he h
    cases h with
    | aborted _ ht hle =>
      rw [he] at ht
      exact absurd (habort _ ht) (Nat.not_lt.2 hle)
    | exhausted | failed => exact hfinishes
    | past | row | pending => rfl
  cases h with
  | polled h => exact hpolling rfl h
  | waited hpending _ h =>
    cases hpending
    have hlater : ({ stream with asked := some (stream.asked.getD m) } : RowStream).abort =
        stream.abort := rfl
    exact hpolling hlater h

namespace ReachedBy

variable {source : Source σ} {st : σ} {s s' : State σ} {entries : List Entry}
  {streams : List RowStream} {deadlines : List ℕ}

/-- No stop is asked for on the connection of a stream that comes to an end without an abort. -/
theorem exhausted (h : ReachedBy source st ds entries s streams) {i patience : ℕ} {item : Item}
    {stream stream' : RowStream} (hi : streams[i]? = some stream) (hopen : stream.done = false)
    (hexec : (stream.next patience).exec ⟨source, deadlines⟩ s = (.ok (item, stream'), s'))
    (habort : ∀ t ∈ stream.abort, s'.now < t) :
    ∃ entries', Chronicles source s entries' s' ∧
      (entries ++ entries').countP (·.isCancel stream.lease.conn) +
        s'.cancelsLeft stream.lease.conn = 0 := by
  have hacts : Acts ⟨source, deadlines⟩ s.now (stream.next patience) (stream.Awaiting s.now) :=
    RowStream.acts_next patience
  obtain ⟨ds', entries', hpassage, hawaiting⟩ := hacts.passes s rfl
  rw [hexec] at hpassage hawaiting
  refine ⟨entries', hpassage.chronicles, ?_⟩
  have hbefore : cancelsOf stream.lease.conn ds = 0 := (h.opened (List.mem_of_getElem? hi) hopen).2
  rw [(h.passage.trans hpassage).cancels, cancelsOf_append, hbefore,
    hawaiting.cancels_eq_zero habort]
  rfl

/-! ## Calls that are given up -/

/-- A connection that was taken and is restored was released. -/
theorem released_of_restored (h : ReachedBy source st ds entries s streams)
    {entries' : List Entry} (hpassage : Passage source s ds' entries' s')
    (huntaken : Usage.after conn .untaken ds = .untaken)
    (hrestored : Usage.after conn .untaken ds' = .restored) :
    ∃ m, .noted m (.released conn) ∈ entries' := by
  obtain ⟨front, m, back, due, rfl, hfront⟩ :=
    (Usage.exists_letGo_of_restored hrestored).resolve_left Usage.noConfusion
  obtain ⟨s₁, s₂, xs₁, x, xs₂, hbefore, hlets, -, rfl⟩ := hpassage.split
  have hconsistent := (h.consistent conn).1
  rw [huntaken] at hconsistent
  have hsole : s₁.HeldByOne conn := by
    have hconsistent₁ := (hbefore.consistent hconsistent (hfront ▸ Usage.noConfusion)).1
    rw [hfront] at hconsistent₁
    generalize sessionState conn _ xs₁ = t at hconsistent₁
    cases hconsistent₁ with | restoring hsole => exact hsole
  have hfree : conn ∉ s₁.held.erase conn := by
    rw [← List.count_eq_zero, List.count_erase_self, hsole.1]
  have hnone : ∀ c ∈ s₁.cleanups, c.conn ≠ conn := State.cleanupsOn_eq_nil_iff.1 hsole.2
  cases hlets with
  | letsGo hor =>
    rcases hor with hheld | ⟨c, hc, hconn⟩
    · exact absurd hheld hfree
    · exact absurd hconn (hnone c hc)
  | frees _ _ => exact ⟨_, List.mem_append_right _ (List.mem_append_left _ List.mem_cons_self)⟩

end ReachedBy

/-- The state that cleanups come to by themselves up to some moment. -/
def State.leftAlone (source : Source σ) (t : ℕ) (s : State σ) : State σ :=
  State.settle source (State.advance source t (State.settle source s))

/-- At a moment the server is asked to stop what it does on a connection, and then the session there
is asked to be restored, unless the server has not answered by another moment. -/
def Recovers (conn m t : ℕ) (entries : List Entry) : Prop :=
  ∃ front a back, entries = front ++ .asked m (.cancel conn) a :: back ∧
    (Resets conn back ∨ ¬ Inquiry.AnsweredBy t ⟨m, .cancel conn, a⟩)

section
variable {source : Source σ} {s : State σ} {t : SessionState} {entries : List Entry}

theorem cancelsLeft_eq (s : State σ) (conn : ℕ) :
    s.cancelsLeft conn = ((s.cleanupsOn conn).map (·.cancels conn)).sum := by
  unfold State.cancelsLeft State.cleanupsOn
  induction s.cleanups with
  | nil => rfl
  | cons c cs ih =>
    by_cases hc : c.conn = conn
    · rw [List.filter_cons_of_pos (by simpa using hc), List.map_cons, List.map_cons, List.sum_cons,
        List.sum_cons, ih]
    · rw [List.filter_cons_of_neg (by simpa using hc), List.map_cons, List.sum_cons, ih,
        Cleanup.cancels, if_neg hc, Nat.zero_add]

/-- When all cleanups wait, none of them will ask the server to stop any more. -/
theorem State.Consistent.cancelsLeft_eq_zero (h : s.Consistent conn .handed t) (hs : s.Settled) :
    s.cancelsLeft conn = 0 := by
  rw [cancelsLeft_eq]
  cases h with
  | handed hone _ | resetDone hone _ => exact absurd hone hs.cleanupsOn_ne
  | stopping hone _ | resetting hone _ =>
    rw [hone]
    simp [Cleanup.cancels]
  | past hnone _ => rw [hnone, List.map_nil, List.sum_nil]

/-- A cleanup that was not started is the only one on its connection. -/
theorem State.Consistent.waiting (h : s.Consistent conn .handed t) {steps : List CleanupStep}
    (hmem : ⟨conn, none, steps⟩ ∈ s.cleanups) (hsteps : steps ≠ []) :
    s.cleanupsOn conn = [⟨conn, none, steps⟩] ∧ t ≠ .untouched := by
  have hon : ⟨conn, none, steps⟩ ∈ s.cleanupsOn conn := List.mem_filter.2 ⟨hmem, by simp⟩
  cases h with
  | handed hone ht =>
    rw [hone] at hon ⊢
    rw [List.mem_singleton.1 hon]
    exact ⟨rfl, ht⟩
  | stopping hone _ | resetting hone _ =>
    rw [hone] at hon
    cases List.mem_singleton.1 hon
  | resetDone hone _ =>
    rw [hone] at hon
    cases List.mem_singleton.1 hon
    exact absurd rfl hsteps
  | past hnone _ =>
    rw [hnone] at hon
    cases hon

theorem exists_cancel (h : entries.countP (·.isCancel conn) ≠ 0) :
    ∃ m a, .asked m (.cancel conn) a ∈ entries := by
  obtain ⟨x, hx, hcancel⟩ := List.countP_pos_iff.1 (Nat.pos_of_ne_zero h)
  cases x with
  | noted => cases hcancel
  | asked m r a =>
    cases r with
    | cancel c =>
      obtain rfl : c = conn := of_decide_eq_true hcancel
      exact ⟨m, a, hx⟩
    | acquire | statement => cases hcancel

/-- **A connection that is left to a cleanup recovers**, by whatever moment. -/
theorem State.Consistent.recovers
    (h : s.Consistent conn .handed (sessionState conn .untouched entries))
    (hwaits : ⟨conn, none, cleanupSteps true true⟩ ∈ s.cleanups) (t : ℕ) :
    ∃ entries', Chronicles source s entries' (s.leftAlone source t) ∧
      Recovers conn s.now (s.leftAlone source t).now entries' := by
  obtain ⟨hone, hlimited⟩ := h.waiting hwaits (by decide)
  have hleft : s.cancelsLeft conn = 1 := by
    rw [cancelsLeft_eq, hone]
    simp [Cleanup.cancels, cleanupSteps]
  obtain ⟨⟨xs, hsettle⟩, hnow, hsettled⟩ := State.idle_settle source s
  obtain ⟨ys, hrest⟩ : Idle source (State.settle source s) (s.leftAlone source t) :=
    (State.idle_advance source _ t).1.trans (State.idle_settle source _).1
  have hend : (s.leftAlone source t).Settled := (State.idle_settle source _).2.2
  -- the request to stop is made at once
  have hstopped := (hsettle.consistent h Usage.noConfusion).1.cancelsLeft_eq_zero hsettled
  have hfirst := hsettle.cancels conn
  rw [hstopped, hleft, cancelsOf_nil] at hfirst
  have hcount : xs.countP (·.isCancel conn) ≠ 0 := by omega
  obtain ⟨m, a, hmem⟩ := exists_cancel hcount
  obtain rfl : m = s.now := by
    obtain ⟨hlow, hhigh⟩ := hsettle.moments hmem
    rw [hnow] at hhigh
    exact Nat.le_antisymm hhigh hlow
  obtain ⟨front, back, rfl⟩ := List.append_of_mem hmem
  -- it is the only one
  have hall := (hsettle.trans hrest).cancels conn
  rw [hleft, List.append_nil, cancelsOf_nil] at hall
  have honly : (back ++ ys).countP (·.isCancel conn) = 0 := by
    simp only [List.append_assoc, List.cons_append, List.countP_append, List.countP_cons,
      Entry.isCancel, decide_true, if_true] at hall ⊢
    omega
  refine ⟨_, (hsettle.trans hrest).chronicles, front, a, back ++ ys, by simp, ?_⟩
  have hconsistent := ((hsettle.trans hrest).consistent h Usage.noConfusion).1
  have hsplit : sessionState conn (sessionState conn .untouched entries)
      (front ++ .asked s.now (.cancel conn) a :: back ++ ys) = sessionState conn .untouched
        ((entries ++ front) ++ .asked s.now (.cancel conn) a :: (back ++ ys)) := by simp
  rw [hsplit] at hconsistent
  obtain ⟨y, hy, hlimits⟩ := limits_of_sessionState hlimited
  have hunsettles : Unsettles conn (entries ++ front) (.asked s.now (.cancel conn) a) :=
    Or.inr ⟨⟨s.now, a, rfl⟩, y, List.mem_append_left _ hy, hlimits⟩
  refine (hconsistent.restores hend hunsettles).imp id ?_
  rintro ⟨m', a', hmem', hhangs⟩
  rcases List.mem_cons.1 hmem' with he | hmem'
  · cases he
    exact hhangs
  · have hcancel := List.countP_eq_zero.1 honly _ hmem'
    simp [Entry.isCancel] at hcancel

end

/-- **A call that is given up** outside of a transaction: its connection recovers if it was not
released before. -/
theorem ReachedBy.forsaken {source : Source σ} {st : σ} {s s' : State σ} {entries : List Entry}
    {streams : List RowStream} {deadlines : List ℕ} {q : Query} {halt : Halt}
    (h : ReachedBy source st ds entries s streams) (hc : c.transaction = none)
    (hlimit : c.config.safety.statementTimeout.isSome)
    (hexec : (c.execute q abort).exec ⟨source, deadlines⟩ s = (.error halt, s')) :
    ∃ entries₁, Chronicles source s entries₁ s' ∧ ∀ conn m,
      .noted m (.acquired conn) ∈ entries₁ → (∀ m', .noted m' (.released conn) ∉ entries₁) →
      ∀ t, ∃ entries₂, Chronicles source s' entries₂ (s'.leftAlone source t) ∧
        Recovers conn s'.now (s'.leftAlone source t).now entries₂ := by
  have hin : c.inTransaction = false := by simp [Client.inTransaction, hc]
  have hreset : c.limitsSession = true := by simp [Client.limitsSession, hlimit, hin]
  have hacts : Acts ⟨source, deadlines⟩ s.now (c.execute q abort) (Executing c q abort s.now) :=
    Client.acts_execute q
  have hfailed : ∀ e, halt ≠ .failed e := by
    obtain ⟨_, _, -, hexecuting⟩ := hacts.passes s rfl
    rw [hexec] at hexecuting
    cases hexecuting with | givenUp _ _ hfailed _ => exact hfailed
  have hgivenUp : GivenUp ⟨source, deadlines⟩
      (cleanupSteps (!c.inTransaction) c.limitsSession) s.now (c.execute q abort)
      (Executing c q abort s.now) := Client.givenUp_execute q
  rw [hin, hreset] at hgivenUp
  obtain ⟨ds', entries', hpassage, hexecuting, hpending⟩ :=
    hgivenUp s halt rfl hfailed (by rw [hexec])
  rw [hexec] at hpassage hexecuting hpending
  refine ⟨entries', hpassage.chronicles, fun conn m hacquired hunreleased t => ?_⟩
  have hheld : conn ∈ heldIn ds' := mem_heldIn.2 ⟨m, hpassage.held_of_acquired hacquired⟩
  have huntaken := (h.leasedBy conn).untaken (h.fresh hpassage hheld)
  have hdone := (hexecuting.returnsTaken hc hpassage.nodup_heldIn).own conn hheld
  rw [hreset] at hdone
  generalize hafter : Usage.after conn .untaken ds' = k at hdone
  cases hdone with
  | unlimited hno _ => cases hno
  | restored _ =>
    obtain ⟨m', hreleased⟩ := h.released_of_restored hpassage huntaken hafter
    exact absurd hreleased (hunreleased m')
  | handed _ =>
    obtain ⟨m', steps, hleft⟩ :=
      (Usage.exists_left_of_handed hafter).resolve_left Usage.noConfusion
    have hall : Usage.after conn .untaken (ds ++ ds') = .handed := by
      rw [Usage.after_append, huntaken, hafter]
    have hstart : ({ source := st } : State σ).Consistent conn .untaken .untouched :=
      .untaken List.not_mem_nil rfl
    have hconsistent := ((h.passage.trans hpassage).consistent hstart (hall ▸ Usage.noConfusion)).1
    rw [hall] at hconsistent
    exact hconsistent.recovers (hpending m' conn steps hleft) t

/-! ## Sessions -/

/-- What is so in a session, by its chronicle, its last state and the streams open then. -/
structure Restoring (source : Source σ) (entries : List Entry) (s : State σ)
    (streams : List RowStream) : Prop where
  /-- A connection is released only after its session was restored. -/
  released : ∀ conn front x mid m back,
    entries = front ++ x :: (mid ++ .noted m (.released conn) :: back) → Unsettles conn front x →
    Restores conn m mid
  /-- When all cleanups wait, it is being restored, unless a stream uses it or the server has not
  answered yet that it stops. -/
  resets : s.Settled → ∀ conn front x back, entries = front ++ x :: back → Unsettles conn front x →
    Resets conn back ∨ (∃ stream ∈ streams, stream.done = false ∧ stream.lease.conn = conn) ∨
      Hangs conn s.now (x :: back)
  /-- A call that executes a query and comes to its end has the server stop nothing. -/
  executed : ∀ (c : Client) (q : Query) (abort : Option ℕ) (deadlines : List ℕ)
    (r : Response Json) (s' : State σ),
    (c.execute q abort).exec ⟨source, deadlines⟩ s = (.ok r, s') → (∀ t ∈ abort, s'.now < t) →
    Unstopped source s s'
  /-- Nor does one that opens a stream, or cannot. -/
  selected : ∀ (c : Client) (q : Query) (abort : Option ℕ) (deadlines : List ℕ)
    (o : Except Error RowStream) (s' : State σ),
    (c.stream q abort).exec ⟨source, deadlines⟩ s = (o.mapError .failed, s') →
    (∀ t ∈ abort, s'.now < t) → Unstopped source s s'
  /-- Nor is it asked to stop what a stream does from which items are taken up to its end. -/
  exhausted : ∀ (i patience : ℕ) (deadlines : List ℕ) (item : Item) (stream stream' : RowStream)
    (s' : State σ), streams[i]? = some stream → stream.done = false →
    (stream.next patience).exec ⟨source, deadlines⟩ s = (.ok (item, stream'), s') →
    (∀ t ∈ stream.abort, s'.now < t) →
    ∃ entries', Chronicles source s entries' s' ∧
      (entries ++ entries').countP (·.isCancel stream.lease.conn) +
        s'.cancelsLeft stream.lease.conn = 0
  /-- A connection that a call has when it is given up is stopped at once, and then restored. -/
  forsaken : ∀ (c : Client) (q : Query) (abort : Option ℕ) (deadlines : List ℕ) (halt : Halt)
    (s' : State σ), c.transaction = none → c.config.safety.statementTimeout.isSome →
    (c.execute q abort).exec ⟨source, deadlines⟩ s = (.error halt, s') →
    ∃ entries₁, Chronicles source s entries₁ s' ∧ ∀ conn m,
      .noted m (.acquired conn) ∈ entries₁ → (∀ m', .noted m' (.released conn) ∉ entries₁) →
      ∀ t, ∃ entries₂, Chronicles source s' entries₂ (s'.leftAlone source t) ∧
        Recovers conn s'.now (s'.leftAlone source t).now entries₂

/-- **A limit never stays on a session** that goes back to its source, whatever calls have done, and
whenever they were given up. -/
theorem session_restored {source : Source σ} {s : State σ} {streams : List RowStream}
    (h : Reached source s streams) :
    ∃ st entries, Chronicles source { source := st } entries s ∧
      Restoring source entries s streams := by
  obtain ⟨st, ds, entries, hreached⟩ := h.reachedBy
  refine ⟨st, entries, hreached.passage.chronicles, ?_⟩
  constructor
  case released =>
    intro conn front x mid m back he hx
    exact (hreached.consistent conn).2.restores he hx
  case resets =>
    rintro hsettled conn front x back rfl hx
    exact hreached.restores hsettled hx
  case executed => exact fun _ _ _ _ _ _ hexec habort => unstopped_execute hexec habort
  case selected => exact fun _ _ _ _ _ _ hexec habort => unstopped_stream hexec habort
  case exhausted =>
    exact fun _ _ _ _ _ _ _ hi hopen hexec habort => hreached.exhausted hi hopen hexec habort
  case forsaken =>
    exact fun _ _ _ _ _ _ hc hlimit hexec => hreached.forsaken hc hlimit hexec

/-! ### A call that is given up -/

/-- A client that limits the time of statements to one and a half seconds. -/
def limitedClient : Client where
  config := { safety := { statementTimeout := some (.ofMillis 1500) } }

/-- What comes of a selection whose caller gives it up after 50 nanoseconds. -/
def forsake (script : Script) : Except Halt (Reply × List RowStream) × State Script :=
  (Call.answer limitedClient [] (.execute allUsers none none)).exec ⟨Script.source, [50]⟩
    { source := script }

/-- A server that never answers a selection. -/
def unresponsive : Script := { queries := [⟨none, .ok []⟩] }

theorem reached_forsake {script : Script} (h : (forsake script).1.toOption = none) :
    Reached Script.source ((forsake script).2.settle Script.source) [] := by
  cases hforsake : forsake script with
  | mk o s' =>
    rw [hforsake] at h
    cases o with
    | ok _ => cases h
    | error halt => exact (Reached.givenUp (.start script) rfl rfl hforsake).settled

theorem session_restored_of_unresponsive :
    ((forsake unresponsive).2.settle Script.source).history.filterMap (Event.text? 1) =
      ["SELECT set_config('statement_timeout', $1, $2)", "SELECT * FROM \"public\".\"users\"",
        "stop", "RESET statement_timeout"] ∧
    Reached Script.source ((forsake unresponsive).2.settle Script.source) [] ∧
    ∃ st entries, Chronicles Script.source { source := st } entries
        ((forsake unresponsive).2.settle Script.source) ∧
      Restoring Script.source entries ((forsake unresponsive).2.settle Script.source) [] := by
  have hreached : Reached Script.source ((forsake unresponsive).2.settle Script.source) [] :=
    reached_forsake (by decide +kernel)
  exact ⟨by decide +kernel, hreached, session_restored hreached⟩

/-! ### A server that never answers that it stops -/

/-- Cleanups that wait for answers that never come do nothing. -/
theorem settleAll_of_hanging {source : Source σ} {cleanups : List Cleanup} {s : State σ}
    (h : ∀ c ∈ cleanups, ∃ p, c.pending = some p ∧ p.due = none) :
    State.settleAll source cleanups s = { s with cleanups := s.cleanups ++ cleanups } := by
  induction cleanups generalizing s with
  | nil => simp [State.settleAll]
  | cons c rest ih =>
    obtain ⟨p, hp, hdue⟩ := h c List.mem_cons_self
    have hrun : State.runCleanup source c s = (s, some c) := by
      simp [State.runCleanup, hp, hdue]
    rw [State.settleAll, hrun]
    dsimp only
    rw [ih fun d hd => h d (List.mem_cons_of_mem _ hd), List.append_assoc, List.singleton_append]

/-- However long they wait. -/
theorem history_leftAlone_of_hanging {source : Source σ} {s : State σ}
    (h : ∀ c ∈ s.cleanups, ∃ p, c.pending = some p ∧ p.due = none) (t : ℕ) :
    (s.leftAlone source t).history = s.history := by
  have hsettle : ∀ s : State σ, (∀ c ∈ s.cleanups, ∃ p, c.pending = some p ∧ p.due = none) →
      State.settle source s = s := fun s hs => by
    rw [State.settle, settleAll_of_hanging hs, List.nil_append]
  have hnone : s.cleanups.filterMap (fun c => c.pending.bind (·.due)) = [] := by
    refine List.filterMap_eq_nil_iff.2 fun c hc => ?_
    obtain ⟨p, hp, hdue⟩ := h c hc
    rw [hp, Option.bind_some, hdue]
  have hdue : State.nextDue t s.cleanups = none := by rw [State.nextDue, hnone]; rfl
  have hadvance : State.advance source t s = { s with now := max s.now t } := by
    rw [State.advance]
    cases s.cleanups.foldl (fun n c => n + c.steps.length + 1) 0 with
    | zero => rfl
    | succ fuel => rw [State.advanceWithin, hdue]
  rw [State.leftAlone, hsettle s h, hadvance, hsettle { s with now := max s.now t } h]

/-- A server that answers neither a selection nor that it stops. -/
def silent : Script := { unresponsive with cancels := [⟨none, .ok ()⟩] }

/-- A session stays limited, and its connection is not released, if the server never answers that it
stops. -/
theorem unrestored_forever :
    Reached Script.source ((forsake silent).2.settle Script.source) [] ∧
      ∀ t, (((forsake silent).2.settle Script.source).leftAlone Script.source t).history.filterMap
          (fun e => (Event.text? 1 e).or (Event.line? 1 e)) =
        ["SELECT set_config('statement_timeout', $1, $2)", "SELECT * FROM \"public\".\"users\"",
          "stop"] := by
  refine ⟨reached_forsake (by decide +kernel), fun t => ?_⟩
  have hhanging : ((forsake silent).2.settle Script.source).cleanups.all
      (fun c => c.pending.any fun p => p.due.isNone) := by decide +kernel
  rw [history_leftAlone_of_hanging]
  · decide +kernel
  · intro c hc
    obtain ⟨p, hp, hdue⟩ := (Option.any_eq_true _ _).1 (List.all_eq_true.1 hhanging c hc)
    exact ⟨p, hp, Option.isNone_iff_eq_none.1 hdue⟩

end QueryClient.Session
