/-
  What calls do about the limits of sessions.

  A call that has a connection limits its session if the settings say so, and restores it in the end.
  Whatever happens to the call, its connection is let go of when it is restored, or is left to a
  cleanup that restores it.

  * `Asks`: statements, and requests to stop that come after the caller has aborted;
  * `UsesOnly`: deeds that make something of one connection, and nothing of the others;
  * `Usage.Given`, `Usage.Used` and `Usage.Done`: what becomes of a connection under a lease;
  * `Client.UsesConnection`: a call makes something of one connection at most.
-/
import Mathlib.Algebra.BigOperators.Group.List.Basic
import QueryClient.Proofs.Session.Bracket
import QueryClient.Proofs.Session.Usage
import QueryClient.Proofs.Session.Streams

namespace QueryClient.Session

variable {σ α : Type} {c : Client} {conn m m₁ m' : ℕ} {abort : Option ℕ} {ds ds' : List Deed}

/-! ## Statements -/

/-- The statement of a query has nothing to do with the limit of a session. -/
theorem sessionStep?_request {s : Statement} (h : ∃ i, Piece.name i ∈ s.pieces)
    {kind : StatementKind} (hkind : kind ≠ .batch) (conn' : ℕ) :
    (s.request kind conn).sessionStep? conn' = none := by
  rw [Option.eq_none_iff_forall_ne_some]
  intro k hsession
  cases k with
  | limit =>
    obtain ⟨limit, he⟩ := sessionStep?_eq_some_limit hsession
    obtain ⟨-, -, htext, -⟩ := Request.statement.inj he
    exact s.text_ne h (by decide) htext
  | stop => cases sessionStep?_eq_some_stop hsession
  | reset =>
    obtain ⟨he, -, -, -⟩ := Request.statement.inj (sessionStep?_eq_some_reset hsession)
    exact hkind he

/-- The limit of a transaction is none of the session. -/
theorem sessionStep?_timeLimit (hc : c.inTransaction) (limit : Duration) (conn' : ℕ) :
    (c.timeLimit conn limit).sessionStep? conn' = none := by
  rw [Client.timeLimit, hc]
  rfl

theorem timeLimit_eq (hc : c.inTransaction = false) (limit : Duration) :
    c.timeLimit conn limit = sessionLimit conn (toString limit.millis ++ "ms") := by
  rw [Client.timeLimit, hc]
  rfl

/-- Deeds that ask for something that has nothing to do with the limits of sessions; and where the
caller has aborted, they may ask the server to stop what it does on a connection. -/
structure Asks (conn : ℕ) (abort : Option ℕ) (m : ℕ) (ds : List Deed) (m' : ℕ) : Prop where
  le : m ≤ m'
  asks : ∀ d ∈ ds, ∃ m₁ r a, d = .asked m₁ r a ∧
    ∀ conn' k, r.sessionStep? conn' = some k → conn' = conn ∧ k = .stop ∧ ∃ t ∈ abort, t ≤ m'

namespace Asks

theorem nil (h : m ≤ m') : Asks conn abort m [] m' := ⟨h, List.forall_mem_nil _⟩

theorem asked {r : Request} {a : Answer Yield} (h : m ≤ m')
    (hr : ∀ conn', r.sessionStep? conn' = none) : Asks conn abort m [.asked m r a] m' := by
  refine ⟨h, fun d hd => ⟨m, r, a, List.mem_singleton.1 hd, fun conn' k hsession => ?_⟩⟩
  rw [hr] at hsession
  cases hsession

theorem append (h : Asks conn abort m ds m₁) (h' : Asks conn abort m₁ ds' m') :
    Asks conn abort m (ds ++ ds') m' := by
  refine ⟨h.le.trans h'.le, fun d hd => ?_⟩
  rcases List.mem_append.1 hd with hd | hd
  · obtain ⟨m₂, r, a, he, hr⟩ := h.asks d hd
    refine ⟨m₂, r, a, he, fun conn' k hsession => ?_⟩
    obtain ⟨hconn, hk, t, ht, hle⟩ := hr conn' k hsession
    exact ⟨hconn, hk, t, ht, hle.trans h'.le⟩
  · exact h'.asks d hd

theorem useStep?_other (h : Asks conn abort m ds m') {conn' : ℕ} (hconn' : conn' ≠ conn) {d : Deed}
    (hd : d ∈ ds) : d.useStep? conn' = none := by
  obtain ⟨m₁, r, a, rfl, hr⟩ := h.asks d hd
  rw [Deed.useStep?, Option.map_eq_none_iff, Option.eq_none_iff_forall_ne_some]
  intro k hsession
  exact hconn' (hr conn' k hsession).1

/-- What has been asked makes nothing of a connection as long as its session is not restored. -/
theorem after_eq (h : Asks conn abort m ds m') {q : Usage}
    (hq : q = .fresh ∨ q = .plain ∨ q = .limited) : Usage.after conn q ds = q := by
  have hasks := h.asks
  clear h
  induction ds with
  | nil => rfl
  | cons d ds ih =>
    have hstep : q.step conn d = q := by
      obtain ⟨m₁, r, a, rfl, hr⟩ := hasks d List.mem_cons_self
      rw [Usage.step_asked]
      cases hsession : r.sessionStep? conn with
      | none => rfl
      | some k =>
        obtain ⟨-, rfl, -⟩ := hr conn k hsession
        rcases hq with rfl | rfl | rfl <;> rfl
    rw [Usage.after_cons, hstep]
    exact ih fun d' hd' => hasks d' (List.mem_cons_of_mem _ hd')

/-- Nothing is stopped as long as the caller has not aborted. -/
theorem cancels_eq_zero (h : Asks conn abort m ds m') (habort : ∀ t ∈ abort, m' < t) (conn' : ℕ) :
    cancelsOf conn' ds = 0 := by
  refine List.sum_eq_zero fun n hn => ?_
  obtain ⟨d, hd, rfl⟩ := List.mem_map.1 hn
  obtain ⟨m₁, r, a, rfl, hr⟩ := h.asks d hd
  cases r with
  | cancel c =>
    obtain ⟨-, -, t, ht, hle⟩ := hr c .stop (by simp)
    exact absurd (habort t ht) (Nat.not_lt.2 hle)
  | acquire | statement => rfl

end Asks

section
variable {r : Request}

theorem Raced.asks {o : Except Halt (Option (Except Error Yield))}
    (h : Raced abort (fun a ds => ds = [.asked m r a]) m o ds m')
    (hr : ∀ conn', r.sessionStep? conn' = none) (conn : ℕ) (abort' : Option ℕ) :
    Asks conn abort' m ds m' := by
  obtain ⟨hle, rfl | ⟨a, rfl⟩⟩ := h.asked_once
  · exact .nil hle
  · exact .asked hle hr

/-- Where nothing has come, the caller has aborted. -/
theorem Raced.late_of_none {asks : Answer α → List Deed → Prop}
    (h : Raced abort asks m (.ok none) ds m') : ∃ t ∈ abort, t ≤ m' := by
  cases h with
  | late ht hle => exact ⟨_, ht, hle⟩
  | stopped _ ht _ _ => exact ⟨_, ht, Nat.le_refl _⟩

theorem Cleaning.asks {o : Except Halt Unit} (h : Cleaning conn [.cancel] m o ds m')
    (hlate : ∃ t ∈ abort, t ≤ m) : Asks conn abort m ds m' := by
  have hasks : ∀ a m', m ≤ m' →
      Asks conn abort m [.asked m (CleanupStep.cancel.request conn) a] m' := by
    intro a m' hle
    refine ⟨hle, fun d hd => ⟨m, _, a, List.mem_singleton.1 hd, fun conn' k hsession => ?_⟩⟩
    obtain ⟨t, ht, hle'⟩ := hlate
    change (Request.cancel conn).sessionStep? conn' = some k at hsession
    rw [sessionStep?_cancel] at hsession
    split at hsession
    · next hconn =>
      cases hsession
      exact ⟨hconn.symm, rfl, t, ht, hle'.trans hle⟩
    · cases hsession
  cases h with
  | answered _ hdone =>
    cases hdone
    exact hasks _ _ (Nat.le_add_right _ _)
  | givenUp _ hle _ => exact hasks _ _ hle

theorem Exchange.asks {o : Except Halt Yield} (h : Exchange conn abort r m o ds m')
    (hr : ∀ conn', r.sessionStep? conn' = none) : Asks conn abort m ds m' := by
  cases h with
  | answered hraced => exact hraced.asks hr conn abort
  | stopped hraced hcleaning =>
    exact (hraced.asks hr conn abort).append (hcleaning.asks hraced.late_of_none)
  | halted hraced hcleaning =>
    exact (hraced.asks hr conn abort).append (hcleaning.asks hraced.late_of_none)
  | givenUp hraced => exact hraced.asks hr conn abort

/-- Where an answer has come, nothing was stopped. -/
theorem Exchange.asks_of_ok {y : Yield} (h : Exchange conn abort r m (.ok y) ds m')
    (hr : ∀ conn', r.sessionStep? conn' = none) : Asks conn none m ds m' := by
  generalize ho : Except.ok y = o at h
  cases h with
  | answered hraced => exact hraced.asks hr conn none
  | stopped _ _ | halted _ _ | givenUp _ => cases ho

theorem Counting.asks {q : Query} {mode : CountMode} {o : Except Halt (Option Int)}
    (h : Counting c conn q abort mode m o ds m') : Asks conn abort m ds m' := by
  have hexchange : ∀ {statement : Statement} {o},
      Statement.compileCount c.config.safety q mode = .ok statement →
      Exchange conn abort (statement.request .query conn) m o ds m' → Asks conn abort m ds m' :=
    fun hs hexchange => hexchange.asks
      (sessionStep?_request (counted_of_compileCount hs).exists_name StatementKind.noConfusion)
  cases h with
  | uncompiled _ => exact .nil (Nat.le_refl _)
  | counted hs h | failed hs h | givenUp hs _ h => exact hexchange hs h

theorem Running.asks {q : Query} {statement : Statement} {o : Except Halt Outcome}
    (hs : Statement.compile c.config.safety q = .ok statement)
    (h : Running c conn q statement abort m o ds m') : Asks conn abort m ds m' := by
  have hkind : Client.statementKind q ≠ .batch := by
    unfold Client.statementKind
    split <;> exact StatementKind.noConfusion
  have hexchange : ∀ {o ds m'},
      Exchange conn abort (statement.request (Client.statementKind q) conn) m o ds m' →
      Asks conn abort m ds m' :=
    fun hexchange =>
      hexchange.asks (sessionStep?_request (compiled_of_compile hs).exists_name hkind)
  cases h with
  | unanswered h | misfit h _ | fitted h _ _ => exact hexchange h
  | counted h _ _ _ hcounting => exact (hexchange h).append hcounting.asks

end

/-! ## One connection -/

/-- Deeds that make something of one connection, and nothing of the others. -/
structure UsesOnly (conn : ℕ) (q : Usage) (ds : List Deed) (P : Usage → Prop) : Prop where
  others : ∀ conn' ≠ conn, ∀ d ∈ ds, d.useStep? conn' = none
  after : P (Usage.after conn q ds)

section
variable {q : Usage} {P P' : Usage → Prop}

theorem UsesOnly.nil (h : P q) : UsesOnly conn q [] P := ⟨fun _ _ => List.forall_mem_nil _, h⟩

theorem UsesOnly.single {d : Deed} (hother : ∀ conn' ≠ conn, d.useStep? conn' = none)
    (h : P (q.step conn d)) : UsesOnly conn q [d] P := by
  refine ⟨fun conn' hconn' d' hd' => ?_, h⟩
  rw [List.mem_singleton.1 hd']
  exact hother conn' hconn'

theorem UsesOnly.append (h : UsesOnly conn q ds P) (h' : ∀ q', P q' → UsesOnly conn q' ds' P') :
    UsesOnly conn q (ds ++ ds') P' := by
  refine ⟨fun conn' hconn' d hd => ?_, ?_⟩
  · rcases List.mem_append.1 hd with hd | hd
    · exact h.others conn' hconn' d hd
    · exact (h' _ h.after).others conn' hconn' d hd
  · rw [Usage.after_append]
    exact (h' _ h.after).after

theorem UsesOnly.mono (h : UsesOnly conn q ds P) (hP : ∀ q', P q' → P' q') :
    UsesOnly conn q ds P' :=
  ⟨h.others, hP _ h.after⟩

theorem Asks.usesOnly (h : Asks conn abort m ds m') (hq : q = .fresh ∨ q = .plain ∨ q = .limited)
    (hP : P q) : UsesOnly conn q ds P := by
  refine ⟨fun conn' hconn' d hd => h.useStep?_other hconn' hd, ?_⟩
  rwa [h.after_eq hq]

end

/-! ## Leases -/

namespace Usage

/-- A connection whose session is not limited. -/
def Unlimited (q : Usage) : Prop := q = .fresh ∨ q = .plain

/-- A connection that is about to be used by a call that restores its session, or does not have
to. -/
inductive Given (reset : Bool) : Usage → Prop
  | fresh : Given reset .fresh
  | unlimited {q} : reset = false → q.Unlimited → Given reset q

inductive Used (reset : Bool) : Usage → Prop
  | limited : reset → Used reset .limited
  | unlimited {q} : reset = false → q.Unlimited → Used reset q

/-- The call is restoring the session. -/
inductive Closing (reset : Bool) : Usage → Prop
  | used {q} : q.Used reset → Closing reset q
  | restoring {due} : reset → Closing reset (.restoring due)

inductive Done (reset : Bool) : Usage → Prop
  | restored : reset → Done reset .restored
  | handed : reset → Done reset .handed
  | unlimited {q} : reset = false → q.Unlimited → Done reset q

variable {q : Usage} {reset : Bool}

theorem Used.cases (h : q.Used reset) : q = .fresh ∨ q = .plain ∨ q = .limited := by
  cases h with
  | limited _ => exact Or.inr (Or.inr rfl)
  | unlimited _ hq => exact hq.imp id Or.inl

theorem Given.of_false (h : q.Given false) : q.Unlimited := by
  cases h with
  | fresh => exact Or.inl rfl
  | unlimited _ hq => exact hq

theorem Used.of_false (h : q.Used false) : q.Unlimited := by
  cases h with
  | limited hno => cases hno
  | unlimited _ hq => exact hq

theorem Used.of_true (h : q.Used true) : q = .limited := by
  cases h with
  | limited _ => rfl
  | unlimited hno _ => cases hno

theorem Closing.of_false (h : q.Closing false) : q.Unlimited := by
  cases h with
  | used hq => exact hq.of_false
  | restoring hno => cases hno

theorem Unlimited.hand {steps : List CleanupStep} (h : q.Unlimited) :
    (q.next (.hand steps)).Unlimited := by
  rcases h with rfl | rfl <;> exact Or.inr rfl

theorem Unlimited.letGo (h : q.Unlimited) : (q.next (.letGo m)).Unlimited := by
  rcases h with rfl | rfl <;> exact Or.inr rfl

end Usage

section
variable {l : Lease} {q : Usage}

/-- A request of a cleanup concerns its own connection only. -/
theorem useStep?_step_other {conn' : ℕ} {step : CleanupStep} {a : Answer Yield} (h : conn' ≠ conn) :
    (Deed.asked m (step.request conn) a).useStep? conn' = none := by
  rw [Deed.useStep?, sessionStep?_step_other (Ne.symm h)]
  rfl

/-- How a limit is set. -/
theorem Limiting.usesOnly {o : Except Halt Unit} (h : Limiting c conn m o ds m') {q : Usage}
    (hq : q.Given c.limitsSession) : UsesOnly conn q ds (·.Used c.limitsSession) := by
  have hlimit : ∀ limit a, c.config.safety.statementTimeout = some limit →
      UsesOnly conn q [.asked m (c.timeLimit conn limit) a] (·.Used c.limitsSession) := by
    intro limit a hlimit
    cases hin : c.inTransaction with
    | true =>
      have hreset : c.limitsSession = false := by simp [Client.limitsSession, hin]
      have hasks : Asks conn none m [.asked m (c.timeLimit conn limit) a] m :=
        .asked (Nat.le_refl m) (sessionStep?_timeLimit hin limit)
      rw [hreset] at hq ⊢
      exact hasks.usesOnly (hq.of_false.imp id Or.inl) (.unlimited rfl hq.of_false)
    | false =>
      have hreset : c.limitsSession = true := by simp [Client.limitsSession, hin, hlimit]
      rw [hreset] at hq ⊢
      cases hq with
      | unlimited hno _ => cases hno
      | fresh =>
        rw [timeLimit_eq hin]
        refine .single (fun conn' hconn' => ?_) ?_
        · rw [Deed.useStep?, sessionStep?_sessionLimit, if_neg (Ne.symm hconn')]
          rfl
        · rw [Usage.step_asked, sessionStep?_sessionLimit, if_pos rfl]
          exact .limited rfl
  cases h with
  | unlimited hnone =>
    have hreset : c.limitsSession = false := by simp [Client.limitsSession, hnone]
    rw [hreset] at hq ⊢
    exact .nil (.unlimited rfl hq.of_false)
  | answered h _ => exact hlimit _ _ h
  | givenUp h _ _ _ => exact hlimit _ _ h

/-- A request to stop makes nothing of a connection that is used. -/
theorem usesOnly_stop {reset : Bool} (hq : q.Used reset) (a : Answer Yield) :
    UsesOnly conn q [.asked m (CleanupStep.cancel.request conn) a] (·.Used reset) := by
  have hstep : q.step conn (.asked m (CleanupStep.cancel.request conn) a) = q := by
    have hsession : (CleanupStep.cancel.request conn).sessionStep? conn = some .stop := if_pos rfl
    rw [Usage.step_asked, hsession]
    rcases hq.cases with rfl | rfl | rfl <;> rfl
  exact .single (fun _ => useStep?_step_other) (hstep.symm ▸ hq)

/-- A request that restores the session. -/
theorem usesOnly_reset (hq : q.Used true) (a : Answer Yield) :
    UsesOnly conn q [.asked m (resetRequest conn) a] (· = .restoring (a.wait.map (m + ·))) := by
  refine .single (fun _ => useStep?_step_other) ?_
  rw [hq.of_true, Usage.step_asked, sessionStep?_resetRequest, if_pos rfl]
  rfl

/-- What is to be done before a connection is let go of. -/
theorem Cleaning.usesOnly {interrupted reset : Bool} {o : Except Halt Unit}
    (h : Cleaning conn (cleanupSteps interrupted reset) m o ds m') (hq : q.Used reset) :
    UsesOnly conn q ds fun q' => q'.Closing reset ∧
      (o = .ok () → reset → ∃ due, q' = .restoring due ∧ due.any (· ≤ m')) := by
  have hused : reset = false → ∀ q' : Usage, q'.Used reset → q'.Closing reset ∧
      (o = .ok () → reset → ∃ due, q' = .restoring due ∧ due.any (· ≤ m')) := by
    rintro rfl q' hq'
    exact ⟨.used hq', fun _ hno => nomatch hno⟩
  have hmend : ∀ {m q ds}, q.Used true → Cleaning conn [.reset] m o ds m' →
      UsesOnly conn q ds fun q' => q'.Closing true ∧
        (o = .ok () → true → ∃ due, q' = .restoring due ∧ due.any (· ≤ m')) := by
    intro m q ds hq h
    cases h with
    | @answered _ _ _ _ w _ _ _ hw hdone =>
      cases hdone
      refine (usesOnly_reset hq _).mono fun q' he => ?_
      rw [he, hw]
      exact ⟨.restoring rfl, fun _ _ => ⟨_, rfl, decide_eq_true (Nat.le_refl _)⟩⟩
    | givenUp _ _ _ =>
      refine (usesOnly_reset hq _).mono fun q' he => ?_
      rw [he]
      exact ⟨.restoring rfl, fun ho => nomatch ho⟩
  cases interrupted <;> cases reset
  · cases h
    exact .nil (hused rfl q hq)
  · exact hmend hq h
  · cases h with
    | answered _ hdone =>
      cases hdone
      exact (usesOnly_stop hq _).mono (hused rfl)
    | givenUp _ _ _ => exact (usesOnly_stop hq _).mono (hused rfl)
  · cases h with
    | answered _ hrest => exact (usesOnly_stop hq _).append fun q' hq' => hmend hq' hrest
    | givenUp _ _ _ =>
      exact (usesOnly_stop hq _).mono fun q' hq' => ⟨.used hq', fun ho => nomatch ho⟩

namespace Lease

/-- A lease on the connection of a transaction restores no session. -/
def Proper (l : Lease) : Prop := l.reset → l.shared = false

theorem usesOnly_letsGo (hl : l.Proper) (hq : l.reset = false → q.Unlimited)
    (hdone : l.reset → q = .handed ∨ ∃ due, q = .restoring due ∧ due.any (· ≤ m)) :
    UsesOnly l.conn q (l.letsGo m) (·.Done l.reset) := by
  unfold letsGo
  cases hreset : l.reset with
  | true =>
    rw [hl hreset, if_neg Bool.false_ne_true]
    refine .single (fun _ hconn' => useStep?_letGo_other (Ne.symm hconn')) ?_
    rw [Usage.step_letGo]
    rcases hdone hreset with rfl | ⟨due, rfl, hdue⟩
    · exact .handed rfl
    · have hnext : (Usage.restoring due).next (.letGo m) = .restored := if_pos hdue
      rw [hnext]
      exact .restored rfl
  | false =>
    have hun := hq hreset
    cases l.shared
    · refine .single (fun _ hconn' => useStep?_letGo_other (Ne.symm hconn')) ?_
      rw [Usage.step_letGo]
      exact .unlimited rfl hun.letGo
    · exact .nil (.unlimited rfl hun)

/-- What a lease leaves to a cleanup is what there is to do. -/
theorem usesOnly_discards (hl : l.Proper) (hq : q.Closing l.reset) :
    UsesOnly l.conn q (l.discards m) (·.Done l.reset) := by
  have hlets : ∀ q : Usage, (l.reset = false → q.Unlimited) →
      (l.reset → q = .handed ∨ ∃ due, q = .restoring due ∧ due.any (· ≤ m)) →
      UsesOnly l.conn q (l.letsGo m) (·.Done l.reset) := fun _ => usesOnly_letsGo hl
  unfold discards
  cases hreset : l.reset with
  | true =>
    rw [hreset] at hlets hq
    have hsteps : (cleanupSteps l.cancel true).isEmpty = false := by cases l.cancel <;> rfl
    rw [hsteps, if_neg Bool.false_ne_true]
    have hhand : q.next (.hand (cleanupSteps l.cancel true)) = .handed := by
      have hor : cleanupSteps l.cancel true = cleanupSteps true true ∨
          cleanupSteps l.cancel true = cleanupSteps false true := by
        cases l.cancel
        · exact Or.inr rfl
        · exact Or.inl rfl
      cases hq with
      | restoring _ => exact if_pos hor
      | used hq =>
        rw [hq.of_true]
        exact if_pos hor
    have hleft : UsesOnly l.conn q [.left m l.conn (cleanupSteps l.cancel true)] (· = .handed) := by
      refine .single (fun _ hconn' => useStep?_left_other (Ne.symm hconn')) ?_
      rw [Usage.step_left]
      exact hhand
    exact hleft.append fun q' hq' => hlets q' (fun hno => nomatch hno) fun _ => Or.inl hq'
  | false =>
    rw [hreset] at hlets hq
    have hun := hq.of_false
    have hleft : UsesOnly l.conn q (if (cleanupSteps l.cancel false).isEmpty then []
        else [.left m l.conn (cleanupSteps l.cancel false)]) Usage.Unlimited := by
      split
      · exact .nil hun
      · refine .single (fun _ hconn' => useStep?_left_other (Ne.symm hconn')) ?_
        rw [Usage.step_left]
        exact hun.hand
    exact hleft.append fun q' hq' => hlets q' (fun _ => hq') fun hno => nomatch hno

theorem Releasing.usesOnly {interrupted : Bool} {o : Except Halt Unit} (hl : l.Proper)
    (h : l.Releasing interrupted m o ds m') (hq : q.Used l.reset) :
    UsesOnly l.conn q ds (·.Done l.reset) := by
  cases h with
  | past hcleaning =>
    refine (hcleaning.usesOnly hq).append fun q' ⟨hclosing, hover⟩ => usesOnly_letsGo hl ?_ ?_
    · intro hreset
      rw [hreset] at hclosing
      exact hclosing.of_false
    · exact fun hreset => Or.inr (hover rfl hreset)
  | givenUp hcleaning =>
    exact (hcleaning.usesOnly hq).append fun q' ⟨hclosing, _⟩ => usesOnly_discards hl hclosing

/-- **Under a lease** the session is restored, or left to a cleanup that restores it. -/
theorem Using.usesOnly {B : Account α} {o : Except Halt α} (hl : l.Proper)
    (h : l.Using B o ds m')
    (hB : ∀ o ds m', B o ds m' → UsesOnly l.conn q ds (·.Used l.reset)) :
    UsesOnly l.conn q ds (·.Done l.reset) := by
  cases h with
  | halted _ h => exact (hB _ _ _ h).append fun q' hq' => usesOnly_discards hl (.used hq')
  | released h hreleasing | givenUp h hreleasing =>
    exact (hB _ _ _ h).append fun q' hq' => hreleasing.usesOnly hl hq'

end Lease

end

/-! ## Calls -/

/-- What can be known of a connection before a call has it. -/
inductive Client.Starts (c : Client) (conn : ℕ) : Usage → Prop
  | outside : c.transaction = none → c.Starts conn .untaken
  | inside {q} : c.transaction = some conn → q.Unlimited → c.Starts conn q

/-- The connection of a call is a new one, or that of its transaction. -/
def Client.Has (c : Client) (conn : ℕ) (ds : List Deed) : Prop :=
  (c.transaction = none ∧ ∃ m, .held m conn ∈ ds) ∨ c.transaction = some conn

/-- What a call makes of its connection, if it comes by one. -/
inductive Client.UsesConnection (c : Client) (ds : List Deed) : Prop
  | nothing : (∀ conn, ∀ d ∈ ds, d.useStep? conn = none) → c.UsesConnection ds
  | connected {conn : ℕ} : c.Has conn ds →
    (∀ q, c.Starts conn q → UsesOnly conn q ds (·.Done c.limitsSession)) → c.UsesConnection ds

section
variable {cancel : Bool}

theorem proper_lease : (c.lease conn cancel).Proper := by
  intro hreset
  have hand : (c.config.safety.statementTimeout.isSome && !c.inTransaction) = true := hreset
  rw [Bool.and_eq_true, Bool.not_eq_true'] at hand
  exact hand.2

/-- A request for a connection makes nothing of those that there are. -/
theorem Raced.useStep?_acquire {o : Except Halt (Option (Except Error Yield))}
    (h : Raced abort (fun a ds => ds = [.asked m .acquire a]) m o ds m') (conn : ℕ) :
    ∀ d ∈ ds, d.useStep? conn = none :=
  -- the request is none on any connection, and so it is one on some other
  fun _ => (h.asks (fun _ => rfl) (conn + 1) none).useStep?_other (Nat.lt_succ_self conn).ne

theorem Connecting.useStep?_error {halt : Halt} (h : Connecting c abort m (.error halt) ds m')
    (conn : ℕ) : ∀ d ∈ ds, d.useStep? conn = none := by
  cases h with
  | refusedShared _ _ _ => exact List.forall_mem_nil _
  | refused _ h | stopped _ h | givenUp _ h => exact h.useStep?_acquire conn

theorem Connecting.cancels_eq_zero {o : Except Halt ℕ} (h : Connecting c abort m o ds m')
    (conn : ℕ) : cancelsOf conn ds = 0 := by
  have hraced : ∀ {o ds m'}, Raced abort (fun a ds => ds = [.asked m .acquire a]) m o ds m' →
      cancelsOf conn ds = 0 :=
    fun h => (h.asks (fun _ => rfl) conn none).cancels_eq_zero (fun _ ht => nomatch ht) conn
  cases h with
  | shared _ _ | refusedShared _ _ _ => rfl
  | acquired _ h =>
    rw [cancelsOf_append, hraced h]
    rfl
  | refused _ h | stopped _ h | givenUp _ h => exact hraced h

theorem Limiting.cancels_eq_zero {o : Except Halt Unit} (h : Limiting c conn m o ds m')
    (conn' : ℕ) : cancelsOf conn' ds = 0 := by
  cases h <;> rfl

/-- How a call comes by a connection. -/
theorem Connecting.usesOnly (h : Connecting c abort m (.ok conn) ds m') :
    c.Has conn ds ∧
      ∀ q, c.Starts conn q → UsesOnly conn q ds (·.Given c.limitsSession) := by
  cases h with
  | shared hconn _ =>
    refine ⟨Or.inr hconn, fun q hq => .nil ?_⟩
    cases hq with
    | outside hnone =>
      rw [hconn] at hnone
      cases hnone
    | inside _ hun =>
      have hreset : c.limitsSession = false := by
        simp [Client.limitsSession, Client.inTransaction, hconn]
      exact .unlimited hreset hun
  | acquired hnone hraced =>
    refine ⟨Or.inl ⟨hnone, _, List.mem_append_right _ List.mem_cons_self⟩, fun q hq => ?_⟩
    cases hq with
    | inside hconn _ =>
      rw [hnone] at hconn
      cases hconn
    | outside _ =>
      have hfront := hraced.useStep?_acquire
      have hasks : UsesOnly conn .untaken _ (· = .untaken) :=
        ⟨fun conn' _ => hfront conn', Usage.after_of_none (hfront conn)⟩
      have hheld : UsesOnly conn .untaken [.held m' conn] (·.Given c.limitsSession) := by
        refine .single (fun _ hconn' => useStep?_held_other (Ne.symm hconn')) ?_
        rw [Usage.step_held]
        exact .fresh
      exact hasks.append fun q' hq' => hq' ▸ hheld

theorem Client.Has.append_left (h : c.Has conn ds) : c.Has conn (ds ++ ds') := by
  refine h.imp (fun ⟨hnone, m, hmem⟩ => ⟨hnone, m, List.mem_append_left _ hmem⟩) id

/-- What a call does with a connection that it has come by. -/
theorem Connecting.usesConnection (h : Connecting c abort m (.ok conn) ds m₁)
    (h' : ∀ q : Usage, q.Given c.limitsSession → UsesOnly conn q ds' (·.Done c.limitsSession)) :
    c.UsesConnection (ds ++ ds') :=
  .connected h.usesOnly.1.append_left fun q hq => (h.usesOnly.2 q hq).append h'

variable {q : Query} {statement : Statement}

theorem Working.usesOnly (hs : Statement.compile c.config.safety q = .ok statement)
    {o : Except Halt Outcome} (h : Working c conn q statement abort m o ds m') {k : Usage}
    (hk : k.Given c.limitsSession) : UsesOnly conn k ds (·.Used c.limitsSession) := by
  cases h with
  | unlimited hlimiting => exact hlimiting.usesOnly hk
  | limited hlimiting hrunning =>
    exact (hlimiting.usesOnly hk).append fun k' hk' => (hrunning.asks hs).usesOnly hk'.cases hk'

theorem Attempting.usesConnection (hs : Statement.compile c.config.safety q = .ok statement)
    {o : Except Halt Outcome} (h : Attempting c q statement abort m o ds m') :
    c.UsesConnection ds := by
  cases h with
  | unconnected hconnecting => exact .nothing hconnecting.useStep?_error
  | connected hconnecting husing =>
    exact hconnecting.usesConnection fun k hk =>
      husing.usesOnly proper_lease fun _ _ _ hworking => hworking.usesOnly hs hk

theorem Opening.usesOnly (hs : Statement.compile c.config.safety q = .ok statement)
    {o : Except Halt (List (Answer Row))} (h : Opening c conn statement abort m o ds m')
    {k : Usage} (hk : k.Given c.limitsSession) : UsesOnly conn k ds (·.Used c.limitsSession) := by
  cases h with
  | unlimited hlimiting => exact hlimiting.usesOnly hk
  | limited hlimiting hexchange =>
    have hasks := hexchange.asks
      (sessionStep?_request (compiled_of_compile hs).exists_name StatementKind.noConfusion)
    exact (hlimiting.usesOnly hk).append fun k' hk' => hasks.usesOnly hk'.cases hk'

theorem Streaming.usesConnection (hs : Statement.compile c.config.safety q = .ok statement)
    {halt : Halt} (h : Streaming c statement abort m (.error halt) ds m') :
    c.UsesConnection ds := by
  cases h with
  | unconnected hconnecting => exact .nothing hconnecting.useStep?_error
  | refused hconnecting hopening hreleasing | givenUp hconnecting hopening hreleasing =>
    exact hconnecting.usesConnection fun k hk =>
      (hopening.usesOnly hs hk).append fun k' hk' => hreleasing.usesOnly proper_lease hk'
  | halted hconnecting hopening _ =>
    exact hconnecting.usesConnection fun k hk =>
      (hopening.usesOnly hs hk).append fun k' hk' =>
        Lease.usesOnly_discards proper_lease (.used hk')

/-- A stream that was opened uses its connection. -/
theorem Streaming.opened_usesOnly (hs : Statement.compile c.config.safety q = .ok statement)
    {s : RowStream} (h : Streaming c statement abort m (.ok s) ds m') :
    ∃ conn, s.lease = c.lease conn true ∧ s.done = false ∧ c.Has conn ds ∧
      (∀ conn', cancelsOf conn' ds = 0) ∧
      ∀ k, c.Starts conn k → UsesOnly conn k ds (·.Used c.limitsSession) := by
  cases h with
  | @opened conn _ _ _ _ _ hconnecting hopening =>
    refine ⟨conn, rfl, rfl, hconnecting.usesOnly.1.append_left, fun conn' => ?_, fun k hk => ?_⟩
    · rw [cancelsOf_append, hconnecting.cancels_eq_zero, Nat.zero_add]
      cases hopening with
      | limited hlimiting hexchange =>
        have hasks := hexchange.asks_of_ok
          (sessionStep?_request (compiled_of_compile hs).exists_name StatementKind.noConfusion)
        rw [cancelsOf_append, hlimiting.cancels_eq_zero,
          hasks.cancels_eq_zero (fun _ ht => nomatch ht)]
    · exact (hconnecting.usesOnly.2 k hk).append fun k' hk' => hopening.usesOnly hs hk'

end

/-! ## Streams -/

namespace RowStream

variable {s s' : RowStream} {k : Usage}

theorem usesOnly_finishes (hs : s.lease.Proper) (interrupted : Bool) (hk : k.Used s.lease.reset) :
    UsesOnly s.lease.conn k (s.finishes interrupted m) (·.Done s.lease.reset) := by
  have hl : ({ s.lease with cancel := interrupted } : Lease).Proper := hs
  exact Lease.usesOnly_discards hl (.used hk)

/-- A stream that comes to an end is done with its connection. -/
theorem Polling.usesOnly {item : Item} (h : s.Polling m item s' ds) (hs : s.lease.Proper)
    (hdone : s.done = false) : s'.lease = s.lease ∧ (s'.done = false → ds = []) ∧
      (s'.done → ∀ k, k.Used s.lease.reset →
        UsesOnly s.lease.conn k ds (·.Done s.lease.reset)) := by
  cases h with
  | past hover =>
    rw [hdone] at hover
    cases hover
  | aborted _ _ _ =>
    exact ⟨rfl, Bool.noConfusion, fun _ k hk => usesOnly_finishes hs true hk⟩
  | exhausted _ _ _ | failed _ _ _ _ _ =>
    exact ⟨rfl, Bool.noConfusion, fun _ k hk => usesOnly_finishes hs false hk⟩
  | row _ _ _ _ _ | pending _ _ _ _ =>
    refine ⟨rfl, fun _ => rfl, fun hover => ?_⟩
    rw [hdone] at hover
    cases hover

theorem Closing.usesOnly {o : Except Halt Unit} (h : s.Closing m o ds m') (hs : s.lease.Proper)
    (hdone : s.done = false) (hk : k.Used s.lease.reset) :
    UsesOnly s.lease.conn k ds (·.Done s.lease.reset) := by
  cases h with
  | past hover =>
    rw [hdone] at hover
    cases hover
  | closed _ hreleasing => exact hreleasing.usesOnly hs hk

end RowStream

end QueryClient.Session
