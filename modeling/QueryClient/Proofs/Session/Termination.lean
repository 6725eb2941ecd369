/-
  Calls that nobody gives up.

  A call whose caller neither aborts nor gives up comes to its end, unless it waits for an answer
  that never comes.

  * `Unfinished`: a call is given up, or waits for such an answer, as its deeds say; every relation
    from `Exchange` to `Executing` says so of a call that is halted;
  * `Client.responds_or_waits`: a call that nobody gives up responds, or waits forever.
-/
import QueryClient.Proofs.Session.Attempts

namespace QueryClient.Session

open Run

/-- Among some deeds is a request whose answer never comes. -/
def Unanswered (ds : List Deed) : Prop := ∃ m r a, .asked m r a ∈ ds ∧ a.wait = none

/-- A call does not come to its end: it was given up, or an answer never comes. -/
structure Unfinished (halt : Halt) (ds : List Deed) : Prop where
  givenUp : halt.givenUp
  unanswered : halt = .stuck → Unanswered ds

section
variable {c : Client} {q : Query} {statement : Statement} {conn m m' : ℕ} {halt : Halt}
  {ds ds' : List Deed} {r : Request}

theorem Unfinished.mono (h : Unfinished halt ds) (hsub : ds ⊆ ds') : Unfinished halt ds' := by
  refine ⟨h.givenUp, fun hstuck => ?_⟩
  obtain ⟨m, r, a, hmem, hwait⟩ := h.unanswered hstuck
  exact ⟨m, r, a, hsub hmem, hwait⟩

/-- A call is halted while it waits for an answer. -/
theorem Unfinished.of_asked {a : Answer Yield} (hgiven : halt.givenUp)
    (hcomes : ∀ w ∈ a.wait, halt ≠ .stuck ∧ m' < m + w) : Unfinished halt [.asked m r a] := by
  refine ⟨hgiven, fun hstuck => ⟨m, r, a, List.mem_singleton.2 rfl, ?_⟩⟩
  exact Option.eq_none_iff_forall_not_mem.2 fun w hw => (hcomes w hw).1 hstuck

/-! ## Statements -/

theorem Raced.unfinished
    (h : Raced none (fun a ds => ds = [.asked m r a]) m (.error halt) ds m') :
    Unfinished halt ds := by
  cases h with | givenUp hasks hgiven _ _ hcomes =>
  exact hasks ▸ .of_asked hgiven hcomes

theorem Exchange.unfinished (h : Exchange conn none r m (.error halt) ds m')
    (hfailed : ∀ e, halt ≠ .failed e) : Unfinished halt ds := by
  generalize ho : Except.error halt = o at h
  cases h with
  | @answered result _ _ _ =>
    cases result with
    | ok _ => cases ho
    | error e =>
      cases ho
      exact absurd rfl (hfailed e)
  | stopped _ _ =>
    cases ho
    exact absurd rfl (hfailed _)
  | halted hraced _ =>
    obtain ⟨_, _, _, _, _, hnone⟩ := hraced.unaborted
    cases hnone
  | givenUp hraced =>
    cases ho
    exact hraced.unfinished

theorem Limiting.unfinished (h : Limiting c conn m (.error halt) ds m') :
    Unfinished halt ds := by
  cases h with | givenUp _ hgiven _ hcomes =>
  exact .of_asked hgiven hcomes

theorem Counting.unfinished {mode : CountMode}
    (h : Counting c conn q none mode m (.error halt) ds m') : Unfinished halt ds := by
  cases h with | givenUp _ hfailed hexchange =>
  exact hexchange.unfinished hfailed

theorem Running.unfinished (h : Running c conn q statement none m (.error halt) ds m')
    (hfailed : ∀ e, halt ≠ .failed e) : Unfinished halt ds := by
  generalize ho : Except.error halt = o at h
  cases h with
  | unanswered hexchange =>
    cases ho
    exact hexchange.unfinished hfailed
  | misfit _ _ =>
    cases ho
    exact absurd rfl (hfailed _)
  | fitted _ _ _ => cases ho
  | @counted _ _ _ _ _ o _ _ _ _ _ _ hcounting =>
    cases o with
    | ok _ => cases ho
    | error _ =>
      cases ho
      exact hcounting.unfinished.mono (List.subset_append_right _ _)

theorem Working.unfinished (h : Working c conn q statement none m (.error halt) ds m')
    (hfailed : ∀ e, halt ≠ .failed e) : Unfinished halt ds := by
  cases h with
  | unlimited hlimiting => exact hlimiting.unfinished
  | limited _ hrunning => exact (hrunning.unfinished hfailed).mono (List.subset_append_right _ _)

/-! ## Connections -/

theorem Connecting.unfinished (h : Connecting c none m (.error halt) ds m')
    (hfailed : ∀ e, halt ≠ .failed e) : Unfinished halt ds := by
  cases h with
  | refusedShared | refused | stopped => exact absurd rfl (hfailed _)
  | givenUp _ hraced => exact hraced.unfinished

theorem Cleaning.unfinished {steps : List CleanupStep} {o : Except Halt Unit}
    (h : Cleaning conn steps m o ds m') (ho : o = .error halt) : Unfinished halt ds := by
  induction h with
  | done => cases ho
  | answered _ _ ih => exact (ih ho).mono (List.subset_cons_self _ _)
  | givenUp hgiven _ hcomes =>
    cases ho
    exact .of_asked hgiven hcomes

theorem Lease.Using.unfinished {α : Type} {l : Lease} {B : Account α}
    (h : l.Using B (.error halt) ds m') (hfailed : ∀ e, halt ≠ .failed e)
    (hB : ∀ {ds m'}, B (.error halt) ds m' → Unfinished halt ds) : Unfinished halt ds := by
  generalize ho : Except.error halt = o at h
  cases h with
  | halted _ h =>
    cases ho
    exact (hB h).mono (List.subset_append_left _ _)
  | @released o _ _ _ _ _ _ =>
    cases o with
    | ok _ => cases ho
    | error e =>
      cases ho
      exact absurd rfl (hfailed e)
  | givenUp _ hreleasing =>
    cases ho
    cases hreleasing with | givenUp hcleaning =>
    exact (hcleaning.unfinished rfl).mono fun d hd =>
      List.mem_append_right _ (List.mem_append_left _ hd)

/-! ## Calls -/

theorem Attempting.unfinished (h : Attempting c q statement none m (.error halt) ds m')
    (hfailed : ∀ e, halt ≠ .failed e) : Unfinished halt ds := by
  cases h with
  | unconnected hconnecting => exact hconnecting.unfinished hfailed
  | connected _ husing =>
    exact (husing.unfinished hfailed fun hworking => hworking.unfinished hfailed).mono
      (List.subset_append_right _ _)

theorem Retrying.unfinished {left number : ℕ} {o : Except Halt Outcome}
    (h : Retrying c q statement none left number m o ds m') (hfailed : ∀ e, halt ≠ .failed e)
    (ho : o = .error halt) : Unfinished halt ds := by
  induction h with
  | last hattempting | done hattempting _ =>
    cases ho
    exact hattempting.unfinished hfailed
  | again _ _ _ _ ih => exact (ih ho).mono (List.subset_append_right _ _)
  | undelayed _ _ hdelaying =>
    cases ho
    cases hdelaying with
    | stopped ht _ _ => cases ht
    | givenUp hgiven hends _ => exact ⟨hgiven, fun hstuck => absurd hstuck hends⟩

theorem Executing.unfinished (h : Executing c q none m (.error halt) ds m') :
    Unfinished halt ds := by
  cases h with | givenUp _ _ hfailed hretrying =>
  exact hretrying.unfinished hfailed rfl

end

/-- **A call that nobody gives up** responds, unless it waits for an answer that never comes. -/
theorem Client.responds_or_waits {σ : Type} {env : Env σ} (hd : env.deadlines = []) (c : Client)
    (q : Query) (s : State σ) :
    ∃ ds entries, Passage env.source s ds entries ((c.execute q none).exec env s).2 ∧
      Executing c q none s.now ((c.execute q none).exec env s).1 ds
        ((c.execute q none).exec env s).2.now ∧
      ((∃ response, ((c.execute q none).exec env s).1 = .ok response) ∨
        ((c.execute q none).exec env s).1 = .error .stuck ∧ Unanswered ds) := by
  have hacts : Acts env s.now (c.execute q none) (Executing c q none s.now) := acts_execute q
  obtain ⟨ds, entries, hpassage, hexecuting⟩ := hacts.passes s rfl
  refine ⟨ds, entries, hpassage, hexecuting, ?_⟩
  cases ho : ((c.execute q none).exec env s).1 with
  | ok response => exact Or.inl ⟨response, rfl⟩
  | error halt =>
    have hamong := hacts.among s halt rfl ho
    rw [ho] at hexecuting
    have hunfinished := hexecuting.unfinished
    cases halt with
    | stuck => exact Or.inr ⟨rfl, hunfinished.unanswered rfl⟩
    | dropped level =>
      rw [hd] at hamong
      exact absurd hamong (Nat.not_lt_zero level)
    | failed _ | panicked _ => cases hunfinished.givenUp

end QueryClient.Session
