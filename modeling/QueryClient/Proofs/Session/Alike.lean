/-
  Sources that answer alike.

  What happens to a state depends on the source only by the answers to what is asked.

  * `Source.AlikeOn`: two sources answer alike what is asked among some deeds, and cleanups;
  * `State.settle_alike` and `State.advance_alike`: cleanups go on alike;
  * `Passage.alike`: the same moves lead from one state to the other with both sources.
-/
import QueryClient.Proofs.Session.Moves

namespace QueryClient.Session

variable {σ : Type}

/-- Two sources answer a request alike. -/
def Source.AlikeAt (A B : Source σ) : Request → Prop
  | .acquire => A.acquire = B.acquire
  | .statement .query conn sql values => A.query conn sql values = B.query conn sql values
  | .statement .execute conn sql values => A.execute conn sql values = B.execute conn sql values
  | .statement .stream conn sql values => A.stream conn sql values = B.stream conn sql values
  | .statement .batch conn sql _ => A.batch conn sql = B.batch conn sql
  | .cancel conn => A.cancel conn = B.cancel conn

/-- Two sources answer alike what cleanups ask. -/
def Source.CleansAlike (A B : Source σ) : Prop :=
  ∀ conn (step : CleanupStep), A.AlikeAt B (step.request conn)

/-- Two sources answer alike what is asked among some deeds, and what cleanups ask. -/
structure Source.AlikeOn (A B : Source σ) (ds : List Deed) : Prop where
  cleans : A.CleansAlike B
  asked : ∀ {m r a}, .asked m r a ∈ ds → A.AlikeAt B r
  closed : ∀ {m}, .closed m ∈ ds → A.close = B.close

section
variable {A B : Source σ} {ds ds' : List Deed}

theorem Source.AlikeAt.respond {r : Request} (h : A.AlikeAt B r) : A.respond r = B.respond r := by
  funext st
  rcases r with _ | ⟨⟨⟩, conn, sql, values⟩ | conn <;>
    simp only [Source.AlikeAt] at h <;> simp only [Source.respond, h]

theorem Source.AlikeOn.of_subset (h : A.AlikeOn B ds) (hsub : ds' ⊆ ds) : A.AlikeOn B ds' :=
  ⟨h.cleans, fun hmem => h.asked (hsub hmem), fun hmem => h.closed (hsub hmem)⟩

theorem Source.AlikeOn.left (h : A.AlikeOn B (ds ++ ds')) : A.AlikeOn B ds :=
  h.of_subset (List.subset_append_left _ _)

theorem Source.AlikeOn.right (h : A.AlikeOn B (ds ++ ds')) : A.AlikeOn B ds' :=
  h.of_subset (List.subset_append_right _ _)

end

/-! ## Cleanups -/

namespace State

variable {A B : Source σ} (hcleans : A.CleansAlike B)
include hcleans

theorem startStep_alike (conn : ℕ) (step : CleanupStep) :
    startStep A conn step = startStep B conn step := by
  funext s
  cases step with
  | cancel =>
    have hcancel : A.cancel conn = B.cancel conn := hcleans conn .cancel
    rw [startStep, startStep, hcancel]
  | reset =>
    have hreset : A.batch conn resetStatement = B.batch conn resetStatement := hcleans conn .reset
    rw [startStep, startStep, hreset]

theorem runSteps_alike (conn : ℕ) (steps : List CleanupStep) (s : State σ) :
    runSteps A conn steps s = runSteps B conn steps s := by
  induction steps generalizing s with
  | nil => rfl
  | cons step rest ih => simp only [runSteps, startStep_alike hcleans, ih]

theorem runCleanup_alike (c : Cleanup) (s : State σ) : runCleanup A c s = runCleanup B c s := by
  simp only [runCleanup, runSteps_alike hcleans]

theorem settleAll_alike (cleanups : List Cleanup) (s : State σ) :
    settleAll A cleanups s = settleAll B cleanups s := by
  induction cleanups generalizing s with
  | nil => rfl
  | cons c rest ih => simp only [settleAll, runCleanup_alike hcleans, ih]

theorem settle_alike : settle A = settle B := funext fun _ => settleAll_alike hcleans _ _

theorem advance_alike : advance A = advance B := by
  have hwithin : ∀ t fuel (s : State σ), advanceWithin A t fuel s = advanceWithin B t fuel s := by
    intro t fuel
    induction fuel with
    | zero => exact fun _ => rfl
    | succ fuel ih => exact fun s => by simp only [advanceWithin, settle_alike hcleans, ih]
  exact funext fun t => funext fun s => hwithin t _ s

end State

/-! ## Moves -/

section
variable {A B : Source σ} {s s' : State σ} {ds : List Deed} {xs : List Entry}

theorem State.afterRequest_alike {r : Request} (h : A.AlikeAt B r) :
    s.answerTo A r = s.answerTo B r ∧ s.afterRequest A r = s.afterRequest B r := by
  rw [answerTo, answerTo, afterRequest, afterRequest, h.respond]
  exact ⟨rfl, rfl⟩

theorem Moves.alike {deed : Option Deed} (h : Moves A s deed xs s')
    (halike : A.AlikeOn B deed.toList) : Moves B s deed xs s' := by
  cases h with
  | passes h => exact .passes h
  | notes h => exact .notes h
  | closes => exact halike.closed List.mem_cons_self ▸ .closes
  | starts h =>
    obtain ⟨hanswer, hafter⟩ := State.afterRequest_alike (s := s) (halike.cleans _ _)
    rw [hanswer, hafter]
    exact .starts h
  | answered h h' => exact .answered h h'
  | ends h h' => exact .ends h h'
  | releases h h' h'' => exact .releases h h' h''
  | asks =>
    obtain ⟨hanswer, hafter⟩ := State.afterRequest_alike (s := s) (halike.asked List.mem_cons_self)
    rw [hanswer, hafter]
    exact .asks
  | holds => exact .holds
  | letsGo h => exact .letsGo h
  | frees h h' => exact .frees h h'
  | leaves => exact .leaves

/-- **The same moves** are made with two sources that answer alike what is asked. -/
theorem Passage.alike (h : Passage A s ds xs s') (halike : A.AlikeOn B ds) :
    Passage B s ds xs s' := by
  induction h with
  | refl => exact .refl _
  | head hmove _ ih => exact .head (hmove.alike halike.left) (ih halike.right)

end

end QueryClient.Session
