/-
  What runs come to.

  `Run.exec` is the end of a run: its value, or why it was halted, with the state it leaves.  The
  equations say what this is for each way in which runs are put together.
-/
import QueryClient.Session.Run
import Mathlib.Data.Nat.Notation

namespace QueryClient.Session.Run

variable {σ α β : Type}

/-! ## The end of a run -/

/-- What a run comes to in a state, and the state it leaves. -/
def exec (r : Run σ α) (env : Env σ) (s : State σ) : Except Halt α × State σ :=
  ((r.run env).run.run s).run

section
variable (env : Env σ) (s : State σ)

theorem exec_bind (r : Run σ α) (f : α → Run σ β) :
    (r >>= f).exec env s = match r.exec env s with
      | (.ok a, s') => (f a).exec env s'
      | (.error h, s') => (.error h, s') := by
  simp only [exec, ReaderT.run_bind, ExceptT.run_bind, StateT.run_bind, Id.run_bind]
  rcases ((r.run env).run.run s).run with ⟨a | h, s'⟩ <;> rfl

theorem exec_tryCatch (r : Run σ α) (f : Halt → Run σ α) :
    (tryCatch r f).exec env s = match r.exec env s with
      | (.ok a, s') => (.ok a, s')
      | (.error h, s') => (f h).exec env s' := by
  have hcatch : ReaderT.run (tryCatch r f) env =
      (tryCatch (r.run env) fun h => (f h).run env : ExceptT Halt (StateM (State σ)) α) := rfl
  simp only [exec, hcatch, ExceptT.run_tryCatch, StateT.run_bind, Id.run_bind]
  rcases ((r.run env).run.run s).run with ⟨h | a, s'⟩ <;> rfl

theorem exec_attempt (r : Run σ α) :
    (attempt r).exec env s = match r.exec env s with
      | (.ok a, s') => (.ok (.ok a), s')
      | (.error (.failed e), s') => (.ok (.error e), s')
      | (.error halt, s') => (.error halt, s') := by
  unfold attempt
  rw [exec_tryCatch, exec_bind]
  rcases r.exec env s with ⟨halt | a, s'⟩
  · cases halt <;> rfl
  · rfl

/-- A run that is limited in time has one more deadline. -/
theorem exec_within (time : ℕ) (r : Run σ α) :
    (within time r).exec env s =
      match r.exec { env with deadlines := (s.now + time) :: env.deadlines } s with
      | (.ok a, s') => (.ok (some a), s')
      | (.error (.dropped level), s') =>
        (if level = env.deadlines.length then .ok none else .error (.dropped level), s')
      | (.error halt, s') => (.error halt, s') := by
  have hlimited : exec
      (ReaderT.adapt (fun _ => { env with deadlines := (s.now + time) :: env.deadlines }) r) env s =
      r.exec { env with deadlines := (s.now + time) :: env.deadlines } s := rfl
  have hread : (read : Run σ (Env σ)).exec env s = (.ok env, s) := rfl
  have hnow : (now : Run σ ℕ).exec env s = (.ok s.now, s) := rfl
  unfold within
  rw [exec_bind, hread]
  dsimp only
  rw [exec_bind, hnow]
  dsimp only
  rw [exec_tryCatch, exec_bind, hlimited]
  rcases r.exec { env with deadlines := (s.now + time) :: env.deadlines } s with ⟨halt | a, s'⟩
  · cases halt with
    | dropped level =>
      dsimp only
      split <;> rfl
    | _ => rfl
  · rfl

end

section
variable {env : Env σ} {s : State σ} {r : Run σ α} {a : α} {halt : Halt}

theorem exec_bind_of_ok (h : (r.exec env s).1 = .ok a) (f : α → Run σ β) :
    (r >>= f).exec env s = (f a).exec env (r.exec env s).2 := by
  rw [exec_bind]
  rcases hs : r.exec env s with ⟨x, s'⟩
  rw [hs] at h
  obtain rfl : x = .ok a := h
  rfl

theorem exec_bind_of_error (h : (r.exec env s).1 = .error halt) (f : α → Run σ β) :
    (r >>= f).exec env s = (.error halt, (r.exec env s).2) := by
  rw [exec_bind]
  rcases hs : r.exec env s with ⟨x, s'⟩
  rw [hs] at h
  obtain rfl : x = .error halt := h
  rfl

end

/-! ## Moments -/

/-- A moment that may be given has not come as long as it is still to come. -/
theorem any_le_eq_false_iff {moment : Option ℕ} {m : ℕ} :
    moment.any (· ≤ m) = false ↔ ∀ t ∈ moment, m < t := by
  cases moment <;> simp

end QueryClient.Session.Run
