/-
  Queries that are refused.

  * `Run.Notes` holds of runs that come to something and do nothing but make notes, for the hooks
    and the log;
  * `accepted_or_refused`: a query that is not accepted is refused with an error of validation,
    and a call with a query that has no statement comes to its error and does nothing.
-/
import QueryClient.Proofs.Session.Exec
import QueryClient.Proofs.Statement.Acceptance
import QueryClient.Session.Execute
import QueryClient.Session.RowStream
import QueryClient.Session.Script

namespace QueryClient.Session

variable {σ α β : Type}

/-! ## Notes -/

/-- Whether something was written to the log or shown to the hooks. -/
def Event.isNote : Event → Bool
  | .traced _ | .shown _ => true
  | _ => false

/-- The state after some notes. -/
def State.noting (s : State σ) (notes : List Event) : State σ :=
  { s with history := s.history ++ notes, moments := s.moments ++ notes.map fun _ => s.now }

theorem State.noting_noting (s : State σ) (xs ys : List Event) :
    (s.noting xs).noting ys = s.noting (xs ++ ys) := by
  simp [noting]

namespace Run

/-- The run comes to an outcome, and makes notes at most. -/
def Notes (env : Env σ) (s : State σ) (r : Run σ α) (o : Except Halt α) : Prop :=
  ∃ notes : List Event, (∀ e ∈ notes, e.isNote) ∧ r.exec env s = (o, s.noting notes)

variable {env : Env σ} {s : State σ}

theorem Notes.of_eq {r : Run σ α} {o : Except Halt α} (h : r.exec env s = (o, s)) :
    Notes env s r o :=
  ⟨[], List.forall_mem_nil _, by rw [h, State.noting, List.append_nil, List.map_nil,
    List.append_nil]⟩

theorem Notes.log {e : Event} (he : e.isNote) : Notes env s (Run.log e) (.ok ()) :=
  ⟨[e], List.forall_mem_singleton.2 he, rfl⟩

theorem Notes.bind {r : Run σ α} {f : α → Run σ β} {a : α} {o : Except Halt β}
    (h : Notes env s r (.ok a)) (hf : ∀ s, Notes env s (f a) o) : Notes env s (r >>= f) o := by
  obtain ⟨xs, hxs, hr⟩ := h
  obtain ⟨ys, hys, hfa⟩ := hf (s.noting xs)
  refine ⟨xs ++ ys, List.forall_mem_append.2 ⟨hxs, hys⟩, ?_⟩
  rw [exec_bind, hr]
  exact hfa.trans (by rw [State.noting_noting])

theorem Notes.forM {xs : List α} {f : α → Run σ Unit} (h : ∀ x s, Notes env s (f x) (.ok ())) :
    Notes env s (xs.forM f) (.ok ()) := by
  induction xs generalizing s with
  | nil => exact .of_eq rfl
  | cons x xs ih => exact (h x s).bind fun _ => ih

end Run

open Run

/-! ## Calls with queries that are refused -/

variable {env : Env σ} {s : State σ} {c : Client} {q : Query} {abort : Option ℕ} {e : Error}

namespace Client

theorem notes_notify (event : HookEvent) : Notes env s (c.notify event) (.ok ()) := by
  unfold notify
  split
  · exact .of_eq rfl
  · exact (Notes.log rfl).bind fun _ => .forM fun _ _ => .log rfl

theorem notes_aborted_bind {f : Bool → Run σ α} {o : Except Halt α} (h : ∀ t ∈ abort, s.now < t)
    (hf : Notes env s (f false) o) : Notes env s (aborted abort >>= f) o := by
  have haborted : (aborted abort : Run σ Bool).exec env s = (.ok false, s) :=
    congrArg (fun late => (Except.ok late, s)) (any_le_eq_false_iff.2 h)
  obtain ⟨notes, hnotes, hexec⟩ := hf
  refine ⟨notes, hnotes, ?_⟩
  rw [exec_bind, haborted]
  exact hexec

/-- **Executing a query without a statement** comes to the error of the query. -/
theorem notes_execute (h : Statement.compile c.config.safety q = .error e)
    (habort : ∀ t ∈ abort, s.now < t) : Notes env s (c.execute q abort) (.ok (.err e)) := by
  unfold execute
  refine notes_aborted_bind habort ?_
  rw [if_neg Bool.false_ne_true, h]
  exact (notes_notify _).bind fun _ => .of_eq rfl

/-- **Streaming a selection without a statement** comes to the error of the selection. -/
theorem notes_stream {columns : String} (hq : q.operation = .select columns)
    (h : Statement.compile c.config.safety q = .error e) (habort : ∀ t ∈ abort, s.now < t) :
    Notes env s (c.stream q abort) (.error (.failed e)) := by
  unfold stream
  rw [hq]
  refine notes_aborted_bind habort ?_
  rw [if_neg Bool.false_ne_true, h]
  exact (notes_notify _).bind fun _ => .of_eq rfl

end Client

/-- **Acceptance.**  A query has a statement exactly if it is accepted, and is refused with an
error of validation otherwise.  A call that executes or streams a query without a statement, and
is not aborted before, comes to its error; it asks the source for nothing. -/
theorem accepted_or_refused (safety : Safety) (q : Query) :
    (q.error = none →
      ((∃ statement, Statement.compile safety q = .ok statement) ↔ Accepted safety q) ∧
      ∀ e, Statement.compile safety q = .error e → ∃ message, e = .validation message) ∧
    ∀ e, Statement.compile safety q = .error e →
      ∀ {σ : Type} (c : Client) (env : Env σ) (s : State σ) (abort : Option ℕ),
        c.config.safety = safety → (∀ t ∈ abort, s.now < t) →
        Notes env s (c.execute q abort) (.ok (.err e)) ∧
        ∀ columns, q.operation = .select columns →
          Notes env s (c.stream q abort) (.error (.failed e)) := by
  refine ⟨fun hq => ⟨exists_compile_iff hq, validates_compile hq⟩, ?_⟩
  rintro e he σ c env s abort rfl habort
  exact ⟨c.notes_execute he habort, fun columns hop => c.notes_stream hop he habort⟩

/-- The selection from a table whose name is empty. -/
def nameless : Query := .ofTable "public" ""

theorem refused_of_nameless :
    ¬ Accepted {} nameless ∧
      ∃ message, Statement.compile {} nameless = .error (.validation message) ∧
        Notes ⟨Script.source, []⟩ { source := {} } (Client.execute {} nameless (some 5))
          (.ok (.err (.validation message))) ∧
        Notes ⟨Script.source, []⟩ { source := {} } (Client.stream {} nameless none)
          (.error (.failed (.validation message))) := by
  obtain ⟨e, he⟩ : ∃ e, Statement.compile {} nameless = .error e := ⟨_, rfl⟩
  obtain ⟨hiff, hvalidation⟩ := (accepted_or_refused {} nameless).1 rfl
  obtain ⟨message, rfl⟩ := hvalidation e he
  have hcalls := (accepted_or_refused {} nameless).2 _ he {} (⟨Script.source, []⟩ : Env Script)
    { source := {} }
  refine ⟨fun haccepted => ?_, message, he, ?_, ?_⟩
  · obtain ⟨statement, hstatement⟩ := hiff.2 haccepted
    rw [he] at hstatement
    cases hstatement
  · exact (hcalls (some 5) rfl (by simp)).1
  · exact (hcalls none rfl (by simp)).2 "*" rfl

/-- That the caller has aborted counts more than that the query has no statement. -/
theorem late_stream_of_nameless :
    (∃ message, Statement.compile {} nameless = .error (.validation message)) ∧
      ((Client.stream {} nameless (some 0)).exec ⟨Script.source, []⟩ { source := {} }).1 =
        .error (.failed (.aborted "stream aborted before execution")) :=
  ⟨⟨_, rfl⟩, rfl⟩

end QueryClient.Session
