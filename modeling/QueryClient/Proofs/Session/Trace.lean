/-
  Traces.

  A run asks the source, which answers, and more happens beside: entries are written to the log,
  connections are released.  A trace lists all of it in order, each request with the verdict that
  the source gave in the state it was in.

  * `Source.ask`: the verdict of a source on a request;
  * `Leads`: the verdicts of a trace are those of the source;
  * `Observed source s trace s'`: the trace is what happened between two states, and it is
    exactly what the history recorded meanwhile.
-/
import QueryClient.Proofs.Session.Exec

namespace QueryClient.Session

variable {σ α : Type}

/-! ## Requests -/

/-- What a source is asked. -/
inductive Request where
  | acquire
  | statement (kind : StatementKind) (conn : ℕ) (sql : String) (values : List Value)
  | cancel (conn : ℕ)

/-- The event that records a request. -/
def Request.event : Request → Event
  | .acquire => .acquiring
  | .statement kind conn sql values => .sent kind conn sql values
  | .cancel conn => .cancelled conn

/-- Whether a request succeeded. -/
abbrev Verdict := Except Error Unit

def Answer.verdict (a : Answer α) : Verdict := a.result.map fun _ => ()

@[simp] theorem Answer.verdict_unit (a : Answer Unit) : a.verdict = a.result := by
  unfold verdict
  cases a.result <;> rfl

/-- A stream has succeeded only if each of its rows has come. -/
def Answer.rowsVerdict (a : Answer (List (Answer α))) : Verdict :=
  a.result.bind fun rows => rows.forM verdict

/-- The verdict on a request, and the state in which it leaves the source. -/
def Source.ask (source : Source σ) : Request → σ → Verdict × σ
  | .acquire, st => (source.acquire st).map Answer.verdict id
  | .statement .query conn sql values, st => (source.query conn sql values st).map Answer.verdict id
  | .statement .execute conn sql values, st =>
    (source.execute conn sql values st).map Answer.verdict id
  | .statement .stream conn sql values, st =>
    (source.stream conn sql values st).map Answer.rowsVerdict id
  | .statement .batch conn sql _, st => (source.batch conn sql st).map Answer.verdict id
  | .cancel conn, st => (source.cancel conn st).map Answer.verdict id

/-! ## Traces -/

/-- Something that happens: a request and its verdict, or what is noted without one. -/
inductive Happening where
  | asked (r : Request) (verdict : Verdict)
  | noted (e : Event)

namespace Happening

def event : Happening → Event
  | .asked r _ => r.event
  | .noted e => e

def request? : Happening → Option Request
  | .asked r _ => some r
  | .noted _ => none

end Happening

/-- Whether an event sends a statement on a connection or releases it. -/
def Event.concerns (conn : ℕ) : Event → Bool
  | .sent _ c _ _ | .released c => c = conn
  | _ => false

/-- What concerns a connection: that one is acquired, the statements on it, and its release. -/
def Happening.concerns (conn : ℕ) : Happening → Bool
  | .asked .acquire _ => true
  | .asked (.statement _ c _ _) _ => c = conn
  | .asked (.cancel _) _ => false
  | .noted e => e.concerns conn

/-- The verdicts of a trace are those of the source. -/
inductive Leads (source : Source σ) : σ → List Happening → σ → Prop
  | nil {st} : Leads source st [] st
  | asked {st st' r v trace} : Leads source (source.ask r st).2 trace st' →
      (source.ask r st).1 = v → Leads source st (.asked r v :: trace) st'
  | noted {st st' e trace} : Leads source st trace st' → Leads source st (.noted e :: trace) st'

theorem Leads.append {source : Source σ} {st st' st'' : σ} {xs ys : List Happening}
    (h : Leads source st xs st') (h' : Leads source st' ys st'') :
    Leads source st (xs ++ ys) st'' := by
  induction h with
  | nil => exact h'
  | asked _ hv ih => exact .asked (ih h') hv
  | noted _ ih => exact .noted (ih h')

theorem leads_append_iff {source : Source σ} {st st'' : σ} {xs ys : List Happening} :
    Leads source st (xs ++ ys) st'' ↔ ∃ st', Leads source st xs st' ∧ Leads source st' ys st'' := by
  refine ⟨fun h => ?_, fun ⟨_, h, h'⟩ => h.append h'⟩
  induction xs generalizing st with
  | nil => exact ⟨st, .nil, h⟩
  | cons x rest ih =>
    cases h with
    | asked h hv =>
      obtain ⟨st', hxs, hys⟩ := ih h
      exact ⟨st', .asked hxs hv, hys⟩
    | noted h =>
      obtain ⟨st', hxs, hys⟩ := ih h
      exact ⟨st', .noted hxs, hys⟩

/-- What happened between two states. -/
structure Observed (source : Source σ) (s : State σ) (trace : List Happening) (s' : State σ) :
    Prop where
  leads : Leads source s.source trace s'.source
  history : s'.history = s.history ++ trace.map Happening.event

namespace Observed

variable {source : Source σ} {s s' s'' : State σ} {xs ys : List Happening}

theorem nil (hsource : s'.source = s.source) (hhistory : s'.history = s.history) :
    Observed source s [] s' :=
  ⟨hsource ▸ .nil, by simp [hhistory]⟩

theorem append (h : Observed source s xs s') (h' : Observed source s' ys s'') :
    Observed source s (xs ++ ys) s'' :=
  ⟨h.leads.append h'.leads, by simp [h'.history, h.history]⟩

theorem noted (e : Event) (hsource : s'.source = s.source)
    (hhistory : s'.history = s.history ++ [e]) : Observed source s [.noted e] s' :=
  ⟨.noted (hsource ▸ .nil), hhistory⟩

end Observed

/-! ## Runs that are given up -/

/-- Whether a run was given up, or never ends. -/
def Halt.givenUp : Halt → Bool
  | .dropped _ | .stuck => true
  | _ => false

end QueryClient.Session
