/-
  Chronicles.

  A chronicle lists what happened between two states, in order and with the moments: the requests,
  each with the answer that the source gave to it, and what was noted beside them.

  * `Source.respond`: what a source answers to a request, whatever the request is;
  * `Chronicles source s entries s'`: the entries are what happened between two states;
  * `Chronicles.unique`: the states leave no choice in that;
  * `Chronicles.observed`: without moments, and with verdicts in place of answers, a chronicle is a
    trace.
-/
import QueryClient.Proofs.Session.Trace

namespace QueryClient.Session

variable {σ α β : Type}

/-! ## Answers of all kinds -/

/-- What comes of a request. -/
inductive Yield where
  /-- Nothing but that it succeeded. -/
  | done
  | rows (rows : List Row)
  | affected (n : ℕ)
  /-- The answers to the requests for the rows of a stream. -/
  | stream (rows : List (Answer Row))

/-- The answer with another value. -/
def Answer.map (f : α → β) (a : Answer α) : Answer β := ⟨a.wait, a.result.map f⟩

/-- The answer to a request, and the state in which it leaves the source. -/
def Source.respond (source : Source σ) : Request → σ → Answer Yield × σ
  | .acquire, st => (source.acquire st).map (.map fun _ => .done) id
  | .statement .query conn sql values, st => (source.query conn sql values st).map (.map .rows) id
  | .statement .execute conn sql values, st =>
    (source.execute conn sql values st).map (.map .affected) id
  | .statement .stream conn sql values, st =>
    (source.stream conn sql values st).map (.map .stream) id
  | .statement .batch conn sql _, st => (source.batch conn sql st).map (.map fun _ => .done) id
  | .cancel conn, st => (source.cancel conn st).map (.map fun _ => .done) id

/-- The request that a step of a cleanup makes. -/
def CleanupStep.request (conn : ℕ) : CleanupStep → Request
  | .cancel => .cancel conn
  | .reset => .statement .batch conn resetStatement []

/-- Whether a request is one that cleanups make. -/
def Request.isStep : Request → Bool
  | .cancel _ => true
  | .statement .batch _ sql values => sql = resetStatement ∧ values.isEmpty
  | _ => false

@[simp] theorem CleanupStep.isStep_request (conn : ℕ) (step : CleanupStep) :
    (step.request conn).isStep := by
  cases step <;> rfl

/-- A request with its answer. -/
structure Inquiry where
  moment : ℕ
  request : Request
  answer : Answer Yield

/-- The answer has come by a moment. -/
def Inquiry.AnsweredBy (t : ℕ) (i : Inquiry) : Prop :=
  ∃ w, i.answer.wait = some w ∧ i.moment + w ≤ t

/-! ## Entries -/

/-- An entry of a chronicle. -/
inductive Entry where
  | asked (moment : ℕ) (r : Request) (a : Answer Yield)
  | noted (moment : ℕ) (e : Event)

namespace Entry

def event : Entry → Event
  | .asked _ r _ => r.event
  | .noted _ e => e

def moment : Entry → ℕ
  | .asked m _ _ => m
  | .noted m _ => m

/-- The request that an entry is, unless it is one that cleanups make. -/
def inquiry? : Entry → Option Inquiry
  | .asked m r a => if r.isStep then none else some ⟨m, r, a⟩
  | .noted _ _ => none

@[simp] theorem event_asked (m : ℕ) (r : Request) (a : Answer Yield) :
    (asked m r a).event = r.event := rfl

@[simp] theorem event_noted (m : ℕ) (e : Event) : (noted m e).event = e := rfl

@[simp] theorem moment_asked (m : ℕ) (r : Request) (a : Answer Yield) :
    (asked m r a).moment = m := rfl

@[simp] theorem moment_noted (m : ℕ) (e : Event) : (noted m e).moment = m := rfl

end Entry

/-- The requests of calls among some entries. -/
def inquiries (entries : List Entry) : List Inquiry := entries.filterMap Entry.inquiry?

@[simp] theorem inquiries_append (xs ys : List Entry) :
    inquiries (xs ++ ys) = inquiries xs ++ inquiries ys := List.filterMap_append

/-- Whether an event is a request. -/
def Event.isRequest : Event → Bool
  | .acquiring | .sent _ _ _ _ | .cancelled _ => true
  | _ => false

@[simp] theorem Request.isRequest_event (r : Request) : r.event.isRequest := by
  cases r <;> rfl

theorem Request.event_inj {r r' : Request} (h : r.event = r'.event) : r = r' := by
  cases r <;> cases r' <;> cases h <;> rfl

/-- What an event that is no request does to the source. -/
def Event.effect (source : Source σ) : Event → σ → σ
  | .closed => source.close
  | _ => id

/-! ## Chronicles -/

/-- The answers in the entries are those of the source, and the requests are all there. -/
inductive Ensues (source : Source σ) : σ → List Entry → σ → Prop
  | nil {st} : Ensues source st [] st
  | asked {st st' m r entries} : Ensues source (source.respond r st).2 entries st' →
      Ensues source st (.asked m r (source.respond r st).1 :: entries) st'
  | noted {st st' m e entries} : e.isRequest = false →
      Ensues source (e.effect source st) entries st' →
      Ensues source st (.noted m e :: entries) st'

/-- What happened between two states. -/
structure Chronicles (source : Source σ) (s : State σ) (entries : List Entry) (s' : State σ) :
    Prop where
  ensues : Ensues source s.source entries s'.source
  history : s'.history = s.history ++ entries.map Entry.event
  moments : s'.moments = s.moments ++ entries.map Entry.moment

section
variable {source : Source σ} {s s' s'' : State σ} {xs ys : List Entry}

theorem Ensues.append {st st' st'' : σ} (h : Ensues source st xs st')
    (h' : Ensues source st' ys st'') : Ensues source st (xs ++ ys) st'' := by
  induction h with
  | nil => exact h'
  | asked _ ih => exact .asked (ih h')
  | noted he _ ih => exact .noted he (ih h')

theorem Ensues.unique {st st₁ st₂ : σ} (h : Ensues source st xs st₁) (h' : Ensues source st ys st₂)
    (hevents : xs.map Entry.event = ys.map Entry.event)
    (hmoments : xs.map Entry.moment = ys.map Entry.moment) : xs = ys := by
  induction h generalizing ys with
  | nil =>
    rw [List.map_nil, eq_comm, List.map_eq_nil_iff] at hevents
    rw [hevents]
  | asked _ ih =>
    cases h' with
    | nil => cases hevents
    | asked h' =>
      simp only [List.map_cons, List.cons.injEq, Entry.event_asked, Entry.moment_asked]
        at hevents hmoments
      obtain rfl := Request.event_inj hevents.1
      rw [hmoments.1, ih h' hevents.2 hmoments.2]
    | noted he _ =>
      rw [List.map_cons, List.map_cons, List.cons.injEq, Entry.event_asked, Entry.event_noted]
        at hevents
      simp [← hevents.1] at he
  | noted he _ ih =>
    cases h' with
    | nil => cases hevents
    | asked h' =>
      rw [List.map_cons, List.map_cons, List.cons.injEq, Entry.event_asked, Entry.event_noted]
        at hevents
      simp [hevents.1] at he
    | noted _ h' =>
      simp only [List.map_cons, List.cons.injEq, Entry.event_noted, Entry.moment_noted]
        at hevents hmoments
      obtain rfl := hevents.1
      rw [hmoments.1, ih h' hevents.2 hmoments.2]

namespace Chronicles

theorem nil (hsource : s'.source = s.source) (hhistory : s'.history = s.history)
    (hmoments : s'.moments = s.moments) : Chronicles source s [] s' :=
  ⟨hsource ▸ .nil, by simp [hhistory], by simp [hmoments]⟩

theorem append (h : Chronicles source s xs s') (h' : Chronicles source s' ys s'') :
    Chronicles source s (xs ++ ys) s'' :=
  ⟨h.ensues.append h'.ensues, by simp [h'.history, h.history], by simp [h'.moments, h.moments]⟩

/-- **There is one chronicle** between two states. -/
theorem unique (h : Chronicles source s xs s') (h' : Chronicles source s ys s') : xs = ys := by
  refine h.ensues.unique h'.ensues ?_ ?_
  · exact List.append_cancel_left (h.history.symm.trans h'.history)
  · exact List.append_cancel_left (h.moments.symm.trans h'.moments)

end Chronicles

end

/-! ## Traces -/

/-- A stream has succeeded only if each of its rows has come. -/
def Yield.verdict : Yield → Verdict
  | .stream answers => answers.forM Answer.verdict
  | _ => .ok ()

/-- Whether a request succeeded. -/
def Answer.judged (a : Answer Yield) : Verdict := a.result.bind Yield.verdict

@[simp] theorem Answer.judged_map (a : Answer α) (yield : α → Yield) :
    (a.map yield).judged = a.result.bind fun b => (yield b).verdict := by
  rcases a with ⟨w, e | b⟩ <;> rfl

/-- The verdict on a request is that on its answer. -/
theorem Source.ask_eq (source : Source σ) (r : Request) (st : σ) :
    source.ask r st = (source.respond r st).map Answer.judged id := by
  have hplain : ∀ {α : Type} (yield : α → Yield), (∀ b, (yield b).verdict = .ok ()) →
      ∀ answered : Answer α × σ, answered.map Answer.verdict id =
        (answered.map (.map yield) id).map Answer.judged id := by
    rintro α yield hyield ⟨⟨w, e | b⟩, st'⟩
    · rfl
    · simp [Answer.verdict, hyield, Except.map, Except.bind]
  cases r with
  | acquire => exact hplain _ (fun _ => rfl) _
  | cancel conn => exact hplain _ (fun _ => rfl) _
  | statement kind conn sql values =>
    cases kind with
    | query | execute | batch => exact hplain _ (fun _ => rfl) _
    | stream =>
      rw [ask, respond]
      rcases source.stream conn sql values st with ⟨⟨w, e | b⟩, st'⟩ <;> rfl

/-- An entry without its moment. -/
def Entry.happening : Entry → Happening
  | .asked _ r a => .asked r a.judged
  | .noted _ e => .noted e

@[simp] theorem Entry.event_happening (x : Entry) : x.happening.event = x.event := by
  cases x <;> rfl

section
variable {source : Source σ} {s s' : State σ} {xs : List Entry}

theorem Ensues.leads {st st' : σ} (h : Ensues source st xs st')
    (hopen : ∀ m, .noted m .closed ∉ xs) : Leads source st (xs.map Entry.happening) st' := by
  induction h with
  | nil => exact .nil
  | @asked st _ _ r _ _ ih =>
    have hask := source.ask_eq r st
    refine .asked ?_ (congrArg Prod.fst hask)
    rw [hask]
    exact ih fun m hm => hopen m (List.mem_cons_of_mem _ hm)
  | @noted st _ m e _ _ _ ih =>
    have heffect : e.effect source st = st := by
      cases e with
      | closed => exact absurd List.mem_cons_self (hopen m)
      | _ => rfl
    rw [heffect] at ih
    exact .noted (ih fun m hm => hopen m (List.mem_cons_of_mem _ hm))

/-- **A chronicle is a trace**, unless the source is closed. -/
theorem Chronicles.observed (h : Chronicles source s xs s')
    (hopen : ∀ m, .noted m .closed ∉ xs) : Observed source s (xs.map Entry.happening) s' := by
  refine ⟨h.ensues.leads hopen, ?_⟩
  rw [h.history, List.map_map]
  congr 2
  funext x
  exact x.event_happening.symm

end

end QueryClient.Session
