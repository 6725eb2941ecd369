/-
  Failures that hooks are shown.

  * `Shows`: the failures that hooks are shown from one state to another;
  * `Work.shows_perform`: in the course of some work, the errors with which its calls are refused;
  * `Client.shows_transact`: in the course of a transaction, those and then its own;
  * `failures_reported`: of the errors that reach the caller of a call, hooks are shown each one
    once, but for those that a stream gives and for data that cannot be read.
-/
import QueryClient.Proofs.Session.Observers

namespace QueryClient.Session

open Run

variable {σ α : Type}

section
variable {hooks : List Hook} {Issues : String → StatementKind → String → List Value → Prop}
  {env : Env σ}

/-! ## Calls in a transaction -/

/-- The name of the operation under which hooks are shown the failure of a call. -/
def Call.operation : Call σ → String
  | .execute q _ _ | .stream q _ _ => q.operation.name
  | .transact _ => Client.transactionOperation
  | _ => ""

/-- The error with which a call is refused. -/
def Reply.refusal? : Reply → Option Error
  | .response r => r.error
  | .refused e => some e
  | _ => none

/-- Hooks are shown no failure of a call that is given up. -/
def ReportedPatiently (Φ : Reporting α) : Reporting (Option α) := fun o failures =>
  match o with
  | .ok (some a) => Φ (.ok a) failures
  | .ok none => failures = []
  | .error halt => failures = [] ∧ Unfailed halt

theorem mirrors_patiently {r₁ r₂ : Run σ α} {Φ : Reporting α} (patience : Option ℕ)
    (h : ∀ deadlines, Mirrors hooks Issues { env with deadlines } [] r₁ r₂ Φ)
    (hhalt : ∀ halt failures, Φ (.error halt) failures → failures = [] ∧ Unfailed halt) :
    Mirrors hooks Issues env [] (patiently patience r₁) (patiently patience r₂)
      (ReportedPatiently Φ) := by
  cases patience with
  | none =>
    refine (h env.deadlines).bind (fun a failures hΦ => .pure ?_) hhalt
    rwa [List.append_nil]
  | some time =>
    refine .within time h fun o failures hΦ => ?_
    match o with
    | .ok a => exact hΦ
    | .error (.dropped level) =>
      unfold givenUp
      dsimp only
      split
      · exact (hhalt _ _ hΦ).1
      · exact hhalt _ _ hΦ
    | .error (.failed _) | .error (.panicked _) | .error .stuck => exact hhalt _ _ hΦ

/-- Hooks are shown the error with which a call is refused, once, and nothing else. -/
def Call.Told (call : Call σ) : Reporting (Reply × List RowStream) := fun o failures =>
  match o with
  | .ok (reply, _) =>
    failures.map ErrorEvent.brief = reply.refusal?.toList.map (call.operation, ·)
  | .error halt => failures = [] ∧ Unfailed halt

end

namespace Client

variable (c : Client) (env : Env σ)

/-- A transaction in a transaction is refused. -/
theorem mirrors_transact_nested (hc : c.inTransaction) (callback : Callback σ α) :
    Mirrors c.hooks (fun _ _ _ _ => True) env [] (c.transact callback)
      (c.unobserved.transact callback) (Reported transactionOperation) := by
  unfold transact
  rw [if_pos hc, if_pos (show c.unobserved.inTransaction from hc)]
  exact mirrors_refuse _ _ _

theorem mirrors_close {H : Halt → Prop} :
    Mirrors c.hooks (fun _ _ _ _ => True) env [] (c.close : Run σ Unit) c.unobserved.close
      (Quiet H) := by
  have hsame : (c.unobserved.close : Run σ Unit) = c.close := rfl
  rw [hsame, close]
  split
  · exact .quiet_pure _
  · exact .read_bind <| (Mirrors.log rfl).seq fun _ => .of_modify fun _ _ _ => rfl

theorem mirrors_answer (hc : c.inTransaction) (streams : List RowStream) (call : Call σ) :
    Mirrors c.hooks (fun _ _ _ _ => True) env [] (call.answer c streams)
      (call.answer c.unobserved streams) call.Told := by
  have htold : ∀ halt, Unfailed halt → call.Told (.error halt) [] := fun _ hhalt => ⟨rfl, hhalt⟩
  cases call with
  | execute q abort patience =>
    refine .now_bind fun now => (mirrors_patiently patience
      (fun deadlines => (c.mirrors_execute q _ _).widen fun _ _ _ _ _ => trivial)
      fun _ _ h => h).bind (fun o failures h => ?_) fun _ _ h => h
    cases o with
    | some r => exact .pure (by rwa [List.append_nil])
    | none => exact .pure (by rw [List.append_nil, show failures = [] from h]; rfl)
  | stream q abort patience =>
    refine .now_bind fun now => (mirrors_patiently patience
      (fun deadlines => ((c.mirrors_stream q _ _).attempt streamed_attempted).widen
        fun _ _ _ _ _ => trivial) fun _ _ h => h).bind (fun o failures h => ?_) fun _ _ h => h
    match o with
    | some (.ok s) => exact .pure (by rw [List.append_nil, show failures = [] from h]; rfl)
    | some (.error e) => exact .pure (by rwa [List.append_nil])
    | none => exact .pure (by rw [List.append_nil, show failures = [] from h]; rfl)
  | next i patience =>
    unfold Call.answer
    dsimp only
    cases streams[i]? with
    | none => exact .pure rfl
    | some s => exact (s.mirrors_next patience).andThen (fun _ => .pure rfl) htold
  | abortStream i => exact .now_bind fun _ => .pure rfl
  | closeStream i patience =>
    unfold Call.answer
    dsimp only
    cases streams[i]? with
    | none => exact .pure rfl
    | some s =>
      refine (mirrors_patiently patience (fun deadlines => s.mirrors_close)
        fun halt _ h => ⟨h.1, h.2 halt rfl⟩).bind (fun o failures h => .pure ?_) fun _ _ h => h
      have hnone : failures = [] := by
        cases o with
        | some _ => exact h.1
        | none => exact h
      rw [List.append_nil, hnone]
      cases o <;> rfl
  | dropStream i =>
    unfold Call.answer
    dsimp only
    cases streams[i]? with
    | none => exact .pure rfl
    | some s => exact s.mirrors_drop.andThen (fun _ => .pure rfl) htold
  | close => exact (c.mirrors_close env).andThen (fun _ => .pure rfl) htold
  | transact callback =>
    exact (c.mirrors_transact_nested env hc callback).bind
      (fun r failures h => .pure (by rwa [List.append_nil])) fun _ _ h => h
  | wait time => exact (Mirrors.wait time).andThen (fun _ => .pure rfl) htold

end Client

/-! ## Errors that reach the caller -/

/-- The errors that reach the caller in a response. -/
def responseErrors : Except Halt (Response α) → List Error
  | .ok r => r.error.toList
  | .error (.failed e) => [e]
  | .error _ => []

/-- The error that a poll gives. -/
def Poll.error? (p : Poll) : Option Error :=
  match p.item with
  | .failed e => some e
  | _ => none

/-- The error with which a stream is not opened. -/
def openingErrors : Except Halt (Except Error (List Poll)) → List Error
  | .ok (.error e) => [e]
  | .error (.failed e) => [e]
  | _ => []

/-- The errors that a stream gives. -/
def pollErrors : Except Halt (Except Error (List Poll)) → List Error
  | .ok (.ok polls) => polls.filterMap Poll.error?
  | _ => []

section
variable {operation : String} {failures : List ErrorEvent}

theorem brief_of_reported {o : Except Halt (Response α)}
    (h : Client.Reported operation o failures) :
    failures.map ErrorEvent.brief = (responseErrors o).map (operation, ·) := by
  match o with
  | .ok r => exact h
  | .error (.failed e) => exact absurd rfl (h.2 e)
  | .error (.dropped _) | .error (.panicked _) | .error .stuck =>
    rw [h.1]
    rfl

theorem brief_of_streamed {o : Except Halt (Except Error (List Poll))}
    (h : Client.Streamed operation o failures) :
    failures.map ErrorEvent.brief = (openingErrors o).map (operation, ·) := by
  match o with
  | .ok (.error e) => exact h
  | .ok (.ok polls) =>
    rw [show failures = [] from h]
    rfl
  | .error (.failed e) => exact absurd rfl (h.2 e)
  | .error (.dropped _) | .error (.panicked _) | .error .stuck =>
    rw [h.1]
    rfl

theorem errors_of_brief {errors : List Error}
    (h : failures.map ErrorEvent.brief = errors.map (operation, ·)) :
    failures.map ErrorEvent.error = errors := by
  have hsnd := congrArg (List.map Prod.snd) h
  rwa [List.map_map, List.map_map, show Prod.snd ∘ ErrorEvent.brief = ErrorEvent.error from rfl,
    show (Prod.snd ∘ fun e => (operation, e)) = (id : Error → Error) from rfl, List.map_id] at hsnd

end

/-! ## Failures shown meanwhile -/

/-- The failures that hooks are shown in the course of a run. -/
def Run.failuresShown (r : Run σ α) (env : Env σ) (s : State σ) : List ErrorEvent :=
  ((r.exec env s).2.history.drop s.history.length).filterMap Event.failure?

/-- From one state to another, hooks are shown the failures of some operations. -/
def Shows (s s' : State σ) (failures : List (String × Error)) : Prop :=
  ∃ l, s'.history = s.history ++ l ∧ (l.filterMap Event.failure?).map ErrorEvent.brief = failures

namespace Shows

variable {s s' s'' : State σ} {failures failures' : List (String × Error)}

theorem trans (h : Shows s s' failures) (h' : Shows s' s'' failures') :
    Shows s s'' (failures ++ failures') := by
  obtain ⟨l, hl, rfl⟩ := h
  obtain ⟨l', hl', rfl⟩ := h'
  refine ⟨l ++ l', ?_, ?_⟩
  · rw [hl', hl, List.append_assoc]
  · rw [List.filterMap_append, List.map_append]

theorem failuresShown {r : Run σ α} {env : Env σ} (h : Shows s (r.exec env s).2 failures) :
    (r.failuresShown env s).map ErrorEvent.brief = failures := by
  obtain ⟨l, hl, rfl⟩ := h
  rw [Run.failuresShown, hl, List.drop_left]

section
variable {c : Client} {Issues : String → StatementKind → String → List Value → Prop} {env : Env σ}
  (hhooks : c.hooks ≠ []) (s : State σ)
include hhooks

theorem of_mirrors {r₁ r₂ : Run σ α} {Φ : Reporting α}
    (h : Mirrors c.hooks Issues env [] r₁ r₂ Φ) :
    ∃ failures, Φ (r₁.exec env s).1 failures ∧
      Shows s (r₁.exec env s).2 (failures.map ErrorEvent.brief) := by
  obtain ⟨o, s', l₁, m₁, l₂, m₂, failures, he, -, ha, hΦ⟩ :=
    h s s.history s.moments s.history s.moments
  have hunder : s.under s.history s.moments = s := rfl
  rw [hunder] at he
  have hfailures : l₁.filterMap Event.failure? = failures := ha.failures_eq hhooks
  rw [he]
  exact ⟨failures, hΦ, l₁, rfl, by rw [hfailures]⟩

theorem of_quiet {r₁ r₂ : Run σ α} {H : Halt → Prop}
    (h : Mirrors c.hooks (fun _ _ _ _ => True) env [] r₁ r₂ (Quiet H)) :
    Shows s (r₁.exec env s).2 [] := by
  obtain ⟨failures, ⟨rfl, -⟩, hshows⟩ := of_mirrors hhooks s h
  exact hshows

theorem of_reported {r₁ r₂ : Run σ (Response α)} {operation : String}
    (h : Mirrors c.hooks Issues env [] r₁ r₂ (Client.Reported operation)) :
    Shows s (r₁.exec env s).2 ((responseErrors (r₁.exec env s).1).map (operation, ·)) := by
  obtain ⟨failures, hreported, hshows⟩ := of_mirrors hhooks s h
  rwa [brief_of_reported hreported] at hshows

end

end Shows

/-! ## Work -/

/-- The calls that some work makes with some streams open, and the replies that it gets. -/
def Work.exchange (c : Client) (env : Env σ) :
    Work σ α → List RowStream → State σ → List (Call σ × Reply)
  | .ask call next, streams, s =>
    match (call.answer c streams).exec env s with
    | (.ok (reply, streams), s') => (call, reply) :: exchange c env (next reply) streams s'
    | (.error _, _) => []
  | _, _, _ => []

/-- The errors with which calls are refused, with the operations that failed. -/
def refusals (exchange : List (Call σ × Reply)) : List (String × Error) :=
  exchange.flatMap fun (call, reply) => reply.refusal?.toList.map (call.operation, ·)

theorem mirrors_dropAll {hooks : List Hook} {H : Halt → Prop}
    {Issues : String → StatementKind → String → List Value → Prop} {env : Env σ}
    (streams : List RowStream) :
    Mirrors hooks Issues env [] (streams.forM RowStream.drop : Run σ Unit)
      (streams.forM RowStream.drop) (Quiet H) :=
  .forM fun s _ => s.mirrors_drop

/-- **In the course of some work** hooks are shown the errors with which its calls are refused. -/
theorem Work.shows_perform {c : Client} (hhooks : c.hooks ≠ []) (hc : c.inTransaction)
    (env : Env σ) (work : Work σ α) (streams : List RowStream) (s : State σ) :
    Shows s ((work.perform c streams).exec env s).2
      (refusals (work.exchange c env streams s)) := by
  have hdropAll : ∀ streams : List RowStream, Mirrors c.hooks (fun _ _ _ _ => True) env []
      (streams.forM RowStream.drop : Run σ Unit) (streams.forM RowStream.drop)
      (Quiet fun _ => True) := mirrors_dropAll
  induction work generalizing streams s with
  | done a => exact .of_quiet hhooks s ((hdropAll streams).seq fun _ => .quiet_pure a)
  | fail e => exact .of_quiet hhooks s ((hdropAll streams).seq fun _ => .quiet_throw trivial)
  | panic text => exact .of_quiet hhooks s ((hdropAll streams).seq fun _ => .quiet_throw trivial)
  | ask call next ih =>
    obtain ⟨failures, htold, hshows⟩ :=
      Shows.of_mirrors hhooks s (c.mirrors_answer env hc streams call)
    unfold perform exchange Run.onHalt
    rw [exec_bind, exec_tryCatch]
    rcases hanswer : (call.answer c streams).exec env s with ⟨halt | ⟨reply, streams'⟩, s'⟩ <;>
      rw [hanswer] at htold hshows
    · have hdropped := Shows.of_quiet hhooks s' (hdropAll (call.leaves streams))
      obtain ⟨rfl, -⟩ := htold
      dsimp only
      rw [exec_bind]
      rcases hdrop : ((call.leaves streams).forM RowStream.drop : Run σ Unit).exec env s'
        with ⟨_ | _, s''⟩ <;> rw [hdrop] at hdropped <;> exact hshows.trans hdropped
    · have hrefused : failures.map ErrorEvent.brief =
          reply.refusal?.toList.map (call.operation, ·) := htold
      rw [hrefused] at hshows
      exact hshows.trans (ih reply streams' s')

/-! ## Transactions -/

theorem mirrors_rollBack {hooks : List Hook}
    {Issues : String → StatementKind → String → List Value → Prop} {env : Env σ} (conn : ℕ) :
    Mirrors hooks Issues env [] (rollBack conn : Run σ Unit) (rollBack conn) (Quiet Unfailed) := by
  refine (Mirrors.batch conn "ROLLBACK").quiet_attempt.seq fun o => ?_
  cases o with
  | ok _ => exact .trace _
  | error e => exact .trace _

namespace Client

variable (c : Client) (env : Env σ)

theorem reported_of_unfailed {operation : String} {halt : Halt} (h : Unfailed halt) :
    Reported operation (.error halt : Except Halt (Response α)) [] := ⟨rfl, h⟩

theorem mirrors_refuseTransaction (message : String) (cause : Error) :
    Mirrors c.hooks (fun _ _ _ _ => True) env [] (c.refuseTransaction message cause)
      (c.unobserved.refuseTransaction message cause : Run σ (Response α))
      (Reported transactionOperation) :=
  mirrors_refuse _ _ _

theorem mirrors_endTransaction (conn : ℕ) (o : Except Error α) :
    Mirrors c.hooks (fun _ _ _ _ => True) env [] (c.endTransaction conn o)
      (c.unobserved.endTransaction conn o : Run σ (Response α))
      (Reported transactionOperation) := by
  have hrefuse : ∀ message cause, Mirrors c.hooks (fun _ _ _ _ => True) env []
      (do
        rollBack conn
        c.refuseTransaction message cause)
      (do
        rollBack conn
        c.unobserved.refuseTransaction message cause : Run σ (Response α))
      (Reported transactionOperation) := fun message cause =>
    (mirrors_rollBack conn).andThen (fun _ => c.mirrors_refuseTransaction env message cause)
      fun _ => reported_of_unfailed
  cases o with
  | error e => exact hrefuse _ e
  | ok value =>
    refine (Mirrors.batch conn "COMMIT").quiet_attempt.andThen (fun o => ?_)
      fun _ => reported_of_unfailed
    cases o with
    | ok _ => exact (Mirrors.trace _).andThen (fun _ => .pure rfl) fun _ => reported_of_unfailed
    | error e => exact hrefuse _ e

theorem mirrors_closing (conn : ℕ) (o : Except Halt α) :
    Mirrors c.hooks (fun _ _ _ _ => True) env [] (c.closing conn o)
      (c.unobserved.closing conn o) (Reported transactionOperation) := by
  match o with
  | .ok a => exact c.mirrors_endTransaction env conn (.ok a)
  | .error (.failed e) => exact c.mirrors_endTransaction env conn (.error e)
  | .error (.panicked text) =>
    exact (mirrors_rollBack conn).andThen
      (fun _ => .throw (reported_of_unfailed fun _ => Halt.noConfusion))
      fun _ => reported_of_unfailed
  | .error (.dropped _) | .error .stuck =>
    exact .throw (reported_of_unfailed fun _ => Halt.noConfusion)

/-- The calls of a transaction and the replies that they get: those of its work, if it comes to
that. -/
inductive Exchanged (s : State σ) (plan : Except String (Work σ α)) :
    List (Call σ × Reply) → Prop
  | begun {conn : ℕ} {s₁ : State σ} {work : Work σ α} : c.transaction = none →
    Opened env s conn s₁ → plan = .ok work →
    Exchanged s plan (work.exchange (c.inside conn) env [] s₁)
  | never : (∀ conn s₁ work, c.transaction = none → Opened env s conn s₁ → plan ≠ .ok work) →
    Exchanged s plan []

section
variable {c env} (hhooks : c.hooks ≠ [])
include hhooks

theorem shows_transactionOn (hc : c.transaction = none) {conn : ℕ} {s s₀ : State σ}
    (hacquire : (acquire none).exec env s = (.ok conn, s₀)) (plan : Except String (Work σ α)) :
    ∃ exchange, c.Exchanged env s plan exchange ∧
      Shows s₀ ((c.transactionOn conn (Work.callback plan)).exec env s₀).2
        (refusals exchange ++ (responseErrors
          ((c.transactionOn conn (Work.callback plan)).exec env s₀).1).map
            (transactionOperation, ·)) := by
  have hopened : ∀ {conn' s₁}, Opened env s conn' s₁ → (begin conn).exec env s₀ = (.ok (), s₁) := by
    rintro conn' s₁ ⟨s₀', hacquire', hbegin⟩
    rw [hacquire] at hacquire'
    cases hacquire'
    exact hbegin
  have hbegun : Shows s₀ ((begin conn).exec env s₀).2 [] := .of_quiet hhooks s₀ <|
    (Mirrors.batch conn "BEGIN").seq fun _ => (Mirrors.trace _)
  rcases hbegin : (begin conn : Run σ Unit).exec env s₀ with ⟨halt | _, s₁⟩ <;>
    rw [hbegin] at hbegun
  · have hnever : c.Exchanged env s plan [] := .never fun _ _ _ _ h => by
      rw [hopened h] at hbegin
      cases hbegin
    have hbatch : (batch conn "BEGIN").exec env s₀ = (.error halt, s₁) := by
      unfold begin at hbegin
      rw [exec_bind] at hbegin
      rcases hbatch : (batch conn "BEGIN" : Run σ Unit).exec env s₀ with ⟨halt' | _, s₀'⟩ <;>
        rw [hbatch] at hbegin <;> cases hbegin
      rfl
    refine ⟨[], hnever, ?_⟩
    cases halt with
    | failed e =>
      rw [exec_transactionOn_of_error _ hbatch]
      exact hbegun.trans (.of_reported hhooks s₁ (c.mirrors_refuseTransaction env _ e))
    | _ =>
      unfold transactionOn
      rw [exec_bind, exec_attempt, hbatch]
      exact hbegun
  · rw [exec_transactionOn_of_begin plan hbegin]
    cases plan with
    | error text => exact ⟨[], .never fun _ _ _ _ _ h => (nomatch h), hbegun⟩
    | ok work =>
      refine ⟨_, .begun hc ⟨s₀, hacquire, hbegin⟩ rfl, ?_⟩
      have hwork := work.shows_perform (c := c.inside conn) hhooks rfl env [] s₁
      exact (hbegun.trans hwork).trans (.of_reported hhooks _ (c.mirrors_closing env conn _))

/-- **In the course of a transaction** hooks are shown the errors with which the calls of its work
are refused, and then the error of its own response. -/
theorem shows_transact (plan : Except String (Work σ α)) (s : State σ) :
    ∃ exchange, c.Exchanged env s plan exchange ∧
      Shows s ((c.transact (Work.callback plan)).exec env s).2
        (refusals exchange ++ (responseErrors
          ((c.transact (Work.callback plan)).exec env s).1).map (transactionOperation, ·)) := by
  by_cases hin : c.inTransaction
  · refine ⟨[], .never fun _ _ _ hc => ?_,
      .of_reported hhooks s (c.mirrors_transact_nested env hin _)⟩
    rw [inTransaction, hc] at hin
    cases hin
  have hc : c.transaction = none := by simpa [inTransaction] using hin
  have hacquired : Shows s ((acquire none).exec env s).2 [] :=
    .of_quiet hhooks s (Mirrors.acquire none)
  rw [exec_transact hc]
  rcases hacquire : (acquire none).exec env s with ⟨halt | conn, s₀⟩ <;>
    rw [hacquire] at hacquired
  · have hnever : c.Exchanged env s plan [] := .never fun conn s₁ _ _ h => by
      obtain ⟨_, hacquire', _⟩ := h
      rw [hacquire] at hacquire'
      cases hacquire'
    refine ⟨[], hnever, ?_⟩
    cases halt with
    | failed e =>
      exact hacquired.trans (.of_reported hhooks s₀ (c.mirrors_refuseTransaction env _ e))
    | _ => exact hacquired
  · obtain ⟨exchange, hexchanged, hshows⟩ := shows_transactionOn hhooks hc hacquire plan
    have hletGo : Mirrors c.hooks (fun _ _ _ _ => True) env []
        (modify (·.letGo conn) : Run σ Unit) (modify (·.letGo conn)) (Quiet fun _ => False) :=
      .of_modify fun s h ms => State.letGo_recount h ms s conn
    refine ⟨exchange, hexchanged, hacquired.trans ?_⟩
    have hall := hshows.trans (.of_quiet hhooks _ hletGo)
    rwa [List.append_nil] at hall

end

end Client

/-! ## Reading data -/

theorem Client.exec_executeAs (c : Client) (read : Json.Reader α) (q : Query) (abort : Option ℕ)
    (env : Env σ) (s : State σ) :
    (c.executeAs read q abort).exec env s = (((c.execute q abort).exec env s).1.map (·.decode read),
      ((c.execute q abort).exec env s).2) := by
  unfold executeAs
  rw [exec_bind]
  rcases (c.execute q abort).exec env s with ⟨halt | r, s'⟩ <;> rfl

theorem Client.failuresShown_executeAs (c : Client) (read : Json.Reader α) (q : Query)
    (abort : Option ℕ) (env : Env σ) (s : State σ) :
    (c.executeAs read q abort).failuresShown env s = (c.execute q abort).failuresShown env s := by
  rw [failuresShown, exec_executeAs]
  rfl

/-- A reading brings up an error of its own exactly if there was none. -/
theorem responseErrors_decode_iff (read : Json.Reader α) (o : Except Halt (Response Json)) :
    responseErrors o = responseErrors (o.map (·.decode read)) ↔
      ∀ r, o = .ok r → r.error = none → (r.decode read).error = none := by
  cases o with
  | error halt =>
    refine ⟨fun _ r heq => (nomatch heq), fun _ => ?_⟩
    cases halt <;> rfl
  | ok r =>
    cases he : r.error with
    | some e =>
      have hdecode : r.decode read = .err e := by rw [Response.decode, he]
      refine ⟨fun _ r' heq hnone => ?_, fun _ => ?_⟩
      · obtain rfl := Except.ok.inj heq
        rw [he] at hnone
        cases hnone
      · show r.error.toList = (r.decode read).error.toList
        rw [he, hdecode]
        rfl
    | none =>
      show r.error.toList = (r.decode read).error.toList ↔ _
      rw [he]
      refine ⟨fun hnone r' heq _ => ?_, fun h => ?_⟩
      · obtain rfl := Except.ok.inj heq
        exact Option.toList_eq_nil_iff.1 hnone.symm
      · rw [h r rfl he]

/-- **The failures that hooks are shown.**  Of a query that is executed, of the opening of a stream
and of a transaction, hooks are shown the error that reaches the caller, exactly once, and no error
of an attempt after which there is another one; of the calls of a transaction they are shown that
before.  They are not shown that data cannot be read, and not the errors that a stream gives. -/
theorem failures_reported (c : Client) (hhooks : c.hooks ≠ []) (env : Env σ) (s : State σ) :
    (∀ q abort, ((c.execute q abort).failuresShown env s).map ErrorEvent.brief =
      (responseErrors ((c.execute q abort).exec env s).1).map (q.operation.name, ·)) ∧
    (∀ (read : Json.Reader α) q abort,
      (c.executeAs read q abort).failuresShown env s = (c.execute q abort).failuresShown env s ∧
      (((c.executeAs read q abort).failuresShown env s).map ErrorEvent.error =
          responseErrors ((c.executeAs read q abort).exec env s).1 ↔
        ∀ r, ((c.execute q abort).exec env s).1 = .ok r → r.error = none →
          (r.decode read).error = none)) ∧
    (∀ q abort turns leaving,
      ((c.streaming q abort turns leaving).failuresShown env s).map ErrorEvent.brief =
        (openingErrors ((c.streaming q abort turns leaving).exec env s).1).map
          (q.operation.name, ·) ∧
      (((c.streaming q abort turns leaving).failuresShown env s).map ErrorEvent.error =
          openingErrors ((c.streaming q abort turns leaving).exec env s).1 ++
            pollErrors ((c.streaming q abort turns leaving).exec env s).1 ↔
        pollErrors ((c.streaming q abort turns leaving).exec env s).1 = [])) ∧
    ∀ plan : Except String (Work σ α), ∃ exchange, c.Exchanged env s plan exchange ∧
      ((c.transact (Work.callback plan)).failuresShown env s).map ErrorEvent.brief =
        refusals exchange ++ (responseErrors
          ((c.transact (Work.callback plan)).exec env s).1).map ("transaction", ·) := by
  have hexecuted : ∀ q abort, ((c.execute q abort).failuresShown env s).map ErrorEvent.brief =
      (responseErrors ((c.execute q abort).exec env s).1).map (q.operation.name, ·) :=
    fun q abort => (Shows.of_reported hhooks s (c.mirrors_execute q abort env)).failuresShown
  refine ⟨hexecuted, fun read q abort => ?_, fun q abort turns leaving => ?_, fun plan => ?_⟩
  · refine ⟨c.failuresShown_executeAs read q abort env s, ?_⟩
    rw [c.failuresShown_executeAs, errors_of_brief (hexecuted q abort), c.exec_executeAs]
    exact responseErrors_decode_iff read _
  · obtain ⟨failures, hstreamed, hshows⟩ :=
      Shows.of_mirrors hhooks s (c.mirrors_streaming q abort turns leaving env)
    have hshown := hshows.failuresShown.trans (brief_of_streamed hstreamed)
    refine ⟨hshown, ?_⟩
    rw [errors_of_brief hshown, List.self_eq_append_right]
  · obtain ⟨exchange, hexchanged, hshows⟩ := c.shows_transact hhooks plan s
    exact ⟨exchange, hexchanged, hshows.failuresShown⟩

/-- A client with a hook that makes nothing of what it is shown. -/
def watched : Client := { hooks := [fun _ => {}] }

/-- No connection is to be had. -/
def drained : Script := { acquires := [.now (.error ⟨.connection "too many clients", []⟩)] }

theorem failures_reported_of_drained :
    watched.hooks ≠ [] ∧
      ((watched.execute allUsers none).failuresShown ⟨Script.source, []⟩
        { source := drained }).map ErrorEvent.brief =
          [("select", ⟨.connection "too many clients", []⟩)] := by
  have hhooks : watched.hooks ≠ [] := List.cons_ne_nil _ _
  have hreported := (@failures_reported Script Int watched hhooks ⟨Script.source, []⟩
    { source := drained }).1 allUsers none
  refine ⟨hhooks, hreported.trans ?_⟩
  decide +kernel

/-- A stream breaks after its first row, and a row is no integer. -/
def breaking : Script where
  streams := [.now (.ok [.now (.ok []), .now (.error ⟨.query "broken" none, []⟩)])]
  queries := [.now (.ok [[]])]

/-- A stream that is polled to its end. -/
def streamed : Run Script (Except Error (List Poll)) :=
  watched.streaming allUsers none [.poll, .poll, .poll] .closed

/-- Neither the error of a stream nor that of data that cannot be read is shown to a hook. -/
theorem failures_not_shown :
    (pollErrors (streamed.exec ⟨Script.source, []⟩ { source := breaking }).1 =
        [⟨.query "broken" none, []⟩] ∧
      (streamed.failuresShown ⟨Script.source, []⟩ { source := breaking }).map ErrorEvent.brief =
        []) ∧
    (responseErrors ((watched.executeAs Json.Reader.int64 allUsers none).exec ⟨Script.source, []⟩
        { source := breaking }).1).map Error.code = [.decode] ∧
      ((watched.executeAs Json.Reader.int64 allUsers none).failuresShown ⟨Script.source, []⟩
        { source := breaking }).map ErrorEvent.brief = [] := by
  decide +kernel

end QueryClient.Session
