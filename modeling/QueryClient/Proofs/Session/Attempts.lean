/-
  How a query is executed, attempt by attempt.

  * `Counting` and `Running`: the statements of one attempt, of which the counting one does not
    matter to the data;
  * `Attempting`: a connection is come by and used; `Retrying`: there are attempts and delays;
  * `Executing`: the whole call;
  * `Client.acts_execute`: a call that executes a query does just that.
-/
import QueryClient.Proofs.Session.Connection
import QueryClient.Session.Execute

namespace QueryClient

/-- The request that sends a statement. -/
def Statement.request (s : Statement) (kind : Session.StatementKind) (conn : ℕ) : Session.Request :=
  .statement kind conn s.text s.values

namespace Session

/-- How the statement of a query is sent: for the number of rows it changes, or for rows. -/
def Client.statementKind (q : Query) : StatementKind :=
  if q.operation.isMutation && q.returning.isNone then .execute else .query

open Run

variable {σ : Type}

/-! ## What answers mean -/

/-- The data that is given back for what came of the statement of a query. -/
def dataOf (q : Query) : Yield → Except Error (Option Json)
  | .rows rows => q.shape.fit rows
  | _ => .ok none

/-- The number of rows as far as it needs no counting. -/
def tallyOf (q : Query) : Yield → Option Int
  | .affected n => q.count.map fun _ => countOf n
  | .rows rows => q.count.map fun _ => countOf rows.length
  | _ => none

/-! ## One attempt -/

/-- How the rows of a query are counted.  Whatever goes wrong is no failure. -/
inductive Counting (c : Client) (conn : ℕ) (q : Query) (abort : Option ℕ) (mode : CountMode)
    (m : ℕ) : Account (Option Int)
  | uncompiled {e} : Statement.compileCount c.config.safety q mode = .error e →
    Counting c conn q abort mode m (.ok none) [] m
  | counted {statement rows ds m'} :
    Statement.compileCount c.config.safety q mode = .ok statement →
    Exchange conn abort (statement.request .query conn) m (.ok (.rows rows)) ds m' →
    Counting c conn q abort mode m (.ok (rows.head?.bind mode.read)) ds m'
  | failed {statement e ds m'} : Statement.compileCount c.config.safety q mode = .ok statement →
    Exchange conn abort (statement.request .query conn) m (.error (.failed e)) ds m' →
    Counting c conn q abort mode m (.ok none) ds m'
  | givenUp {statement halt ds m'} :
    Statement.compileCount c.config.safety q mode = .ok statement → (∀ e, halt ≠ .failed e) →
    Exchange conn abort (statement.request .query conn) m (.error halt) ds m' →
    Counting c conn q abort mode m (.error halt) ds m'

/-- How the statements of a query are sent. -/
inductive Running (c : Client) (conn : ℕ) (q : Query) (statement : Statement)
    (abort : Option ℕ) (m : ℕ) : Account Outcome
  | unanswered {halt ds m'} :
    Exchange conn abort (statement.request (Client.statementKind q) conn) m (.error halt) ds m' →
    Running c conn q statement abort m (.error halt) ds m'
  | misfit {y e ds m'} :
    Exchange conn abort (statement.request (Client.statementKind q) conn) m (.ok y) ds m' →
    dataOf q y = .error e → Running c conn q statement abort m (.error (.failed e)) ds m'
  | fitted {y data ds m'} :
    Exchange conn abort (statement.request (Client.statementKind q) conn) m (.ok y) ds m' →
    dataOf q y = .ok data → q.count = none ∨ q.operation.isMutation →
    Running c conn q statement abort m (.ok (data, tallyOf q y)) ds m'
  | counted {y data mode ds m₁ o ds' m'} :
    Exchange conn abort (statement.request (Client.statementKind q) conn) m (.ok y) ds m₁ →
    dataOf q y = .ok data → q.count = some mode → q.operation.isMutation = false →
    Counting c conn q abort mode m₁ o ds' m' →
    Running c conn q statement abort m (o.map (data, ·)) (ds ++ ds') m'

/-- What an attempt does on its connection. -/
inductive Working (c : Client) (conn : ℕ) (q : Query) (statement : Statement)
    (abort : Option ℕ) (m : ℕ) : Account Outcome
  | unlimited {halt ds m'} : Limiting c conn m (.error halt) ds m' →
    Working c conn q statement abort m (.error halt) ds m'
  | limited {ds m₁ o ds' m'} : Limiting c conn m (.ok ()) ds m₁ →
    Running c conn q statement abort m₁ o ds' m' →
    Working c conn q statement abort m o (ds ++ ds') m'

/-- An attempt that comes to its end has set the limit and run its statement. -/
theorem Working.of_ended {c : Client} {conn m m' : ℕ} {q : Query} {statement : Statement}
    {abort : Option ℕ} {o : Except Error Outcome} {ds : List Deed}
    (h : Working c conn q statement abort m (o.mapError .failed) ds m') :
    ∃ ds₁ m₁ ds₂, ds = ds₁ ++ ds₂ ∧ Limiting c conn m (.ok ()) ds₁ m₁ ∧
      Running c conn q statement abort m₁ (o.mapError .failed) ds₂ m' := by
  generalize ho : o.mapError Halt.failed = o' at h
  cases h with
  | unlimited hlimiting =>
    cases hlimiting with | givenUp _ hgiven =>
    exact absurd ho (mapError_failed_ne hgiven)
  | limited hlimiting hrunning => exact ⟨_, _, _, rfl, hlimiting, hrunning⟩

/-- How an attempt is made. -/
inductive Attempting (c : Client) (q : Query) (statement : Statement) (abort : Option ℕ)
    (m : ℕ) : Account Outcome
  | unconnected {halt ds m'} : Connecting c abort m (.error halt) ds m' →
    Attempting c q statement abort m (.error halt) ds m'
  | connected {conn ds m₁ o ds' m'} : Connecting c abort m (.ok conn) ds m₁ →
    (c.lease conn !c.inTransaction).Using (Working c conn q statement abort m₁) o ds' m' →
    Attempting c q statement abort m o (ds ++ ds') m'

/-! ## All attempts -/

/-- How a delay is waited for by a caller who may abort. -/
inductive Delaying (delay : Duration) (abort : Option ℕ) (m : ℕ) : Account Unit
  | past : (∀ t ∈ abort, m < t ∧ m + delay.nanos ≤ t) →
    Delaying delay abort m (.ok ()) [] (m + delay.nanos)
  | stopped {t m'} : abort = some t → m ≤ m' → t ≤ m' →
    Delaying delay abort m (.error (.failed (.aborted "aborted during retry backoff"))) [] m'
  | givenUp {halt m'} : halt.givenUp → halt ≠ .stuck → m ≤ m' →
    Delaying delay abort m (.error halt) [] m'

/-- How attempts follow each other, where some are left and the next one has a number. -/
inductive Retrying (c : Client) (q : Query) (statement : Statement) (abort : Option ℕ) :
    ℕ → ℕ → ℕ → Account Outcome
  | last {number m o ds m'} : Attempting c q statement abort m o ds m' →
    Retrying c q statement abort 0 number m o ds m'
  | done {left number m o ds m'} : Attempting c q statement abort m o ds m' →
    (∀ e, o = .error (.failed e) → e.isRetriable = false) →
    Retrying c q statement abort (left + 1) number m o ds m'
  | again {left number m e ds m₁ m₂ o ds' m'} :
    Attempting c q statement abort m (.error (.failed e)) ds m₁ → e.isRetriable →
    Delaying (c.config.retry.delayFor number) abort m₁ (.ok ()) [] m₂ →
    Retrying c q statement abort left (number + 1) m₂ o ds' m' →
    Retrying c q statement abort (left + 1) number m o (ds ++ ds') m'
  /-- The delay does not come to its end. -/
  | undelayed {left number m e ds m₁ halt m'} :
    Attempting c q statement abort m (.error (.failed e)) ds m₁ → e.isRetriable →
    Delaying (c.config.retry.delayFor number) abort m₁ (.error halt) [] m' →
    Retrying c q statement abort (left + 1) number m (.error halt) ds m'

/-- The response for what came of the attempts. -/
def responseOf : Except Error Outcome → Response Json
  | .ok (data, count) => .ok data count
  | .error e => .err e

/-- An error comes with neither data nor a count. -/
theorem bare_responseOf {o : Except Error Outcome} {e : Error} (h : (responseOf o).error = some e) :
    (responseOf o).data = none ∧ (responseOf o).count = none := by
  cases o with
  | ok _ => cases h
  | error _ => exact ⟨rfl, rfl⟩

/-- How a query is executed. -/
inductive Executing (c : Client) (q : Query) (abort : Option ℕ) (m : ℕ) :
    Account (Response Json)
  /-- The caller has aborted before. -/
  | late {t} : abort = some t → t ≤ m →
    Executing c q abort m (.ok (.err (.aborted "query aborted before execution"))) [] m
  | uncompiled {e} : (∀ t ∈ abort, m < t) → Statement.compile c.config.safety q = .error e →
    Executing c q abort m (.ok (.err e)) [] m
  | tried {statement ds m'} {o : Except Error Outcome} : (∀ t ∈ abort, m < t) →
    Statement.compile c.config.safety q = .ok statement →
    Retrying c q statement abort (c.maxAttempts - 1) 1 m (o.mapError .failed) ds m' →
    Executing c q abort m (.ok (responseOf o)) ds m'
  | givenUp {statement halt ds m'} : (∀ t ∈ abort, m < t) →
    Statement.compile c.config.safety q = .ok statement → (∀ e, halt ≠ .failed e) →
    Retrying c q statement abort (c.maxAttempts - 1) 1 m (.error halt) ds m' →
    Executing c q abort m (.error halt) ds m'

/-! ## What runs do -/

namespace Client

variable {env : Env σ} {c : Client} {conn m : ℕ} {abort : Option ℕ}

theorem acts_notify (e : HookEvent) : Acts env m (c.notify e : Run σ Unit) (Still m) := by
  have hforM : ∀ (ts : List Trace), Acts env m (ts.forM Run.trace : Run σ Unit) (Still m) := by
    intro ts
    induction ts with
    | nil => exact .pure ⟨⟨(), rfl⟩, rfl, rfl⟩
    | cons t rest ih => exact (acts_trace t).still_bind fun _ => ih
  unfold notify
  split
  · exact .pure ⟨⟨(), rfl⟩, rfl, rfl⟩
  · exact (acts_log rfl).still_bind fun _ => hforM _

theorem acts_refuse {α : Type} (operation : String) (sql : Option String) (e : Error) :
    Acts env m (c.refuse operation sql e : Run σ (Response α)) fun o ds m' =>
      o = .ok (.err e) ∧ ds = [] ∧ m' = m :=
  (acts_notify _).still_bind fun _ => .pure ⟨rfl, rfl, rfl⟩

theorem acts_count (q : Query) (mode : CountMode) :
    Acts env m (c.count conn q abort mode : Run σ (Option Int))
      (Counting c conn q abort mode m) := by
  unfold count
  split
  · next e he => exact (acts_trace _).still_bind fun _ => .pure (.uncompiled he)
  · next statement hs =>
    refine (acts_notify _).still_bind fun _ => ?_
    refine (acts_query _ _).attempt_bind (fun o ds m' h => ?_) fun halt ds m' hfailed h =>
      .givenUp hs hfailed h
    rcases o with e | _ | ⟨row, rest⟩
    · refine (acts_trace _).still_bind fun _ => .pure ?_
      rw [List.append_nil]
      exact .failed hs h
    · refine .pure ?_
      rw [List.append_nil]
      exact .counted hs h
    · dsimp only
      split
      · refine (acts_trace _).still_bind fun _ => .pure ?_
        rw [List.append_nil]
        exact .counted hs h
      · refine .pure ?_
        rw [List.append_nil]
        exact .counted hs h

theorem acts_run (q : Query) (statement : Statement) :
    Acts env m (c.run conn q statement abort : Run σ Outcome)
      (Running c conn q statement abort m) := by
  unfold run
  refine (acts_notify _).still_bind fun _ => ?_
  split
  · next hexecute =>
    have hkind : statementKind q = .execute := if_pos hexecute
    have hmutation : q.operation.isMutation := (Bool.and_eq_true _ _ ▸ hexecute).1
    refine (acts_execute _ _).bind (fun n ds m' h => .pure ?_) fun halt ds m' h => ?_
    · rw [List.append_nil]
      exact .fitted (y := .affected n) (hkind.symm ▸ h) rfl (Or.inr hmutation)
    · exact .unanswered (hkind.symm ▸ h)
  · next hquery =>
    have hkind : statementKind q = .query := if_neg hquery
    refine (acts_query _ _).bind (fun rows ds m₁ h => ?_) fun halt ds m' h => ?_
    · replace h : Exchange conn abort (statement.request (statementKind q) conn) m
          (.ok (.rows rows)) ds m₁ := hkind.symm ▸ h
      have hfit : dataOf q (.rows rows) = q.shape.fit rows := rfl
      cases hdata : q.shape.fit rows with
      | error e =>
        refine .throw trivial ?_
        rw [List.append_nil]
        exact .misfit h (hfit.trans hdata)
      | ok data =>
        have hok : Acts env m₁ (Run.ofExcept (.ok data) : Run σ (Option Json))
            fun o ds m' => o = .ok data ∧ ds = [] ∧ m' = m₁ := .pure ⟨rfl, rfl, rfl⟩
        refine hok.bind (fun _ ds' m₂ h' => ?_) fun _ _ _ h' => nomatch h'.1
        obtain ⟨he, rfl, rfl⟩ := h'
        cases he
        simp only [List.nil_append]
        split
        · next hcount =>
          refine .pure ?_
          rw [List.append_nil]
          have hfitted := Running.fitted (c := c) h (hfit.trans hdata) (Or.inl hcount)
          rwa [tallyOf, hcount] at hfitted
        · next mode hcount =>
          split
          · next hmutation =>
            refine .pure ?_
            rw [List.append_nil]
            have hfitted := Running.fitted (c := c) h (hfit.trans hdata) (Or.inr hmutation)
            rwa [tallyOf, hcount] at hfitted
          · next hmutation =>
            refine (acts_count q mode).bind (fun n ds' m' h' => .pure ?_) fun halt ds' m' h' => ?_
            · rw [List.append_nil]
              exact .counted h (hfit.trans hdata) hcount (Bool.eq_false_iff.2 hmutation) h'
            · exact .counted h (hfit.trans hdata) hcount (Bool.eq_false_iff.2 hmutation) h'
    · exact .unanswered (hkind.symm ▸ h)

theorem acts_work (q : Query) (statement : Statement) :
    Acts env m (do
      c.applyLimit conn
      c.run conn q statement abort : Run σ Outcome) (Working c conn q statement abort m) :=
  acts_applyLimit.bind (fun _ _ _ h => (acts_run q statement).mono fun _ _ _ h' => .limited h h')
    fun _ _ _ h => .unlimited h

theorem acts_attempt (q : Query) (statement : Statement) :
    Acts env m (c.attempt q statement abort : Run σ Outcome)
      (Attempting c q statement abort m) := by
  unfold attempt
  refine acts_connection.bind (fun conn ds m₁ h => ?_) fun halt ds m' h => .unconnected h
  exact (Lease.acts_use (acts_work q statement)).mono fun _ _ _ h' => .connected h h'

theorem acts_backOff (delay : Duration) :
    Acts env m (backOff delay abort : Run σ Unit) fun o ds m' =>
      ds = [] ∧ Delaying delay abort m o [] m' := by
  have hask : Acts env m (pure ⟨some delay.nanos, .ok ()⟩ : Run σ (Answer Unit)) fun o ds m' =>
      ∃ a, o = .ok a ∧ (a = ⟨some delay.nanos, .ok ()⟩ ∧ ds = []) ∧ m' = m :=
    .pure ⟨_, rfl, ⟨rfl, rfl⟩, rfl⟩
  refine acts_race (fun a ds => a = ⟨some delay.nanos, .ok ()⟩ ∧ ds = []) hask
    (fun o ds m₁ h => ?_) (fun ds m₁ h => ?_) fun halt ds m₁ h => ?_
  · cases h with | answered hasks hearly hw =>
    obtain ⟨rfl, rfl⟩ := hasks
    cases hw
    exact .pure ⟨rfl, .past hearly⟩
  · cases h with
    | late ht hle => exact .throw trivial ⟨rfl, .stopped ht (Nat.le_refl _) hle⟩
    | stopped hasks ht hlt _ =>
      obtain ⟨rfl, rfl⟩ := hasks
      exact .throw trivial ⟨rfl, .stopped ht hlt.le (Nat.le_refl _)⟩
  · cases h with | givenUp hasks hgiven hle _ hcomes =>
    obtain ⟨rfl, rfl⟩ := hasks
    exact ⟨rfl, .givenUp hgiven (hcomes _ rfl).1 hle⟩

theorem acts_retry (q : Query) (statement : Statement) (left number : ℕ) :
    Acts env m (c.retry q statement abort left number : Run σ Outcome)
      (Retrying c q statement abort left number m) := by
  induction left generalizing m number with
  | zero => exact (acts_attempt q statement).mono fun _ _ _ h => .last h
  | succ left ih =>
    unfold retry
    refine (acts_attempt q statement).attempt_bind (fun o ds m₁ h => ?_)
      fun halt ds m' hfailed h => .done h fun e he => absurd (Except.error.inj he) (hfailed e)
    cases o with
    | ok outcome =>
      refine .pure ?_
      rw [List.append_nil]
      exact .done h fun e he => nomatch he
    | error e =>
      by_cases hretriable : e.isRetriable
      · simp only [hretriable, if_true]
        refine (acts_trace _).still_bind fun _ => ?_
        refine (acts_backOff _).bind (fun _ ds' m₂ h' => ?_) fun halt ds' m' h' => ?_
        · obtain ⟨rfl, hover⟩ := h'
          exact (ih _).mono fun _ _ _ h'' => .again h hretriable hover h''
        · obtain ⟨rfl, hstopped⟩ := h'
          rw [List.append_nil]
          exact .undelayed h hretriable hstopped
      · simp only [hretriable]
        refine .throw trivial ?_
        rw [List.append_nil]
        refine .done h fun e' he' => ?_
        cases he'
        exact Bool.eq_false_iff.2 hretriable

/-- **What a call does that executes a query.** -/
theorem acts_execute (q : Query) :
    Acts env m (c.execute q abort : Run σ (Response Json)) (Executing c q abort m) := by
  unfold execute
  refine .aborted_bind (fun t ht hle => ?_) fun hearly => ?_
  · refine (acts_refuse _ _ _).mono fun o ds m' h => ?_
    obtain ⟨rfl, rfl, rfl⟩ := h
    exact .late ht hle
  · rw [if_neg Bool.false_ne_true]
    split
    · next e he =>
      refine (acts_refuse _ _ _).mono fun o ds m' h => ?_
      obtain ⟨rfl, rfl, rfl⟩ := h
      exact .uncompiled hearly he
    · next statement hs =>
      refine (acts_retry q statement _ _).attempt_bind (fun o ds m' h => ?_)
        fun halt ds m' hfailed h => .givenUp hearly hs hfailed h
      cases o with
      | ok outcome =>
        refine .pure ?_
        rw [List.append_nil]
        exact .tried hearly hs h
      | error e =>
        refine (acts_refuse _ _ _).mono fun o ds' m'' h' => ?_
        obtain ⟨rfl, rfl, rfl⟩ := h'
        rw [List.append_nil]
        exact .tried hearly hs h

end Client

end Session

end QueryClient
