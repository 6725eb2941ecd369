/-
  Queries with and without a count.

  A query that asks for a count is executed as the one that does not, up to the point at which its
  rows are there; then they are counted.  Whatever comes of that, the data and the error are the
  same.

  * `Alongside`: how attempts at a query that asks for a count compare to those at the one that does
    not;
  * `count_changes_nothing`: what a call comes to with a count and without.
-/
import QueryClient.Proofs.Session.Requests
import QueryClient.Proofs.Session.Retries

namespace QueryClient.Session

open Run

variable {σ α : Type} {env : Env σ} {c : Client} {q : Query} {mode : CountMode}
  {abort : Option ℕ} {statement : Statement} {conn m m' : ℕ} {s s' : State σ}

/-! ## Counting -/

/-- The rows of a query are there, and are counted. -/
def Client.countAfter (c : Client) (conn : ℕ) (q : Query) (abort : Option ℕ) (mode : CountMode)
    (data : Option Json) : Run σ Outcome := do
  return (data, ← c.count conn q abort mode)

/-- Whether the rows of a query are there, and how it goes on with a count: those that a mutation
changed are known, and the others are counted. -/
inductive Reads (env : Env σ) (c : Client) (q : Query) (mode : CountMode) (abort : Option ℕ)
    (conn : ℕ) : Except Halt Outcome × State σ → Except Halt Outcome × State σ → Prop
  | halted {halt s'} : Reads env c q mode abort conn (.error halt, s') (.error halt, s')
  | known {data n s'} : q.operation.isMutation →
    Reads env c q mode abort conn (.ok (data, n), s') (.ok (data, none), s')
  | counted {data s'} : q.operation.isMutation = false →
    Reads env c q mode abort conn
      ((c.countAfter conn { q with count := some mode } abort mode data).exec env s')
      (.ok (data, none), s')

theorem reads_run (statement : Statement) (conn : ℕ) (s : State σ) : Reads env c q mode abort conn
    ((c.run conn { q with count := some mode } statement abort).exec env s)
    ((c.run conn { q with count := none } statement abort).exec env s) := by
  unfold Client.run
  rw [exec_bind, exec_bind]
  rcases (c.showStatement q.operation.name statement.text statement.values : Run σ Unit).exec env s
    with ⟨halt | u, s₁⟩
  · exact .halted
  · dsimp only
    split
    · next hexecute =>
      have hmutation : q.operation.isMutation := (Bool.and_eq_true _ _ ▸ hexecute).1
      rw [exec_bind, exec_bind]
      rcases (interruptible conn abort (Session.execute conn statement.text statement.values) :
        Run σ ℕ).exec env s₁ with ⟨halt | n, s₂⟩
      · exact .halted
      · exact .known hmutation
    · rw [exec_bind, exec_bind]
      rcases (interruptible conn abort (query conn statement.text statement.values) :
        Run σ (List Row)).exec env s₁ with ⟨halt | rows, s₂⟩
      · exact .halted
      · dsimp only
        rw [exec_bind, exec_bind]
        rcases (Run.ofExcept (q.shape.fit rows) : Run σ (Option Json)).exec env s₂ with
          ⟨halt | data, s₃⟩
        · exact .halted
        · dsimp only
          split
          · next hmutation => exact .known hmutation
          · next hmutation => exact .counted (Bool.eq_false_iff.2 hmutation)

/-- What an attempt does on its connection. -/
def Client.work (c : Client) (conn : ℕ) (q : Query) (statement : Statement) (abort : Option ℕ) :
    Run σ Outcome := do
  c.applyLimit conn
  c.run conn q statement abort

theorem reads_work (statement : Statement) (conn : ℕ) (s : State σ) : Reads env c q mode abort conn
    ((c.work conn { q with count := some mode } statement abort).exec env s)
    ((c.work conn { q with count := none } statement abort).exec env s) := by
  unfold Client.work
  rw [exec_bind, exec_bind]
  rcases (c.applyLimit conn : Run σ Unit).exec env s with ⟨halt | u, s₁⟩
  · exact .halted
  · exact reads_run statement conn s₁

/-! ## Leases -/

namespace Lease

variable {l : Lease} {body body' : Run σ α}

theorem exec_use_congr (h : body.exec env s = body'.exec env s') :
    (l.use body).exec env s = (l.use body').exec env s' := by
  unfold use Run.onHalt
  rw [exec_bind, exec_bind, exec_tryCatch, exec_tryCatch, exec_attempt, exec_attempt, h]

theorem exec_use_pure (a : α) : (l.use (pure a)).exec env s =
    match (l.release false : Run σ Unit).exec env s with
    | (.ok _, s') => (.ok a, s')
    | (.error halt, s') => (.error halt, s') := by
  have hdone : ((Run.attempt (pure a : Run σ α)).onHalt l.discard).exec env s =
      (.ok (.ok a), s) := rfl
  unfold use
  rw [exec_bind, hdone]
  dsimp only
  rw [exec_bind]
  rcases (l.release false : Run σ Unit).exec env s with ⟨halt | u, s'⟩ <;> rfl

/-- A lease ends, but not with an error, if what is done under it does not. -/
theorem use_not_failed {B : ℕ → Account α} (h : ∀ m, Acts env m body (B m))
    (hB : ∀ m e ds m', ¬ B m (.error (.failed e)) ds m') (s : State σ) (e : Error) :
    ((l.use body).exec env s).1 ≠ .error (.failed e) := by
  intro he
  obtain ⟨ds, entries, -, husing⟩ := (l.acts_use (h s.now)).passes s rfl
  rw [he] at husing
  obtain ⟨_, _, _, -, hbody, -⟩ := Using.of_ended (o := .error e) husing
  exact hB _ _ _ _ hbody

end Lease

/-! ## Attempts -/

/-- The last request is the statement of a query, which has succeeded by a moment. -/
def Succeeds (statement : Statement) (conn t : ℕ) (is : List Inquiry) : Prop :=
  ∃ front i y, is = front ++ [i] ∧ i.request = statement.request .query conn ∧ i.AnsweredBy t ∧
    i.answer.result = .ok y

/-- How attempts at a query that asks for a count compare to those at the one that does not. -/
inductive Alongside (env : Env σ) (c : Client) (q : Query) (mode : CountMode) (abort : Option ℕ)
    (statement : Statement) (s : State σ) :
    Except Halt Outcome × State σ → Except Halt Outcome × State σ → Prop
  /-- The same happens. -/
  | alike {o₁ o₂ s'} : o₁.map Prod.fst = o₂.map Prod.fst →
    Alongside env c q mode abort statement s (o₁, s') (o₂, s')
  /-- The statement of the query has succeeded, and the rows are counted. -/
  | counted {conn data entries s₁} : q.operation.isMutation = false →
    Chronicles env.source s entries s₁ → Succeeds statement conn s₁.now (inquiries entries) →
    Alongside env c q mode abort statement s
      (((c.lease conn !c.inTransaction).use
        (c.countAfter conn { q with count := some mode } abort mode data)).exec env s₁)
      (((c.lease conn !c.inTransaction).use (pure (data, none))).exec env s₁)

theorem Alongside.same (r : Except Halt Outcome × State σ) :
    Alongside env c q mode abort statement s r r := by
  obtain ⟨o, s'⟩ := r
  exact .alike rfl

theorem Succeeds.after {t : ℕ} {is : List Inquiry} (h : Succeeds statement conn t is)
    (before : List Inquiry) : Succeeds statement conn t (before ++ is) := by
  obtain ⟨front, i, y, rfl, hi⟩ := h
  exact ⟨before ++ front, i, y, by rw [List.append_assoc], hi⟩

/-- What has happened before makes no difference. -/
theorem Alongside.after {r₁ r₂ : Except Halt Outcome × State σ} {before : List Entry}
    (h : Alongside env c q mode abort statement s' r₁ r₂)
    (hbefore : Chronicles env.source s before s') :
    Alongside env c q mode abort statement s r₁ r₂ := by
  cases h with
  | alike ho => exact .alike ho
  | counted hmutation hchronicles hsucceeds =>
    refine .counted hmutation (hbefore.append hchronicles) ?_
    rw [inquiries_append]
    exact hsucceeds.after _

/-- A statement that succeeds is asked for once, and its answer is waited for. -/
theorem Exchange.of_ok {r : Request} {y : Yield} {ds : List Deed}
    (h : Exchange conn abort r m (.ok y) ds m') :
    ∃ a w, ds = [.asked m r a] ∧ a.wait = some w ∧ m' = m + w ∧ a.result = .ok y := by
  generalize ho : (.ok y : Except Halt Yield) = o at h
  cases h with
  | answered hraced =>
    cases hraced with | answered hasks _ hw =>
    subst hasks
    exact ⟨_, _, rfl, hw, rfl, (mapError_failed_inj (o := .ok y) ho).symm⟩
  | stopped _ _ | halted _ _ | givenUp _ => cases ho

/-- Without a count, the statement of a query that reads is all that is asked for. -/
theorem Running.succeeds {data : Option Json} {n : Option Int} {ds : List Deed}
    (hcount : q.count = none) (hmutation : q.operation.isMutation = false)
    (h : Running c conn q statement abort m (.ok (data, n)) ds m') :
    Succeeds statement conn m' (ds.filterMap Deed.inquiry?) := by
  have hkind : Client.statementKind q = .query := by simp [Client.statementKind, hmutation]
  generalize ho : (.ok (data, n) : Except Halt Outcome) = o at h
  cases h with
  | unanswered _ | misfit _ _ => cases ho
  | fitted hexchange _ _ =>
    obtain ⟨a, w, rfl, hw, rfl, hresult⟩ := hexchange.of_ok
    refine ⟨[], ⟨m, statement.request (Client.statementKind q) conn, a⟩, _,
      List.filterMap_cons_some (inquiry?_request a), ?_, ⟨w, hw, Nat.le_refl _⟩, hresult⟩
    rw [hkind]
  | counted _ _ hmode _ _ =>
    rw [hcount] at hmode
    cases hmode

theorem Working.succeeds {data : Option Json} {n : Option Int} {ds : List Deed}
    (hcount : q.count = none) (hmutation : q.operation.isMutation = false)
    (h : Working c conn q statement abort m (.ok (data, n)) ds m') :
    Succeeds statement conn m' (ds.filterMap Deed.inquiry?) := by
  generalize ho : (.ok (data, n) : Except Halt Outcome) = o at h
  cases h with
  | unlimited _ => cases ho
  | limited _ hrunning =>
    subst ho
    rw [List.filterMap_append]
    exact (hrunning.succeeds hcount hmutation).after _

theorem alongside_use (statement : Statement) (conn : ℕ) (s : State σ) :
    Alongside env c q mode abort statement s
      (((c.lease conn !c.inTransaction).use
        (c.work conn { q with count := some mode } statement abort)).exec env s)
      (((c.lease conn !c.inTransaction).use
        (c.work conn { q with count := none } statement abort)).exec env s) := by
  have hreads : Reads env c q mode abort conn _ _ := reads_work statement conn s
  have hacts : Acts env s.now (c.work conn { q with count := none } statement abort) _ :=
    Client.acts_work _ statement
  obtain ⟨ds, xs, hpassage, hworking⟩ := hacts.passes s rfl
  generalize h₁ : (c.work conn { q with count := some mode } statement abort).exec env s = r₁
    at hreads
  generalize h₂ : (c.work conn { q with count := none } statement abort).exec env s = r₂
    at hreads hpassage hworking
  cases hreads with
  | halted =>
    rw [Lease.exec_use_congr (h₁.trans h₂.symm)]
    exact .same _
  | @known data n s₁ hmutation =>
    have hpure : ∀ n, (pure (data, n) : Run σ Outcome).exec env s₁ = (.ok (data, n), s₁) :=
      fun _ => rfl
    rw [Lease.exec_use_congr (h₁.trans (hpure n).symm),
      Lease.exec_use_congr (h₂.trans (hpure none).symm), Lease.exec_use_pure, Lease.exec_use_pure]
    rcases ((c.lease conn !c.inTransaction).release false : Run σ Unit).exec env s₁ with
      ⟨halt | u, s₂⟩
    · exact .alike rfl
    · exact .alike rfl
  | @counted data s₁ hmutation =>
    have hpure : (pure (data, none) : Run σ Outcome).exec env s₁ = (.ok (data, none), s₁) := rfl
    rw [Lease.exec_use_congr h₁, Lease.exec_use_congr (h₂.trans hpure.symm)]
    refine .counted hmutation hpassage.chronicles ?_
    have hsucceeds := Working.succeeds (q := { q with count := none }) rfl hmutation hworking
    rwa [← hpassage.inquiries] at hsucceeds

/-- **One attempt** with a count and without. -/
theorem alongside_attempt (statement : Statement) (s : State σ) :
    Alongside env c q mode abort statement s
      ((c.attempt { q with count := some mode } statement abort).exec env s)
      ((c.attempt { q with count := none } statement abort).exec env s) := by
  have hacts : Acts env s.now (c.connection abort) _ := Client.acts_connection
  obtain ⟨ds, xs, hpassage, -⟩ := hacts.passes s rfl
  unfold Client.attempt
  rw [exec_bind, exec_bind]
  rcases hconnection : (c.connection abort : Run σ ℕ).exec env s with ⟨halt | conn, s₁⟩
  · exact .alike rfl
  · rw [hconnection] at hpassage
    exact (alongside_use statement conn s₁).after hpassage.chronicles

/-! ## The counting statement -/

theorem Client.acts_countAfter {data : Option Json} :
    Acts env m (c.countAfter conn q abort mode data : Run σ Outcome) fun o ds m' =>
      ∃ o', Counting c conn q abort mode m o' ds m' ∧ o = o'.map (data, ·) := by
  refine (Client.acts_count q mode).bind (fun n ds m' h => .pure ?_) fun halt ds m' h =>
    ⟨_, h, rfl⟩
  rw [List.append_nil]
  exact ⟨_, h, rfl⟩

theorem Counting.not_failed {e : Error} {ds : List Deed} :
    ¬ Counting c conn q abort mode m (.error (.failed e)) ds m' := by
  intro h
  cases h with | givenUp _ hfailed _ => exact hfailed e rfl

/-- A statement is sent once at most. -/
theorem Exchange.asks_once {r : Request} {o : Except Halt Yield} {ds : List Deed}
    (hr : r.isStep = false) (h : Exchange conn abort r m o ds m') :
    ds.filterMap Deed.inquiry? = [] ∨ ∃ a, ds.filterMap Deed.inquiry? = [⟨m, r, a⟩] := by
  have hraced : ∀ {o ds m'}, Raced abort (fun a ds => ds = [.asked m r a]) m o ds m' →
      ds.filterMap Deed.inquiry? = [] ∨ ∃ a, ds.filterMap Deed.inquiry? = [⟨m, r, a⟩] := by
    intro o ds m' h
    have hinquiry : ∀ a, Deed.inquiry? (.asked m r a) = some ⟨m, r, a⟩ := fun a => by
      rw [Deed.inquiry?, hr]
      rfl
    obtain ⟨-, rfl | ⟨a, rfl⟩⟩ := h.asked_once
    · exact Or.inl rfl
    · exact Or.inr ⟨a, List.filterMap_cons_some (hinquiry a)⟩
  cases h with
  | answered h | givenUp h => exact hraced h
  | stopped h hcleaning | halted h hcleaning =>
    rw [List.filterMap_append, hcleaning.inquiries, List.append_nil]
    exact hraced h

/-- Rows are counted by one statement at most. -/
theorem Counting.asks_once {o : Except Halt (Option Int)} {ds : List Deed}
    (h : Counting c conn q abort mode m o ds m') :
    ds.filterMap Deed.inquiry? = [] ∨ ∃ counting a,
      Statement.compileCount c.config.safety q mode = .ok counting ∧
      ds.filterMap Deed.inquiry? = [⟨m, counting.request .query conn, a⟩] := by
  cases h with
  | uncompiled _ => exact Or.inl rfl
  | counted hs hexchange | failed hs hexchange | givenUp hs _ hexchange =>
    exact (hexchange.asks_once rfl).imp id fun ⟨a, ha⟩ => ⟨_, a, hs, ha⟩

/-- Whatever comes of counting, it is no error of the query. -/
theorem countAfter_not_failed {l : Lease} {data : Option Json} (s : State σ) (e : Error) :
    ((l.use (c.countAfter conn q abort mode data)).exec env s).1 ≠ .error (.failed e) := by
  refine Lease.use_not_failed (fun m => Client.acts_countAfter) ?_ s e
  rintro m e ds m' ⟨o, hcounting, ho⟩
  cases o <;> cases ho
  exact hcounting.not_failed

theorem pure_not_failed {l : Lease} (a : α) (s : State σ) (e : Error) :
    ((l.use (pure a)).exec env s).1 ≠ .error (.failed e) := by
  have hpure : ∀ m, Acts env m (pure a : Run σ α) fun o _ _ => o = .ok a := fun m => .pure rfl
  refine Lease.use_not_failed hpure ?_ s e
  intro m e ds m' ho
  cases ho

/-! ## All attempts -/

/-- **All attempts** with a count and without. -/
theorem alongside_retry (statement : Statement) (left number : ℕ) (s : State σ) :
    Alongside env c q mode abort statement s
      ((c.retry { q with count := some mode } statement abort left number).exec env s)
      ((c.retry { q with count := none } statement abort left number).exec env s) := by
  induction left generalizing number s with
  | zero => exact alongside_attempt statement s
  | succ left ih =>
    have hattempts : Alongside env c q mode abort statement s _ _ := alongside_attempt statement s
    have hacts : Acts env s.now (c.attempt { q with count := none } statement abort) _ :=
      Client.acts_attempt _ statement
    obtain ⟨ds, xs, hpassage, -⟩ := hacts.passes s rfl
    generalize h₁ : (c.attempt { q with count := some mode } statement abort).exec env s = r₁
      at hattempts
    generalize h₂ : (c.attempt { q with count := none } statement abort).exec env s = r₂
      at hattempts hpassage
    cases hattempts with
    | @alike o₁ o₂ s' ho =>
      by_cases hpassing : ∃ e, o₂ = .error (.failed e) ∧ e.isRetriable
      · obtain ⟨e, rfl, he⟩ := hpassing
        obtain rfl : o₁ = .error (.failed e) := by
          cases o₁ <;> cases ho
          rfl
        have hsame : (c.pause { q with count := some mode } abort number e : Run σ Unit) =
          c.pause { q with count := none } abort number e := rfl
        have hacts : Acts env s'.now (c.pause { q with count := none } abort number e) _ :=
          Client.acts_pause number e
        obtain ⟨ds', ys, hpaused, -⟩ := hacts.passes s' rfl
        rw [exec_retry_of_passing h₁ he, exec_retry_of_passing h₂ he, exec_bind, exec_bind, hsame]
        rcases hpause : (c.pause { q with count := none } abort number e : Run σ Unit).exec env s'
          with ⟨halt | u, s₁⟩
        · exact .same _
        · rw [hpause] at hpaused
          exact (ih (number + 1) s₁).after (hpassage.chronicles.append hpaused.chronicles)
      · have hlasting : ∀ e, o₂ = .error (.failed e) → e.isRetriable = false :=
          fun e he => by simpa [he] using hpassing
        rw [exec_retry_of_lasting h₂ hlasting, exec_retry_of_lasting h₁]
        · exact .alike ho
        · rintro e rfl
          refine hlasting e ?_
          cases o₂ <;> cases ho
          rfl
    | @counted conn data entries s₁ hmutation hchronicles hsucceeds =>
      rw [exec_retry_of_lasting h₁ fun e he => absurd he (countAfter_not_failed s₁ e),
        exec_retry_of_lasting h₂ fun e he => absurd he (pure_not_failed (data, none) s₁ e)]
      exact .counted hmutation hchronicles hsucceeds

/-! ## Calls -/

theorem compile_count (safety : Safety) (q : Query) (count : Option CountMode) :
    Statement.compile safety { q with count } = Statement.compile safety q := rfl

theorem Client.of_exec_refuse {operation : String} {sql : Option String} {e : Error}
    {r : Response Json} (h : (c.refuse operation sql e).exec env s = (.ok r, s')) :
    r = .err e ∧ ∃ entries, Chronicles env.source s entries s' ∧ inquiries entries = [] := by
  have hacts : Acts env s.now (c.refuse operation sql e : Run σ (Response Json)) _ :=
    Client.acts_refuse _ _ _
  obtain ⟨ds, entries, hpassage, ho, rfl, -⟩ := hacts.passes s rfl
  rw [h] at hpassage ho
  exact ⟨Except.ok.inj ho, entries, hpassage.chronicles, hpassage.inquiries⟩

variable (σ) in
/-- A call that is late, or whose query cannot be compiled, is refused with an error and asks for
nothing, whether there is a count or not. -/
theorem exec_execute_of_refused (q : Query) (abort : Option ℕ) (m : ℕ)
    (h : abort.any (· ≤ m) ∨ ∃ e, Statement.compile c.config.safety q = .error e) :
    ∃ e, ∀ (env : Env σ) (s s' : State σ) (count : Option CountMode) (r : Response Json),
      s.now = m → (c.execute { q with count } abort).exec env s = (.ok r, s') →
      r = .err e ∧ ∃ entries, Chronicles env.source s entries s' ∧ inquiries entries = [] := by
  by_cases hlate : abort.any (· ≤ m)
  · refine ⟨.aborted "query aborted before execution", fun env s s' count r hs hexec => ?_⟩
    rw [Client.execute, exec_bind, exec_aborted, hs] at hexec
    dsimp only at hexec
    rw [if_pos hlate] at hexec
    exact Client.of_exec_refuse hexec
  · obtain ⟨e, he⟩ := h.resolve_left hlate
    refine ⟨e, fun env s s' count r hs hexec => ?_⟩
    rw [Client.execute, exec_bind, exec_aborted, hs] at hexec
    dsimp only at hexec
    rw [if_neg hlate, compile_count, he] at hexec
    exact Client.of_exec_refuse hexec

/-- How the rows of a query are counted, after the requests that are made without a count too: by
one statement at most, on the connection of a statement that has succeeded. -/
inductive CountsAfter (c : Client) (q : Query) (mode : CountMode) (error : Option Error)
    (is : List Inquiry) : List Inquiry → Prop
  | never : CountsAfter c q mode error is []
  | once {statement conn counting i} : error = none → q.operation.isMutation = false →
    Statement.compile c.config.safety q = .ok statement →
    Succeeds statement conn i.moment is →
    Statement.compileCount c.config.safety q mode = .ok counting →
    i.request = counting.request .query conn → CountsAfter c q mode error is [i]

/-- What a call comes to with a count (`r₁`), compared to what it comes to without (`r₂`). -/
structure Unaltered (A B : Source σ) (c : Client) (q : Query) (mode : CountMode) (s : State σ)
    (r₁ : Response Json) (s₁ : State σ) (r₂ : Response Json) (s₂ : State σ) : Prop where
  data : r₁.data = r₂.data
  error : r₁.error = r₂.error
  /-- An error comes with neither data nor a count. -/
  bare : ∀ r ∈ [r₁, r₂], ∀ e, r.error = some e → r.data = none ∧ r.count = none
  /-- The same is asked for, and then the count. -/
  requests : ∃ entries₁ entries₂ counting, Chronicles A s entries₁ s₁ ∧ Chronicles B s entries₂ s₂ ∧
    inquiries entries₁ = inquiries entries₂ ++ counting ∧
    attemptsIn (inquiries entries₁) = attemptsIn (inquiries entries₂) ∧
    CountsAfter c q mode r₁.error (inquiries entries₂) counting

theorem CountsAfter.attemptsIn_eq {error : Option Error} {is counting : List Inquiry}
    (h : CountsAfter c q mode error is counting) : attemptsIn (is ++ counting) = attemptsIn is := by
  have hnone : counting.countP Inquiry.isAcquire = 0 := by
    refine countP_isAcquire_eq_zero fun i hi => ?_
    cases h with
    | never => cases hi
    | once _ _ _ _ _ hrequest =>
      rw [List.mem_singleton.1 hi, hrequest]
      exact Request.noConfusion
  rw [attemptsIn, List.countP_append, hnone]
  rfl

/-- Where the rows are there, they are counted or not, and the data is the same. -/
theorem alongside_ends {data : Option Json} {o₁ o₂ : Except Error Outcome} {s₁ s₂ : State σ}
    (h₁ : ((c.lease conn !c.inTransaction).use
      (c.countAfter conn { q with count := some mode } abort mode data)).exec env s =
        (o₁.mapError .failed, s₁))
    (h₂ : ((c.lease conn !c.inTransaction).use (pure (data, none))).exec env s =
      (o₂.mapError .failed, s₂)) :
    (∃ n, o₁ = .ok (data, n)) ∧ o₂ = .ok (data, none) ∧ ∃ entries₁ entries₂,
      Chronicles env.source s entries₁ s₁ ∧ Chronicles env.source s entries₂ s₂ ∧
      inquiries entries₂ = [] ∧ (inquiries entries₁ = [] ∨ ∃ counting a,
        Statement.compileCount c.config.safety q mode = .ok counting ∧
        inquiries entries₁ = [⟨s.now, counting.request .query conn, a⟩]) := by
  have hcounts : Acts env s.now
      (c.countAfter conn { q with count := some mode } abort mode data) _ := Client.acts_countAfter
  have hpure : Acts env s.now (pure (data, none) : Run σ Outcome)
      fun o ds _ => o = .ok (data, none) ∧ ds = [] := .pure ⟨rfl, rfl⟩
  obtain ⟨ds₁, entries₁, hpassage₁, husing₁⟩ := (Lease.acts_use hcounts).passes s rfl
  obtain ⟨ds₂, entries₂, hpassage₂, husing₂⟩ := (Lease.acts_use hpure).passes s rfl
  rw [h₁] at hpassage₁ husing₁
  rw [h₂] at hpassage₂ husing₂
  obtain ⟨dsc, m₁, dsr₁, rfl, ⟨o, hcounting, ho⟩, hreleasing₁⟩ := husing₁.of_ended
  obtain ⟨dsp, m₂, dsr₂, rfl, ⟨ho₂, rfl⟩, hreleasing₂⟩ := husing₂.of_ended
  obtain ⟨-, hquiet₁, -⟩ := hreleasing₁.quiet rfl
  obtain ⟨-, hquiet₂, -⟩ := hreleasing₂.quiet rfl
  have hinquiries₁ : inquiries entries₁ = dsc.filterMap Deed.inquiry? := by
    rw [hpassage₁.inquiries, List.filterMap_append, hquiet₁, List.append_nil]
  have hinquiries₂ : inquiries entries₂ = [] := hpassage₂.inquiries.trans hquiet₂
  refine ⟨?_, ?_, entries₁, entries₂, hpassage₁.chronicles, hpassage₂.chronicles, hinquiries₂,
    hinquiries₁ ▸ hcounting.asks_once⟩
  · rcases o₁ with e | outcome <;> cases o <;> cases ho
    · exact absurd hcounting Counting.not_failed
    · exact ⟨_, rfl⟩
  · cases o₂ <;> cases ho₂
    rfl

/-- A call that responds does so with what its attempts come to, and asks for nothing after them. -/
theorem retried_of_executed {r : Response Json}
    (hs : Statement.compile c.config.safety q = .ok statement)
    (hearly : abort.any (· ≤ s.now) = false)
    (h : (c.execute q abort).exec env s = (.ok r, s')) :
    ∃ (o : Except Error Outcome) (s₁ : State σ) (tail : List Entry),
      (c.retry q statement abort (c.maxAttempts - 1) 1).exec env s = (o.mapError .failed, s₁) ∧
      r = responseOf o ∧ Chronicles env.source s₁ tail s' ∧ inquiries tail = [] := by
  rw [exec_execute hs hearly] at h
  rcases hretry : (c.retry q statement abort (c.maxAttempts - 1) 1).exec env s with
    ⟨halt | outcome, s₁⟩ <;> rw [hretry] at h
  · cases halt with
    | failed e =>
      obtain ⟨rfl, tail, htail⟩ := Client.of_exec_refuse h
      exact ⟨.error e, s₁, tail, rfl, rfl, htail⟩
    | dropped level => cases h
    | panicked text => cases h
    | stuck => cases h
  · cases h
    exact ⟨.ok outcome, _, [], rfl, rfl, .nil rfl rfl rfl, rfl⟩

/-- A call with a count and without, on the same source. -/
theorem executed_alongside {r₁ r₂ : Response Json} {s₁ s₂ : State σ}
    (hs : Statement.compile c.config.safety q = .ok statement)
    (hearly : abort.any (· ≤ s.now) = false)
    (h₁ : (c.execute { q with count := some mode } abort).exec env s = (.ok r₁, s₁))
    (h₂ : (c.execute { q with count := none } abort).exec env s = (.ok r₂, s₂)) :
    r₁.data = r₂.data ∧ r₁.error = r₂.error ∧ ∃ entries₁ entries₂ counting,
      Chronicles env.source s entries₁ s₁ ∧ Chronicles env.source s entries₂ s₂ ∧
      inquiries entries₁ = inquiries entries₂ ++ counting ∧
      CountsAfter c q mode r₁.error (inquiries entries₂) counting := by
  obtain ⟨o₁, t₁, tail₁, hretry₁, rfl, htail₁, hquiet₁⟩ := retried_of_executed
    ((compile_count _ q (some mode)).trans hs) hearly h₁
  obtain ⟨o₂, t₂, tail₂, hretry₂, rfl, htail₂, hquiet₂⟩ := retried_of_executed
    ((compile_count _ q none).trans hs) hearly h₂
  have hacts : Acts env s.now
      (c.retry { q with count := none } statement abort (c.maxAttempts - 1) 1) _ :=
    Client.acts_retry _ statement _ 1
  obtain ⟨ds, xs, hpassage, -⟩ := hacts.passes s rfl
  have halongside : Alongside env c q mode abort statement s _ _ :=
    alongside_retry statement (c.maxAttempts - 1) 1 s
  rw [hretry₁, hretry₂] at halongside
  rw [hretry₂] at hpassage
  generalize hx₁ : (o₁.mapError Halt.failed, t₁) = x₁ at halongside
  generalize hx₂ : (o₂.mapError Halt.failed, t₂) = x₂ at halongside
  cases halongside with
  | alike ho =>
    obtain ⟨rfl, rfl⟩ := Prod.mk.inj hx₁
    obtain ⟨rfl, rfl⟩ := Prod.mk.inj hx₂
    have hsame : (responseOf o₁).data = (responseOf o₂).data ∧
        (responseOf o₁).error = (responseOf o₂).error := by
      rcases o₁ with e₁ | ⟨data₁, n₁⟩ <;> rcases o₂ with e₂ | ⟨data₂, n₂⟩ <;> cases ho <;>
        exact ⟨rfl, rfl⟩
    refine ⟨hsame.1, hsame.2, xs ++ tail₁, xs ++ tail₂, [], hpassage.chronicles.append htail₁,
      hpassage.chronicles.append htail₂, ?_, .never⟩
    rw [inquiries_append, inquiries_append, hquiet₁, hquiet₂, List.append_nil, List.append_nil]
  | @counted conn data entries s₃ hmutation hchronicles hsucceeds =>
    obtain ⟨⟨n, rfl⟩, rfl, entries₁, entries₂, hentries₁, hentries₂, hnone, hcounting⟩ :=
      alongside_ends hx₁.symm hx₂.symm
    have hinquiries₁ : inquiries (entries ++ (entries₁ ++ tail₁)) =
        inquiries entries ++ inquiries entries₁ := by
      rw [inquiries_append, inquiries_append, hquiet₁, List.append_nil]
    have hinquiries₂ : inquiries (entries ++ (entries₂ ++ tail₂)) = inquiries entries := by
      rw [inquiries_append, inquiries_append, hquiet₂, hnone, List.append_nil, List.append_nil]
    refine ⟨rfl, rfl, entries ++ (entries₁ ++ tail₁), entries ++ (entries₂ ++ tail₂),
      inquiries entries₁, hchronicles.append (hentries₁.append htail₁),
      hchronicles.append (hentries₂.append htail₂), ?_, ?_⟩
    · rw [hinquiries₁, hinquiries₂]
    · rw [hinquiries₂]
      rcases hcounting with hcounting | ⟨counting, a, hcompiled, hcounting⟩
      · rw [hcounting]
        exact .never
      · rw [hcounting]
        exact .once rfl hmutation hs hsucceeds hcompiled rfl

/-- **Asking for a count changes nothing** but the count: whatever the source answers to the
statement that counts, and whatever it would answer to anything else that is not asked without a
count, there is the same data or the same error, after the same requests. -/
theorem count_changes_nothing {A B : Source σ} {deadlines : List ℕ} {r₁ r₂ : Response Json}
    {s₁ s₂ : State σ}
    (halike : ∀ statement, Statement.compile c.config.safety q = .ok statement →
      A.Alike B statement)
    (h₁ : (c.execute { q with count := some mode } abort).exec ⟨A, deadlines⟩ s = (.ok r₁, s₁))
    (h₂ : (c.execute { q with count := none } abort).exec ⟨B, deadlines⟩ s = (.ok r₂, s₂)) :
    Unaltered A B c q mode s r₁ s₁ r₂ s₂ := by
  have hbare : ∀ o₁ o₂ : Except Error Outcome, ∀ r ∈ [responseOf o₁, responseOf o₂], ∀ e,
      r.error = some e → r.data = none ∧ r.count = none := by
    exact fun o₁ o₂ => List.forall_mem_cons.2
      ⟨fun _ => bare_responseOf, List.forall_mem_singleton.2 fun _ => bare_responseOf⟩
  by_cases hrefused : abort.any (· ≤ s.now) ∨
      ∃ e, Statement.compile c.config.safety q = .error e
  · obtain ⟨e, hresponds⟩ := exec_execute_of_refused σ q abort s.now hrefused
    obtain ⟨rfl, entries₁, hentries₁, hnone₁⟩ := hresponds _ s s₁ _ r₁ rfl h₁
    obtain ⟨rfl, entries₂, hentries₂, hnone₂⟩ := hresponds _ s s₂ _ r₂ rfl h₂
    have hsame : inquiries entries₁ = inquiries entries₂ := hnone₁.trans hnone₂.symm
    exact ⟨rfl, rfl, hbare (.error e) (.error e), entries₁, entries₂, [], hentries₁, hentries₂,
      by rw [hsame, List.append_nil], by rw [hsame], .never⟩
  · push Not at hrefused
    obtain ⟨hlate, hcompiled⟩ := hrefused
    obtain ⟨statement, hs⟩ : ∃ statement, Statement.compile c.config.safety q = .ok statement := by
      cases hq : Statement.compile c.config.safety q with
      | ok statement => exact ⟨statement, rfl⟩
      | error e => exact absurd hq (hcompiled e)
    have hearly : abort.any (· ≤ s.now) = false := Bool.eq_false_iff.2 hlate
    -- Without a count, the call does the same on both sources.
    obtain ⟨hsame, ds, xs, hA, hB⟩ := Client.execute_alike (q := { q with count := none })
      (halike statement hs) rfl ((compile_count _ q none).trans hs) deadlines s
    rw [← hsame] at h₂
    rw [h₂] at hA hB
    obtain ⟨hdata, herror, entries₁, entries₂, counting, hentries₁, hentries₂, hinquiries,
      hcounts⟩ := executed_alongside hs hearly h₁ h₂
    obtain rfl := hentries₂.unique hA.chronicles
    obtain ⟨o₁, _, _, _, rfl, _, _⟩ := retried_of_executed
      ((compile_count _ q (some mode)).trans hs) hearly h₁
    obtain ⟨o₂, _, _, _, rfl, _, _⟩ := retried_of_executed
      ((compile_count _ q none).trans hs) hearly h₂
    exact ⟨hdata, herror, hbare o₁ o₂, entries₁, entries₂, counting, hentries₁, hB.chronicles,
      hinquiries, hinquiries ▸ hcounts.attemptsIn_eq, hcounts⟩

/-! ### A count that fails -/

/-- A server that answers a selection with one row, and then fails for a passing reason. -/
def uncountable : Script where
  queries := [⟨some 2, .ok [[("id", .int 1)]]⟩,
    ⟨some 4, .error ⟨.query "could not serialize access" (some "40001"), []⟩⟩]

/-- What comes of the selection of all users, with a count or without. -/
def select (count : Option CountMode) : Except Halt (Response Json) × State Script :=
  (insistentClient.execute { allUsers with count } none).exec ⟨Script.source, []⟩
    { source := uncountable }

theorem count_changes_nothing_of_uncountable :
    (select (some .exact)).2.history.filterMap (Event.line? 1) =
        ["SELECT set_config('statement_timeout', $1, $2)", "SELECT * FROM \"public\".\"users\"",
          "SELECT COUNT(*) AS \"count\" FROM \"public\".\"users\"", "RESET statement_timeout",
          "released"] ∧
      ∃ r₁ r₂, (select (some .exact)).1 = .ok r₁ ∧ (select none).1 = .ok r₂ ∧
        Unaltered Script.source Script.source insistentClient allUsers .exact
          { source := uncountable } r₁ (select (some .exact)).2 r₂ (select none).2 := by
  have hends : ∀ count, (select count).1.isOk → ∃ r, (select count).1 = .ok r := by
    intro count h
    cases hselect : (select count).1 with
    | ok r => exact ⟨r, rfl⟩
    | error _ =>
      rw [hselect] at h
      cases h
  obtain ⟨r₁, h₁⟩ := hends (some .exact) (by decide +kernel)
  obtain ⟨r₂, h₂⟩ := hends none (by decide +kernel)
  have hexec₁ : select (some .exact) = (.ok r₁, (select (some .exact)).2) :=
    h₁ ▸ (Prod.eta _).symm
  have hexec₂ : select none = (.ok r₂, (select none).2) := h₂ ▸ (Prod.eta _).symm
  exact ⟨by decide +kernel, r₁, r₂, h₁, h₂, count_changes_nothing
    (fun _ _ => ⟨rfl, rfl, rfl, fun _ => rfl, fun _ => rfl, fun _ => rfl, fun _ => rfl⟩)
    hexec₁ hexec₂⟩

end QueryClient.Session
