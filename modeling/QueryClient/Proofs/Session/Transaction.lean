/-
  The course of a transaction.

  A connection is acquired and the transaction begun on it; the work of the callback is done, the
  transaction is closed according to what came of the work, and the connection is released.

  * `Course` relates a callback to what can come of its transaction and to what concerns the
    connection meanwhile; it has one case for each way to get no further;
  * `Client.course_of_transact`: every transaction takes such a course, however the source answers
    and whenever its caller gives it up;
  * `Transacted` and `Client.acts_transact`: what a transaction does, whatever state it starts in.
-/
import QueryClient.Proofs.Session.TransactionCalls

namespace QueryClient.Session

open Run State

variable {σ α : Type}

/-- No cleanup is under way on a connection that was never handed out. -/
def State.Sound (s : State σ) : Prop := ∀ c ∈ s.cleanups, c.conn ≤ s.connections

theorem State.Sound.undisturbed {s : State σ} (h : s.Sound) :
    s.Undisturbed (s.connections + 1) := fun c hc he => by
  have := h c hc
  omega

/-- A statement without values was sent, with a verdict. -/
abbrev Happening.batch (conn : ℕ) (sql : String) (v : Verdict) : Happening :=
  .asked (.statement .batch conn sql []) v

/-- The connection is released at once, or later by a cleanup that still uses it. -/
def Released (conn : ℕ) (t : List Happening) : Prop := t = [] ∨ t = [.noted (.released conn)]

/-! ## Beginning -/

/-- Begins a transaction on a connection. -/
def begin (conn : ℕ) : Run σ Unit := do
  batch conn "BEGIN"
  Run.trace (.debug "transaction started")

/-- A connection is acquired and a transaction begun on it. -/
def Opened (env : Env σ) (s : State σ) (conn : ℕ) (s₁ : State σ) : Prop :=
  ∃ s₀, (acquire none).exec env s = (.ok conn, s₀) ∧ (begin conn).exec env s₀ = (.ok (), s₁)

variable {env : Env σ} {conn m m' : ℕ} {c : Client} {s s' : State σ} {ds : List Deed}

/-- A call holds a connection, on which cleanups at most stop what is done. -/
structure State.Reserved (conn : ℕ) (s : State σ) : Prop where
  held : conn ∈ s.held
  stopsOnly : s.StopsOnly conn

/-- What a run does that is confined to the connection is a trace, and the connection stays
reserved. -/
theorem State.Reserved.observed {r : Run σ α} {P : Except Halt α → List Happening → Prop}
    (hs : s.Reserved conn) (h : Acts env s.now r (Confined conn P)) :
    ∃ trace, Observed env.source s trace (r.exec env s).2 ∧ (r.exec env s).2.Reserved conn ∧
      P (r.exec env s).1 (trace.filter (·.concerns conn)) := by
  obtain ⟨ds, entries, hpassage, hconfined, hP⟩ := h.passes s rfl
  have hkept : ∀ m, .letGo m conn ∉ ds := fun m hmem => hconfined _ hmem
  obtain ⟨hstops, htrace⟩ := hpassage.concerning hs.stopsOnly hkept fun m steps hmem => by
    obtain ⟨-, rfl⟩ := hconfined _ hmem
    exact ⟨hs.held, by decide⟩
  exact ⟨_, hpassage.observed fun m hmem => hconfined _ hmem,
    ⟨(hpassage.stays_held hs.held hkept).1, hstops⟩, htrace ▸ hP⟩

/-- What comes of acquiring a connection: the next one is held, or none is. -/
inductive Acquires (s s₀ : State σ) : Except Halt ℕ → List Happening → Prop
  | held : s₀.Reserved (s.connections + 1) →
    Acquires s s₀ (.ok (s.connections + 1)) [.asked .acquire (.ok ())]
  | refused {e : Error} : s₀.StopsOnly (s.connections + 1) →
    Acquires s s₀ (.error (.failed e)) [.asked .acquire (.error e)]
  | givenUp {halt : Halt} {v : Verdict} : halt.givenUp →
    Acquires s s₀ (.error halt) [.asked .acquire v]

/-- The connection that is taken is the next one. -/
theorem Passage.taken {source : Source σ} {entries : List Entry} {a : Answer Yield}
    (h : Passage source s [.asked m .acquire a, .held m' conn] entries s') :
    conn = s.connections + 1 ∧ conn ∈ s'.held := by
  have hmem : Deed.held m' conn ∈ [.asked m .acquire a, .held m' conn] := by simp
  obtain ⟨hlt, hle⟩ := h.held_fresh hmem
  have hnumber : s'.connections = s.connections + 1 := h.connections_eq
  refine ⟨by omega, ?_⟩
  have hfront : [Deed.asked m .acquire a, .held m' conn] =
      [.asked m .acquire a] ++ .held m' conn :: [] := rfl
  rw [hfront] at h
  obtain ⟨s₁, s₂, _, _, _, -, hholds, hrest, -⟩ := h.split
  cases hholds
  exact (hrest.stays_held List.mem_cons_self nofun).1

variable (env) in
theorem acquires_of_sound (hs : s.Sound) :
    ∃ trace, Observed env.source s trace ((acquire none).exec env s).2 ∧
      Acquires s ((acquire none).exec env s).2 ((acquire none).exec env s).1
        (trace.filter (·.concerns (s.connections + 1))) := by
  have hacquires : Acts env s.now (Client.connection {} none) (Connecting {} none s.now) :=
    Client.acts_connection
  change Acts env s.now (acquire none) _ at hacquires
  obtain ⟨ds, entries, hpassage, hconnecting⟩ := hacquires.passes s rfl
  have hconcerning := hpassage.concerning hs.undisturbed.stopsOnly
  generalize ((acquire none).exec env s).1 = o at hconnecting
  rcases o with halt | conn
  · have hasked : ∀ {a : Answer Yield}, ds = [.asked s.now .acquire a] →
        Observed env.source s (entries.map Entry.happening) ((acquire none).exec env s).2 ∧
          ((acquire none).exec env s).2.StopsOnly (s.connections + 1) ∧
          (entries.map Entry.happening).filter (·.concerns (s.connections + 1)) =
            [.asked .acquire a.judged] := by
      rintro a rfl
      exact ⟨hpassage.observed (by simp), hconcerning (by simp) (by simp)⟩
    by_cases hfailed : ∃ e, halt = .failed e
    · obtain ⟨e, rfl⟩ := hfailed
      obtain ⟨-, a, w, hds, -, -, hresult⟩ := hconnecting.unaborted_error
      obtain ⟨hobs, hstops, htrace⟩ := hasked hds
      refine ⟨_, hobs, ?_⟩
      rw [htrace, Answer.judged, hresult]
      exact .refused hstops
    · obtain ⟨hgiven, a, hds⟩ :=
        hconnecting.unaborted_halt fun e he => hfailed ⟨e, he⟩
      obtain ⟨hobs, -, htrace⟩ := hasked hds
      exact ⟨_, hobs, htrace ▸ .givenUp hgiven⟩
  · obtain ⟨hno, -⟩ | ⟨-, a, w, rfl, -, -, hresult⟩ := hconnecting.unaborted
    · cases hno
    · obtain ⟨rfl, hheld⟩ := hpassage.taken
      obtain ⟨hstops, htrace⟩ := hconcerning (by simp) (by simp)
      refine ⟨_, hpassage.observed (by simp), ?_⟩
      have hasked : concerning (s.connections + 1) [.asked s.now .acquire a,
          .held ((acquire none).exec env s).2.now (s.connections + 1)] =
            [.asked .acquire a.judged] := rfl
      rw [htrace, hasked, Answer.judged, hresult]
      exact .held ⟨hheld, hstops⟩

/-! ## Closing -/

/-- How a transaction is closed once its work has come to something. -/
def Client.closing (c : Client) (conn : ℕ) : Except Halt α → Run σ (Response α)
  | .ok a => c.endTransaction conn (.ok a)
  | .error (.failed e) => c.endTransaction conn (.error e)
  | .error (.panicked text) => do
    rollBack conn
    throw (.panicked text)
  | .error halt => throw halt

theorem Client.exec_closing (c : Client) (conn : ℕ) (work : Run σ α) (env : Env σ)
    (s : State σ) :
    (do c.endTransaction conn (← workOutcome conn work) : Run σ (Response α)).exec env s =
      (c.closing conn (work.exec env s).1).exec env (work.exec env s).2 := by
  unfold workOutcome
  rw [exec_bind, exec_tryCatch, exec_bind]
  rcases work.exec env s with ⟨halt | a, s₁⟩
  · cases halt with
    | panicked text =>
      dsimp only [Client.closing]
      rw [exec_bind, exec_bind]
      rcases (rollBack conn : Run σ Unit).exec env s₁ with ⟨_ | _, s₂⟩ <;> rfl
    | _ => rfl
  · rfl

/-- How a transaction is closed when it is not given up: what came of the work, the statements
that close the transaction, and what comes of it. -/
inductive Completes (conn : ℕ) :
    Except Halt α → List Happening → Except Halt (Response α) → Prop
  | committed {a : α} :
    Completes conn (.ok a) [.batch conn "COMMIT" (.ok ())] (.ok (.ok (some a) none))
  | uncommitted {a : α} {e : Error} {v : Verdict} :
    Completes conn (.ok a) [.batch conn "COMMIT" (.error e), .batch conn "ROLLBACK" v]
      (.ok (.err (.transaction "COMMIT failed" e)))
  | failed {e : Error} {v : Verdict} :
    Completes conn (.error (.failed e)) [.batch conn "ROLLBACK" v]
      (.ok (.err (.transaction "Transaction failed" e)))
  | panicked {text : String} {v : Verdict} :
    Completes conn (.error (.panicked text)) [.batch conn "ROLLBACK" v] (.error (.panicked text))

/-- How a transaction is left when it is given up in the course of its work, of its `COMMIT`, or of
its `ROLLBACK`. -/
inductive Abandons (conn : ℕ) : Except Halt α → List Happening → Halt → Prop
  | working {halt : Halt} : halt.givenUp → Abandons conn (.error halt) [] halt
  | committing {a : α} {v : Verdict} {halt : Halt} :
    Abandons conn (.ok a) [.batch conn "COMMIT" v] halt
  | uncommitted {a : α} {e : Error} {v : Verdict} {halt : Halt} :
    Abandons conn (.ok a) [.batch conn "COMMIT" (.error e), .batch conn "ROLLBACK" v] halt
  | undoing {halt' halt : Halt} {v : Verdict} : halt'.givenUp = false →
    Abandons conn (.error halt') [.batch conn "ROLLBACK" v] halt

/-- A transaction is closed, or given up on the way. -/
def Closes (conn : ℕ) (o : Except Halt α) (t : List Happening)
    (outcome : Except Halt (Response α)) : Prop :=
  Completes conn o t outcome ∨ ∃ halt, outcome = .error halt ∧ halt.givenUp ∧ Abandons conn o t halt

/-- A statement without values is answered, or its sender gives up. -/
theorem acts_batch_confined (sql : String) :
    Acts env m (batch conn sql : Run σ Unit) (Confined conn fun o t => ∃ v,
      t = [.batch conn sql v] ∧
        (o = v.mapError .failed ∨ ∃ halt : Halt, o = .error halt ∧ halt.givenUp)) := by
  refine (acts_batch sql).mono fun o ds m' h => ?_
  obtain ⟨⟨w, result⟩, hawaits, rfl⟩ := h
  refine ⟨fun d hd => ?_, result, ?_, ?_⟩
  · rw [List.mem_singleton.1 hd]
    exact rfl
  · rw [concerning_statement, Answer.judged_map]
    cases result <;> rfl
  · cases hawaits with
    | past _ => exact Or.inl rfl
    | givenUp hgiven _ _ => exact Or.inr ⟨_, rfl, hgiven⟩

theorem acts_attempt_batch (sql : String) :
    Acts env m (Run.attempt (batch conn sql : Run σ Unit)) (Confined conn fun o t => ∃ v,
      t = [.batch conn sql v] ∧ (o = .ok v ∨ ∃ halt : Halt, o = .error halt ∧ halt.givenUp)) := by
  refine (acts_batch_confined sql).attempt.mono fun o ds m' h => ?_
  cases h with
  | ended h =>
    obtain ⟨hconfined, v, ht, ho | ⟨halt, ho, hgiven⟩⟩ := h
    · exact ⟨hconfined, v, ht, Or.inl (congrArg Except.ok (mapError_failed_inj ho))⟩
    · exact absurd ho (mapError_failed_ne hgiven)
  | @halted halt _ _ hfailed h =>
    obtain ⟨hconfined, v, ht, ho | ⟨_, ho, hgiven⟩⟩ := h
    · cases v with
      | ok _ => cases ho
      | error e =>
        cases ho
        exact absurd rfl (hfailed e)
    · cases ho
      exact ⟨hconfined, v, ht, Or.inr ⟨halt, rfl, hgiven⟩⟩

/-- A `ROLLBACK` was sent, and its failure does not matter. -/
def RolledBack (conn : ℕ) (o : Except Halt Unit) (t : List Happening) : Prop :=
  ∃ v, t = [.batch conn "ROLLBACK" v] ∧ (o = .ok () ∨ ∃ halt, o = .error halt ∧ halt.givenUp)

theorem acts_rollBack :
    Acts env m (rollBack conn : Run σ Unit) (Confined conn (RolledBack conn)) := by
  refine (acts_attempt_batch "ROLLBACK").confined_bind (fun o t m₁ h => ?_) fun halt t h => ?_
  · obtain ⟨v, rfl, -⟩ := h
    have htraced : ∀ trace : Trace, Acts env m₁ (Run.trace trace : Run σ Unit)
        (Confined conn fun o' t' => RolledBack conn o' ([.batch conn "ROLLBACK" v] ++ t')) :=
      fun trace => (acts_trace trace).mono fun o' ds m' h => by
        obtain ⟨⟨_, rfl⟩, rfl, -⟩ := h
        exact ⟨List.forall_mem_nil _, v, rfl, Or.inl rfl⟩
    cases o with
    | ok _ => exact htraced _
    | error e => exact htraced _
  · obtain ⟨v, rfl, he | ⟨_, he, hgiven⟩⟩ := h
    · cases he
    · cases he
      exact ⟨v, rfl, Or.inr ⟨halt, rfl, hgiven⟩⟩

theorem Client.acts_refuseTransaction (message : String) (cause : Error) :
    Acts env m (c.refuseTransaction message cause : Run σ (Response α))
      (Confined conn fun o t => o = .ok (.err (.transaction message cause)) ∧ t = []) :=
  (Client.acts_refuse _ _ _).mono fun o ds m' h => by
    obtain ⟨rfl, rfl, -⟩ := h
    exact ⟨List.forall_mem_nil _, rfl, rfl⟩

/-- What a transaction did is undone before it comes to its end. -/
theorem acts_undo {o : Except Halt α} {t : List Happening} {r : Run σ (Response α)}
    {outcome : Except Halt (Response α)}
    (hr : ∀ m₁, Acts env m₁ r (Confined conn fun o' t' => o' = outcome ∧ t' = []))
    (hcompletes : ∀ v, Completes conn o (t ++ [.batch conn "ROLLBACK" v]) outcome)
    (habandons : ∀ v halt, Abandons conn o (t ++ [.batch conn "ROLLBACK" v]) halt) :
    Acts env m (do rollBack conn; r)
      (Confined conn fun outcome t' => Closes conn o (t ++ t') outcome) := by
  refine acts_rollBack.confined_bind (fun _ t' m₁ h => ?_) fun halt t' h => ?_
  · obtain ⟨v, rfl, -⟩ := h
    refine (hr m₁).mono fun o' ds m' h' => ?_
    obtain ⟨hconfined, rfl, ht⟩ := h'
    refine ⟨hconfined, Or.inl ?_⟩
    rw [ht, List.append_nil]
    exact hcompletes v
  · obtain ⟨v, rfl, he | ⟨_, he, hgiven⟩⟩ := h
    · cases he
    · cases he
      exact Or.inr ⟨halt, rfl, hgiven, habandons v halt⟩

/-- A transaction whose work has a value is committed, or else undone. -/
theorem Client.acts_commit (a : α) :
    Acts env m (c.endTransaction conn (.ok a))
      (Confined conn fun outcome t => Closes conn (.ok a) t outcome) := by
  refine (acts_attempt_batch "COMMIT").confined_bind (fun v t m₁ h => ?_) fun halt t h => ?_
  · obtain ⟨v', rfl, he | ⟨_, he, _⟩⟩ := h
    · cases he
      cases v with
      | ok _ =>
        refine (acts_trace _).still_bind fun _ => .pure ⟨List.forall_mem_nil _, Or.inl ?_⟩
        exact .committed
      | error e =>
        exact acts_undo (fun _ => Client.acts_refuseTransaction _ _) (fun _ => .uncommitted)
          fun _ _ => .uncommitted
    · cases he
  · obtain ⟨v', rfl, he | ⟨_, he, hgiven⟩⟩ := h
    · cases he
    · cases he
      exact Or.inr ⟨halt, rfl, hgiven, .committing⟩

/-- **A transaction is closed** as what came of its work demands. -/
theorem Client.acts_closing (o : Except Halt α)
    (hamong : ∀ halt, o = .error halt → halt.Among env.deadlines.length) :
    Acts env m (c.closing conn o) (Confined conn fun outcome t => Closes conn o t outcome) := by
  have hgivenUp : ∀ halt : Halt, halt.givenUp → halt.Among env.deadlines.length →
      Acts env m (throw halt : Run σ (Response α))
        (Confined conn fun outcome t => Closes conn (.error halt : Except Halt α) t outcome) :=
    fun halt hgiven hamong =>
      .throw hamong ⟨List.forall_mem_nil _, Or.inr ⟨_, rfl, hgiven, .working hgiven⟩⟩
  cases o with
  | ok a => exact Client.acts_commit a
  | error halt =>
    cases halt with
    | failed e =>
      exact acts_undo (t := []) (fun _ => Client.acts_refuseTransaction _ _) (fun _ => .failed)
        fun _ _ => .undoing rfl
    | panicked text =>
      exact acts_undo (t := []) (fun _ => .throw trivial ⟨List.forall_mem_nil _, rfl, rfl⟩)
        (fun _ => .panicked) fun _ _ => .undoing rfl
    | dropped level => exact hgivenUp _ rfl (hamong _ rfl)
    | stuck => exact hgivenUp _ rfl (hamong _ rfl)

/-- A transaction is closed by the statements that are for that. -/
theorem Closes.batches {o : Except Halt α} {t : List Happening} {outcome : Except Halt (Response α)}
    (h : Closes conn o t outcome) : ∀ x ∈ t, ∃ sql ∈ brackets, ∃ v, x = .batch conn sql v := by
  rcases h with hcompletes | ⟨halt, -, -, habandons⟩
  · cases hcompletes <;> simp [brackets]
  · cases habandons <;> simp [brackets]

/-! ## On the connection -/

/-- The client of the transaction on a connection. -/
def Client.inside (c : Client) (conn : ℕ) : Client := { c with transaction := some conn }

/-- What concerns the connection of a transaction: the statement that begins it, and if there is
work to do then what that asks for and the statements that close the transaction. -/
inductive Transacts (c : Client) (conn : ℕ) (plan : Except String (Work σ α)) :
    List Happening → Prop
  | idle {v : Verdict} : Transacts c conn plan [.batch conn "BEGIN" v]
  | working {work : Work σ α} {o : Except Halt α} {outcome : Except Halt (Response α)}
      {v : Verdict} {inner ending : List Happening} :
    work.Performs (c.inside conn) conn o inner → Closes conn o ending outcome →
    Transacts c conn plan (.batch conn "BEGIN" v :: (inner ++ ending))

theorem acts_transactionOn (plan : Except String (Work σ α)) :
    Acts env m (c.transactionOn conn (Work.callback plan))
      (Confined conn fun _ => Transacts c conn plan) := by
  unfold Client.transactionOn
  refine (acts_attempt_batch "BEGIN").confined_bind (fun o t m₁ h => ?_) fun _ t h => ?_
  · obtain ⟨v, rfl, -⟩ := h
    cases o with
    | error e =>
      refine (Client.acts_refuseTransaction _ _).mono fun o ds m' h => ⟨h.1, ?_⟩
      rw [h.2.2]
      exact .idle
    | ok _ =>
      refine (acts_trace _).still_bind fun _ => ?_
      cases plan with
      | error text => exact .throw trivial ⟨List.forall_mem_nil _, .idle⟩
      | ok work =>
        have hwork : Acts env m₁ (work.perform (c.inside conn) []) _ :=
          Work.acts_perform (c := c.inside conn) rfl (List.forall_mem_nil _) work
        refine hwork.follow (c.closing conn) (Client.exec_closing c conn _)
          fun o ds m₂ hamong hperforms => ?_
        refine (Client.acts_closing o hamong).mono fun o' ds' m' hcloses => ?_
        have htransacts : Transacts c conn (.ok work)
            (.batch conn "BEGIN" v :: (concerning conn ds ++ concerning conn ds')) :=
          .working hperforms.2 hcloses.2
        rw [← concerning_append] at htransacts
        exact ⟨forall_mem_confinedTo_append hperforms.1 hcloses.1, htransacts⟩
  · obtain ⟨v, rfl, -⟩ := h
    exact .idle

/-- The course of a transaction on a connection that was acquired in a state. -/
inductive Begins (env : Env σ) (c : Client) (conn : ℕ) (s₀ : State σ)
    (plan : Except String (Work σ α)) : Except Halt (Response α) → List Happening → Prop
  /-- The callback does not come into it. -/
  | unbegun {e : Error} : (∀ s₁, (begin conn).exec env s₀ ≠ (.ok (), s₁)) →
    (∀ callback, (c.transactionOn conn callback).exec env s₀ =
      (c.transactionOn conn (Work.callback plan)).exec env s₀) →
    Begins env c conn s₀ plan (.ok (.err (.transaction "BEGIN failed" e)))
      [.batch conn "BEGIN" (.error e)]
  | beginning {v : Verdict} {halt : Halt} : (∀ s₁, (begin conn).exec env s₀ ≠ (.ok (), s₁)) →
    halt.givenUp →
    Begins env c conn s₀ plan (.error halt) [.batch conn "BEGIN" v]
  /-- The callback panics before there is any work. -/
  | baseless {text : String} {s₁ : State σ} : (begin conn).exec env s₀ = (.ok (), s₁) →
    plan = .error text →
    Begins env c conn s₀ plan (.error (.panicked text)) [.batch conn "BEGIN" (.ok ())]
  | closed {work : Work σ α} {o : Except Halt α} {outcome : Except Halt (Response α)}
      {s₁ s₂ : State σ} {trace ending : List Happening} :
    (begin conn).exec env s₀ = (.ok (), s₁) → plan = .ok work →
    (work.perform (c.inside conn) []).exec env s₁ = (o, s₂) → Observed env.source s₁ trace s₂ →
    work.Performs (c.inside conn) conn o (trace.filter (·.concerns conn)) →
    Closes conn o ending outcome →
    Begins env c conn s₀ plan outcome
      (.batch conn "BEGIN" (.ok ()) :: (trace.filter (·.concerns conn) ++ ending))

theorem exec_transactionOn_of_error {s₀ s₁ : State σ} {e : Error} (callback : Callback σ α)
    (h : (batch conn "BEGIN").exec env s₀ = (.error (.failed e), s₁)) :
    (c.transactionOn conn callback).exec env s₀ =
      (c.refuseTransaction "BEGIN failed" e).exec env s₁ := by
  unfold Client.transactionOn
  rw [exec_bind, exec_attempt, h]

theorem exec_transactionOn_of_halt {s₀ s₁ : State σ} {halt : Halt} (callback : Callback σ α)
    (h : (batch conn "BEGIN").exec env s₀ = (.error halt, s₁)) (hgiven : halt.givenUp) :
    (c.transactionOn conn callback).exec env s₀ = (.error halt, s₁) := by
  unfold Client.transactionOn
  rw [exec_bind, exec_attempt, h]
  cases halt with
  | failed e => cases hgiven
  | _ => rfl

/-- A transaction that was begun goes on with its work and is closed then. -/
theorem exec_transactionOn_of_begin {s₀ s₁ : State σ} (plan : Except String (Work σ α))
    (h : (begin conn).exec env s₀ = (.ok (), s₁)) :
    (c.transactionOn conn (Work.callback plan)).exec env s₀ =
      match plan with
      | .error text => (.error (.panicked text), s₁)
      | .ok work =>
        (c.closing conn ((work.perform (c.inside conn) []).exec env s₁).1).exec env
          ((work.perform (c.inside conn) []).exec env s₁).2 := by
  unfold begin at h
  rw [exec_bind] at h
  unfold Client.transactionOn
  rw [exec_bind, exec_attempt]
  rcases hbatch : (batch conn "BEGIN" : Run σ Unit).exec env s₀ with ⟨halt | _, s₀'⟩ <;>
    rw [hbatch] at h
  · cases h
  · dsimp only at h ⊢
    rw [exec_bind, h]
    cases plan with
    | error text => rfl
    | ok work => exact Client.exec_closing c conn (work.perform (c.inside conn) []) env s₁

/-- A transaction that the server does not begin is refused, whatever its callback. -/
theorem begins_of_refused {s₀ s₁ : State σ} {e : Error} {trace : List Happening}
    (plan : Except String (Work σ α))
    (hbatch : (batch conn "BEGIN").exec env s₀ = (.error (.failed e), s₁))
    (hs : s₁.Reserved conn) (hobs : Observed env.source s₀ trace s₁)
    (ht : trace.filter (·.concerns conn) = [.batch conn "BEGIN" (.error e)])
    (hfails : ∀ s₁, (begin conn).exec env s₀ ≠ (.ok (), s₁)) :
    ∃ trace, Observed env.source s₀ trace
        ((c.transactionOn conn (Work.callback plan)).exec env s₀).2 ∧
      Begins env c conn s₀ plan ((c.transactionOn conn (Work.callback plan)).exec env s₀).1
        (trace.filter (·.concerns conn)) := by
  obtain ⟨trace', hobs', -, hr, ht'⟩ :=
    hs.observed (Client.acts_refuseTransaction (c := c) (α := α) "BEGIN failed" e)
  have hall : ∀ callback : Callback σ α, (c.transactionOn conn callback).exec env s₀ =
      (c.refuseTransaction "BEGIN failed" e).exec env s₁ :=
    fun callback => exec_transactionOn_of_error callback hbatch
  refine ⟨trace ++ trace', hobs.append (hall _ ▸ hobs'), ?_⟩
  rw [List.filter_append, ht, ht', hall, hr]
  exact .unbegun hfails fun callback => (hall callback).trans (hall _).symm

/-- A transaction that was begun does its work and is closed. -/
theorem begins_of_begun {s₀ s₁ : State σ} {trace : List Happening} (plan : Except String (Work σ α))
    (hbegin : (begin conn).exec env s₀ = (.ok (), s₁))
    (hs : s₁.Reserved conn) (hobs : Observed env.source s₀ trace s₁)
    (ht : trace.filter (·.concerns conn) = [.batch conn "BEGIN" (.ok ())]) :
    ∃ trace, Observed env.source s₀ trace
        ((c.transactionOn conn (Work.callback plan)).exec env s₀).2 ∧
      Begins env c conn s₀ plan ((c.transactionOn conn (Work.callback plan)).exec env s₀).1
        (trace.filter (·.concerns conn)) := by
  rw [exec_transactionOn_of_begin plan hbegin]
  cases plan with
  | error text => exact ⟨_, hobs, ht ▸ .baseless hbegin rfl⟩
  | ok work =>
    have hwork : Acts env s₁.now (work.perform (c.inside conn) []) _ :=
      Work.acts_perform (c := c.inside conn) rfl (List.forall_mem_nil _) work
    obtain ⟨inner, hinner, hs₂, hperforms⟩ := hs.observed hwork
    obtain ⟨ending, hending, -, hcloses⟩ :=
      hs₂.observed (Client.acts_closing _ fun halt ho => hwork.among s₁ halt rfl ho)
    refine ⟨trace ++ (inner ++ ending), hobs.append (hinner.append hending), ?_⟩
    rw [List.filter_append, ht, List.filter_append]
    exact .closed hbegin rfl rfl hinner hperforms hcloses

variable (env c) in
/-- **The course of a transaction on its connection.** -/
theorem begins_of_reserved {s₀ : State σ} (hs : s₀.Reserved conn)
    (plan : Except String (Work σ α)) :
    ∃ trace, Observed env.source s₀ trace
        ((c.transactionOn conn (Work.callback plan)).exec env s₀).2 ∧
      Begins env c conn s₀ plan ((c.transactionOn conn (Work.callback plan)).exec env s₀).1
        (trace.filter (·.concerns conn)) := by
  obtain ⟨trace, hobs, hs', v, ht, ho⟩ := hs.observed (acts_batch_confined "BEGIN")
  rcases hbatch : (batch conn "BEGIN" : Run σ Unit).exec env s₀ with ⟨halt | u, s₀'⟩ <;>
    rw [hbatch] at hobs hs' ho
  · have hfails : ∀ s₁, (begin conn).exec env s₀ ≠ (.ok (), s₁) := by
      intro s₁ h
      unfold begin at h
      rw [exec_bind, hbatch] at h
      cases h
    rcases ho with ho | ⟨halt', he, hgiven⟩
    · cases v with
      | ok _ => cases ho
      | error e =>
        obtain rfl : halt = .failed e := Except.error.inj ho
        exact begins_of_refused plan hbatch hs' hobs ht hfails
    · cases he
      rw [exec_transactionOn_of_halt _ hbatch hgiven]
      exact ⟨trace, hobs, ht ▸ .beginning hfails hgiven⟩
  · obtain rfl : v = .ok () := by
      rcases ho with ho | ⟨_, he, _⟩
      · cases v <;> cases ho
        rfl
      · cases he
    have htraces : Acts env s₀'.now (Run.trace (.debug "transaction started") : Run σ Unit)
        (Confined conn fun _ t => t = []) := (acts_trace _).mono fun _ _ _ h => by
      obtain ⟨-, rfl, -⟩ := h
      exact ⟨List.forall_mem_nil _, rfl⟩
    obtain ⟨started, hstarted, hs₁, hnil⟩ := hs'.observed htraces
    have hbegin : (begin conn).exec env s₀ =
        (.ok (), ((Run.trace (.debug "transaction started") : Run σ Unit).exec env s₀').2) := by
      unfold begin
      rw [exec_bind, hbatch]
      rfl
    refine begins_of_begun plan hbegin hs₁ (hobs.append hstarted) ?_
    rw [List.filter_append, ht, hnil]
    rfl

/-! ## The whole course -/

/-- The course of a transaction. -/
inductive Course (env : Env σ) (c : Client) (s : State σ) (plan : Except String (Work σ α)) :
    Except Halt (Response α) → List Happening → Prop
  /-- The callback does not come into it. -/
  | unacquired {e : Error} : (∀ conn s₀, (acquire none).exec env s ≠ (.ok conn, s₀)) →
    (∀ callback, (c.transact callback).exec env s = (c.transact (Work.callback plan)).exec env s) →
    Course env c s plan (.ok (.err (.transaction "failed to acquire a connection" e)))
      [.asked .acquire (.error e)]
  | acquiring {v : Verdict} {halt : Halt} :
    (∀ conn s₀, (acquire none).exec env s ≠ (.ok conn, s₀)) → halt.givenUp →
    Course env c s plan (.error halt) [.asked .acquire v]
  | acquired {s₀ : State σ} {outcome : Except Halt (Response α)} {t tail : List Happening} :
    (acquire none).exec env s = (.ok (s.connections + 1), s₀) →
    Begins env c (s.connections + 1) s₀ plan outcome t → Released (s.connections + 1) tail →
    Course env c s plan outcome (.asked .acquire (.ok ()) :: (t ++ tail))

theorem exec_ensuring_modify (r : Run σ α) (g : State σ → State σ) (s : State σ) :
    (r.ensuring (modify g)).exec env s = ((r.exec env s).1, g (r.exec env s).2) := by
  unfold Run.ensuring Run.onHalt
  rw [exec_bind, exec_tryCatch]
  rcases r.exec env s with ⟨halt | a, s'⟩ <;> rfl

variable (env) in
theorem observed_letGo (s : State σ) (conn : ℕ) :
    ∃ tail, Observed env.source s tail (s.letGo conn) ∧
      Released conn (tail.filter (·.concerns conn)) := by
  unfold State.letGo State.releaseUnless
  dsimp only
  split
  · exact ⟨[], .nil rfl rfl, Or.inl rfl⟩
  · refine ⟨[.noted (.released conn)], .noted _ rfl rfl, Or.inr ?_⟩
    simp [Happening.concerns, Event.concerns]

/-- What a transaction does: it comes by a connection, does on it what concerns it, and lets go of
it. -/
inductive Transacted (c : Client) (plan : Except String (Work σ α)) (m : ℕ) : List Deed → Prop
  | nested : c.inTransaction → Transacted c plan m []
  | unacquired {halt : Halt} {ds : List Deed} {m' : ℕ} :
    Connecting {} none m (.error halt) ds m' → Transacted c plan m ds
  | acquired {conn m₁ m' : ℕ} {ds ds' : List Deed} : Connecting {} none m (.ok conn) ds m₁ →
    (∀ d ∈ ds', d.ConfinedTo conn) → Transacts c conn plan (concerning conn ds') →
    Transacted c plan m (ds ++ (ds' ++ [.letGo m' conn]))

/-- **What a transaction does**, whatever comes of it. -/
theorem Client.acts_transact (c : Client) (plan : Except String (Work σ α)) :
    Acts env m (c.transact (Work.callback plan)) fun _ ds _ => Transacted c plan m ds := by
  unfold transact
  split
  · next hin =>
    refine (acts_refuse _ _ _).mono fun o ds m' h => ?_
    obtain ⟨-, rfl, -⟩ := h
    exact .nested hin
  have hacquires : Acts env m (Client.connection {} none) (Connecting {} none m) :=
    acts_connection
  change Acts env m (acquire none) _ at hacquires
  refine hacquires.attempt_bind (fun o ds m₁ h => ?_) fun _ _ _ _ h => .unacquired h
  cases o with
  | error e =>
    refine (acts_refuse _ _ _).mono fun o ds' m' h' => ?_
    obtain ⟨-, rfl, -⟩ := h'
    rw [List.append_nil]
    exact .unacquired h
  | ok conn =>
    exact (acts_transactionOn plan).ensuring (fun _ => acts_modify_letGo conn)
      fun _ _ _ h' => .acquired h h'.1 h'.2

section
variable (hc : c.transaction = none)
include hc

theorem exec_transact (callback : Callback σ α) (s : State σ) :
    (c.transact callback).exec env s = match (acquire none).exec env s with
      | (.ok conn, s₀) =>
        (((c.transactionOn conn callback).exec env s₀).1,
          ((c.transactionOn conn callback).exec env s₀).2.letGo conn)
      | (.error (.failed e), s₀) =>
        (c.refuseTransaction "failed to acquire a connection" e).exec env s₀
      | (.error halt, s₀) => (.error halt, s₀) := by
  have hnone : c.inTransaction = false := by
    rw [Client.inTransaction, hc]
    rfl
  unfold Client.transact
  rw [hnone, if_neg Bool.false_ne_true, exec_bind, exec_attempt]
  rcases (acquire none).exec env s with ⟨halt | conn, s₀⟩
  · cases halt <;> rfl
  · exact exec_ensuring_modify _ _ s₀

/-- **Every transaction takes such a course.** -/
theorem Client.course_of_transact (env : Env σ) (hs : s.Sound) (plan : Except String (Work σ α)) :
    ∃ trace, Observed env.source s trace ((c.transact (Work.callback plan)).exec env s).2 ∧
      Course env c s plan ((c.transact (Work.callback plan)).exec env s).1
        (trace.filter (·.concerns (s.connections + 1))) := by
  obtain ⟨trace, hobs, hacquires⟩ := acquires_of_sound env hs
  rcases hacquire : (acquire none).exec env s with ⟨outcome, s₀⟩
  rw [hacquire] at hobs hacquires
  generalize ht : trace.filter (·.concerns (s.connections + 1)) = t at hacquires
  cases hacquires with
  | held hs₀ =>
    obtain ⟨trace', hobs', hbegins⟩ := begins_of_reserved env c hs₀ plan
    obtain ⟨tail, htail, hreleased⟩ := observed_letGo env
      ((c.transactionOn (s.connections + 1) (Work.callback plan)).exec env s₀).2 (s.connections + 1)
    rw [exec_transact hc, hacquire]
    refine ⟨trace ++ (trace' ++ tail), hobs.append (hobs'.append htail), ?_⟩
    rw [List.filter_append, ht, List.filter_append, List.singleton_append]
    exact .acquired hacquire hbegins hreleased
  | @refused e hstops =>
    have hrefuses : Acts env s₀.now
        (c.refuseTransaction "failed to acquire a connection" e : Run σ (Response α)) _ :=
      Client.acts_refuse _ _ _
    obtain ⟨ds, entries, hpassage, hr, rfl, -⟩ := hrefuses.passes s₀ rfl
    obtain ⟨-, ht'⟩ := hpassage.concerning hstops (by simp) (by simp)
    have hall : ∀ callback : Callback σ α, (c.transact callback).exec env s =
        (c.refuseTransaction "failed to acquire a connection" e).exec env s₀ := by
      intro callback
      rw [exec_transact hc, hacquire]
    refine ⟨trace ++ entries.map Entry.happening,
      hobs.append (hall _ ▸ hpassage.observed (by simp)), ?_⟩
    rw [List.filter_append, ht, ht', hall, hr]
    exact .unacquired (by simp [hacquire]) fun callback => (hall callback).trans (hall _).symm
  | @givenUp halt v hgiven =>
    have hexec : (c.transact (Work.callback plan)).exec env s = (.error halt, s₀) := by
      rw [exec_transact hc, hacquire]
      cases halt with
      | failed e => cases hgiven
      | _ => rfl
    rw [hexec]
    exact ⟨trace, hobs, ht ▸ .acquiring (by simp [hacquire]) hgiven⟩

end

end QueryClient.Session
