/-
  Calls under observation.

  * `Client.unobserved`: a client without its hooks;
  * `Client.mirrors_execute`, `Client.mirrors_streaming`: a call does with hooks as it does without;
    what the hooks are shown comes before the statements of its query and with its failures;
  * `hooks_only_observe`: whatever the hooks do, they change nothing but the log, and each is shown
    everything.
-/
import QueryClient.Proofs.Session.Bracket
import QueryClient.Proofs.Session.Mirrored
import QueryClient.Proofs.Session.StreamProtocol

namespace QueryClient

open Piece Statement

/-! ## Statements of a query -/

/-- A selection goes on with a star, a quoted name or a space. -/
theorem head?_columns_ne (columns : ColumnList) (rest : List Piece) :
    (textFrom 0 (columns.pieces ++ clause [.fromWord] ++ rest)).head? ≠ some 'C' := by
  match columns with
  | .all | .only [] => exact fun h => absurd (Option.some.inj h) (by decide)
  | .only [_] | .only (_ :: _ :: _) => exact fun h => absurd (Option.some.inj h) (by decide)

/-- A query whose rows are counted is a selection of some columns. -/
theorem Compiled.exists_columns {safety : Safety} {q : Query} {mode : CountMode}
    {pieces counting : List Piece} (h : Compiled safety q pieces) (hc : Counted q mode counting) :
    ∃ columns rest, pieces =
      word .select :: space :: (ColumnList.pieces columns ++ clause [.fromWord] ++ rest) := by
  have hreads : ∀ {operation}, q.operation = operation →
      (∃ text, operation = .select text) ∨ ∃ text args, operation = .rpc text args := by
    rintro _ rfl
    cases hc with
    | select hop => exact .inl ⟨_, hop⟩
    | rpc hop => exact .inr ⟨_, _, hop⟩
  cases h with
  | @select text schema table columns =>
    exact ⟨columns,
      target schema table ++ Filter.condition q.filters ++ ordering q.order ++ paging q,
      by simp only [List.append_assoc, List.cons_append]⟩
  | @rpc text args schema function =>
    exact ⟨.all, application schema function args ++ ordering q.order ++ paging q,
      by simp only [List.append_assoc, List.cons_append]; rfl⟩
  | insert hop | upsert hop | update hop | delete hop =>
    rcases hreads hop with ⟨_, h⟩ | ⟨_, _, h⟩ <;> cases h

/-- The statement of a query is none that counts its rows. -/
theorem Statement.text_ne_count {safety : Safety} {q : Query} {mode : CountMode}
    {statement counting : Statement} (hs : compile safety q = .ok statement)
    (hc : compileCount safety q mode = .ok counting) : statement.text ≠ counting.text := by
  have hcounted := counted_of_compileCount hc
  obtain ⟨columns, rest, hpieces⟩ := (compiled_of_compile hs).exists_columns hcounted
  obtain ⟨back, hback⟩ : ∃ back, counting.pieces = countFront mode ++ back := by
    generalize counting.pieces = pieces at hcounted
    cases hcounted <;> exact ⟨_, List.append_assoc ..⟩
  intro htext
  have heq : textFrom 0 statement.pieces = textFrom 0 counting.pieces :=
    String.ofList_injective htext
  rw [hpieces, hback] at heq
  cases mode with
  | exact => exact head?_columns_ne columns rest (congrArg (fun cs => (cs.drop 7).head?) heq)
  | planned | estimated => exact absurd (List.cons.inj heq).1 (by decide)

/-- The operation that failed, and the error. -/
def ErrorEvent.brief (e : ErrorEvent) : String × Error := (e.operation, e.error)

namespace Session

open Run

variable {σ α : Type}

/-- A client without its hooks. -/
def Client.unobserved (c : Client) : Client := { c with hooks := [] }

/-- The statements of a query, with the names of the operations under which hooks are shown them:
its own statement, and the one that counts its rows. -/
inductive Client.Issues (c : Client) (q : Query) :
    (operation : String) → StatementKind → (sql : String) → List Value → Prop
  | primary {kind : StatementKind} {statement : Statement} : kind ≠ .batch →
    compile c.config.safety q = .ok statement →
    Issues c q q.operation.name kind statement.text statement.values
  | count {mode : CountMode} {statement : Statement} : q.count = some mode →
    compileCount c.config.safety q mode = .ok statement →
    Issues c q "count" .query statement.text statement.values

namespace Client.Issues

variable {c : Client} {q : Query} {operation sql : String} {kind : StatementKind}
  {values : List Value}

/-- The statements of a query are none of those that hooks are not shown. -/
theorem not_isSilent (h : c.Issues q operation kind sql values) (conn : ℕ) :
    ¬ (Event.sent kind conn sql values).isSilent := by
  have hlimit : '"' ∉ limitStatement.toList := by decide
  cases h with
  | primary hkind hs =>
    simp [Event.isSilent, hkind, text_ne (compiled_of_compile hs).exists_name hlimit]
  | count _ hc =>
    simp [Event.isSilent, text_ne (counted_of_compileCount hc).exists_name hlimit]

/-- The name of the operation tells the two statements apart. -/
theorem operation_eq (h : c.Issues q operation kind sql values) :
    (∀ statement, compile c.config.safety q = .ok statement → sql = statement.text →
      operation = q.operation.name) ∧
    ∀ mode counting, q.count = some mode → compileCount c.config.safety q mode = .ok counting →
      sql = counting.text → operation = "count" := by
  cases h with
  | primary _ hs =>
    exact ⟨fun _ _ _ => rfl, fun _ _ _ hc htext => absurd htext (text_ne_count hs hc)⟩
  | count hmode hc =>
    exact ⟨fun _ hs htext => absurd htext.symm (text_ne_count hs hc), fun _ _ _ _ _ => rfl⟩

end Client.Issues

/-! ## Showing things to hooks -/

namespace Client

variable (c : Client)

theorem unobserved_config : c.unobserved.config = c.config := rfl

/-- The error of a response is shown to hooks, once, and nothing else is; a call that is halted
shows none. -/
def Reported (operation : String) : Reporting (Response α) := fun o failures =>
  match o with
  | .ok r => failures.map ErrorEvent.brief = r.error.toList.map (operation, ·)
  | .error halt => failures = [] ∧ Unfailed halt

theorem exec_forM_trace (env : Env σ) (s : State σ) (traces : List Trace) (h : List Event)
    (ms : List ℕ) : ∃ ms', (traces.forM Run.trace : Run σ Unit).exec env (s.under h ms) =
      (.ok (), s.under (h ++ traces.map .traced) ms') := by
  induction traces generalizing h ms with
  | nil => exact ⟨ms, by rw [List.map_nil, List.append_nil]; rfl⟩
  | cons t traces ih =>
    obtain ⟨ms', ih⟩ := ih (h ++ [.traced t]) (ms ++ [s.now])
    refine ⟨ms', ?_⟩
    have hcons : ((t :: traces).forM Run.trace : Run σ Unit).exec env (s.under h ms) =
        (traces.forM Run.trace : Run σ Unit).exec env
          (s.under (h ++ [.traced t]) (ms ++ [s.now])) := rfl
    rw [hcons, ih, List.append_assoc]
    rfl

theorem exec_notify (env : Env σ) (s : State σ) (e : HookEvent) (h : List Event) (ms : List ℕ) :
    ∃ ms', (c.notify e).exec env (s.under h ms) =
      (.ok (), s.under (h ++ bulletin c.hooks e) ms') := by
  unfold notify bulletin
  cases hempty : c.hooks.isEmpty with
  | true => exact ⟨ms, by rw [if_pos rfl, if_pos rfl, List.append_nil]; rfl⟩
  | false =>
    obtain ⟨ms', htraces⟩ :=
      exec_forM_trace env s (dispatch c.hooks e) (h ++ [.shown e]) (ms ++ [s.now])
    refine ⟨ms', ?_⟩
    rw [List.append_assoc] at htraces
    exact htraces

section
variable {c} {Issues : String → StatementKind → String → List Value → Prop} {env : Env σ}

/-- A statement is shown, and then something is done. -/
theorem mirrors_showStatement {operation sql : String} {values : List Value} {r₁ r₂ : Run σ α}
    {Φ : Reporting α}
    (h : Mirrors c.hooks Issues env (bulletin c.hooks (.statement (.of operation sql values)))
      r₁ r₂ Φ) :
    Mirrors c.hooks Issues env [] (c.showStatement operation sql values >>= fun _ => r₁)
      (c.unobserved.showStatement operation sql values >>= fun _ => r₂) Φ := by
  intro s h₁ m₁ h₂ m₂
  obtain ⟨ms, hshown⟩ := c.exec_notify env s (.statement (.of operation sql values)) h₁ m₁
  obtain ⟨o, s', l₁, m₁', l₂, m₂', failures, he₁, he₂, ha, hΦ⟩ := h s (h₁ ++ bulletin _ _) ms h₂ m₂
  refine ⟨o, s', bulletin _ _ ++ l₁, m₁', l₂, m₂', failures, ?_, he₂, ha, hΦ⟩
  rw [showStatement, exec_bind, hshown, ← List.append_assoc]
  exact he₁

/-- A failure is shown. -/
theorem mirrors_showFailure (operation : String) (sql : Option String) (e : Error) :
    Mirrors c.hooks Issues env [] (c.showFailure operation sql e)
      (c.unobserved.showFailure operation sql e : Run σ Unit)
      fun o failures => o = .ok () ∧ failures = [⟨operation, sql, e⟩] := by
  intro s h₁ m₁ h₂ m₂
  obtain ⟨ms, hshown⟩ := c.exec_notify env s (.failure ⟨operation, sql, e⟩) h₁ m₁
  refine ⟨.ok (), s, _, ms, [], m₂, _, hshown, by rw [List.append_nil]; rfl, ?_, rfl, rfl⟩
  have hfailed : Annotated c.hooks Issues (bulletin c.hooks (.failure ⟨operation, sql, e⟩) ++ [])
      [] [⟨operation, sql, e⟩] := .failed .nil
  rwa [List.append_nil] at hfailed

theorem mirrors_refuse (operation : String) (sql : Option String) (e : Error) :
    Mirrors c.hooks Issues env [] (c.refuse operation sql e)
      (c.unobserved.refuse operation sql e : Run σ (Response α)) (Reported operation) := by
  refine (mirrors_showFailure operation sql e).bind ?_ ?_
  · rintro _ _ ⟨-, rfl⟩
    exact .pure rfl
  · rintro halt _ ⟨heq, -⟩
    cases heq

theorem mirrors_fail (operation : String) (sql : Option String) (e : Error) :
    Mirrors c.hooks Issues env [] (c.fail operation sql e)
      (c.unobserved.fail operation sql e : Run σ α)
      fun o failures => o = .error (.failed e) ∧ failures = [⟨operation, sql, e⟩] := by
  refine (mirrors_showFailure operation sql e).bind ?_ ?_
  · rintro _ _ ⟨-, rfl⟩
    exact .throw ⟨rfl, rfl⟩
  · rintro halt _ ⟨heq, -⟩
    cases heq

/-! ## Executing -/

theorem mirrors_connection (abort : Option ℕ) :
    Mirrors c.hooks Issues env [] (c.connection abort : Run σ ℕ) (c.unobserved.connection abort)
      (Quiet fun _ => True) := by
  have hsame : (c.unobserved.connection abort : Run σ ℕ) = c.connection abort := rfl
  rw [hsame, connection]
  cases c.transaction with
  | some conn => exact .race abort (.quiet_pure _) .quiet_ofExcept (.quiet_throw trivial)
  | none => exact .acquire abort

theorem mirrors_applyLimit (conn : ℕ) :
    Mirrors c.hooks Issues env [] (c.applyLimit conn : Run σ Unit) (c.unobserved.applyLimit conn)
      (Quiet Unfailed) := by
  have hsame : (c.unobserved.applyLimit conn : Run σ Unit) = c.applyLimit conn := rfl
  rw [hsame, applyLimit]
  cases c.config.safety.statementTimeout with
  | none => exact .quiet_pure ()
  | some limit =>
    refine Mirrors.seq (Mirrors.quiet_attempt (H := fun _ => True) ?_) fun o => ?_
    · exact (Mirrors.request (by simp [Event.isSilent]) _).seq fun answer =>
        (Mirrors.await answer).seq fun _ => .quiet_pure ()
    · cases o with
      | ok _ => exact .quiet_pure ()
      | error e => exact .trace _

end

section
variable {c} {q : Query} {statement : Statement} {env : Env σ} (abort : Option ℕ)

theorem mirrors_count {mode : CountMode} (hmode : q.count = some mode) (conn : ℕ) :
    Mirrors c.hooks (c.Issues q) env [] (c.count conn q abort mode : Run σ (Option ℤ))
      (c.unobserved.count conn q abort mode) (Quiet Unfailed) := by
  unfold count
  rw [unobserved_config]
  cases hcount : Statement.compileCount c.config.safety q mode with
  | error e => exact (Mirrors.trace _).seq fun _ => .quiet_pure none
  | ok statement =>
    refine mirrors_showStatement (Mirrors.seq (Mirrors.quiet_attempt
      (Mirrors.interruptible (.count hmode hcount) conn abort _)) fun o => ?_)
    match o with
    | .error e => exact (Mirrors.trace _).seq fun _ => .quiet_pure none
    | .ok [] => exact .quiet_pure none
    | .ok (row :: _) =>
      dsimp only
      split
      · exact (Mirrors.trace _).seq fun _ => .quiet_pure _
      · exact .quiet_pure _

variable (hs : Statement.compile c.config.safety q = .ok statement)
include hs

theorem mirrors_run (conn : ℕ) :
    Mirrors c.hooks (c.Issues q) env [] (c.run conn q statement abort : Run σ Outcome)
      (c.unobserved.run conn q statement abort) (Quiet fun _ => True) := by
  unfold run
  refine mirrors_showStatement ?_
  split
  · exact (Mirrors.interruptible (.primary (fun h => nomatch h) hs) conn abort _).seq fun _ =>
      .quiet_pure _
  · refine (Mirrors.interruptible (.primary (fun h => nomatch h) hs) conn abort _).seq fun rows =>
      (Mirrors.quiet_ofExcept _).seq fun data => ?_
    cases hcount : q.count with
    | none => exact .quiet_pure _
    | some mode =>
      dsimp only
      split
      · exact .quiet_pure _
      · exact (mirrors_count abort hcount conn).any.seq fun _ => .quiet_pure _

theorem mirrors_attempt :
    Mirrors c.hooks (c.Issues q) env [] (c.attempt q statement abort : Run σ Outcome)
      (c.unobserved.attempt q statement abort) (Quiet fun _ => True) :=
  (mirrors_connection abort).seq fun conn => .use _ <|
    (mirrors_applyLimit conn).any.seq fun _ => mirrors_run abort hs conn

theorem mirrors_retry (left number : ℕ) :
    Mirrors c.hooks (c.Issues q) env [] (c.retry q statement abort left number : Run σ Outcome)
      (c.unobserved.retry q statement abort left number) (Quiet fun _ => True) := by
  induction left generalizing number with
  | zero => exact mirrors_attempt abort hs
  | succ left ih =>
    refine (mirrors_attempt abort hs).quiet_attempt.any.seq fun o => ?_
    cases o with
    | ok outcome => exact .quiet_pure outcome
    | error e =>
      dsimp only
      split
      · refine (Mirrors.trace _).seq fun _ => Mirrors.seq ?_ fun _ => ih (number + 1)
        exact .race abort (.quiet_pure _) .quiet_ofExcept (.quiet_throw trivial)
      · exact .quiet_throw trivial

end

/-- **Executing a query.** -/
theorem mirrors_execute (q : Query) (abort : Option ℕ) (env : Env σ) :
    Mirrors c.hooks (c.Issues q) env [] (c.execute q abort) (c.unobserved.execute q abort)
      (Reported q.operation.name) := by
  unfold execute
  refine Mirrors.aborted_bind abort fun late => ?_
  split
  · exact mirrors_refuse _ _ _
  · rw [unobserved_config]
    cases hs : Statement.compile c.config.safety q with
    | error e => exact mirrors_refuse _ _ _
    | ok statement =>
      refine (mirrors_retry abort hs _ _).quiet_attempt.andThen (fun o => ?_)
        fun _ hhalt => ⟨rfl, hhalt⟩
      cases o with
      | error e => exact mirrors_refuse _ _ e
      | ok outcome => exact .pure rfl

/-! ## Streams -/

/-- The error with which a stream is not opened is shown to hooks, once, and nothing else is. -/
def ReportedOpening (operation : String) : Reporting RowStream := fun o failures =>
  match o with
  | .error (.failed e) => failures.map ErrorEvent.brief = [(operation, e)]
  | _ => failures = []

theorem reportedOpening_of_unfailed (operation : String) {halt : Halt} (h : Unfailed halt) :
    ReportedOpening operation (.error halt) [] := by
  cases halt with
  | failed e => exact absurd rfl (h e)
  | _ => rfl

section
variable {c} {q : Query} {statement : Statement} {env : Env σ} (abort : Option ℕ)

theorem mirrors_failOpening (sql : Option String) (e : Error) :
    Mirrors c.hooks (c.Issues q) env [] (c.fail q.operation.name sql e)
      (c.unobserved.fail q.operation.name sql e) (ReportedOpening q.operation.name) := by
  refine (mirrors_fail _ sql e).mono ?_
  rintro _ _ ⟨rfl, rfl⟩
  rfl

theorem mirrors_streamStatement (hs : Statement.compile c.config.safety q = .ok statement) :
    Mirrors c.hooks (c.Issues q) env []
      (c.streamStatement q.operation.name statement abort : Run σ RowStream)
      (c.unobserved.streamStatement q.operation.name statement abort)
      (ReportedOpening q.operation.name) := by
  unfold streamStatement
  refine (mirrors_connection abort).quiet_attempt.andThen (fun o => ?_)
    fun _ => reportedOpening_of_unfailed _
  cases o with
  | error e => exact mirrors_failOpening _ e
  | ok conn =>
    refine Mirrors.andThen (Mirrors.onHalt (Mirrors.quiet_attempt (H := fun _ => True) ?_)
      (.discard _)) (fun o => ?_) fun _ => reportedOpening_of_unfailed _
    · exact (mirrors_applyLimit conn).any.seq fun _ => mirrors_showStatement
        (Mirrors.interruptible (.primary (fun h => nomatch h) hs) conn abort _)
    · cases o with
      | error e =>
        exact (Mirrors.release _ _).andThen (fun _ => mirrors_failOpening _ e)
          fun _ => reportedOpening_of_unfailed _
      | ok rows =>
        exact (Mirrors.trace _).andThen (fun _ => .pure rfl) fun _ => reportedOpening_of_unfailed _

end

/-- **Opening a stream.** -/
theorem mirrors_stream (q : Query) (abort : Option ℕ) (env : Env σ) :
    Mirrors c.hooks (c.Issues q) env [] (c.stream q abort) (c.unobserved.stream q abort)
      (ReportedOpening q.operation.name) := by
  unfold stream
  dsimp only
  split
  · refine Mirrors.aborted_bind abort fun late => ?_
    split
    · exact mirrors_failOpening _ _
    · rw [unobserved_config]
      cases hs : Statement.compile c.config.safety q with
      | error e => exact mirrors_failOpening _ _
      | ok statement => exact mirrors_streamStatement abort hs
  · exact mirrors_failOpening _ _

end Client

namespace RowStream

variable {hooks : List Hook} {Issues : String → StatementKind → String → List Value → Prop}
  {env : Env σ} {H : Halt → Prop}

theorem mirrors_finish (s : RowStream) (interrupted : Bool) :
    Mirrors hooks Issues env [] (s.finish interrupted : Run σ RowStream) (s.finish interrupted)
      (Quiet H) :=
  (Mirrors.discard _).seq fun _ => .quiet_pure _

/-- Polling a stream shows hooks nothing, not even a failure. -/
theorem mirrors_poll (s : RowStream) :
    Mirrors hooks Issues env [] (s.poll : Run σ (Item × RowStream)) s.poll (Quiet H) := by
  have hfinish : ∀ item interrupted, Mirrors hooks Issues env []
      (do return (item, ← s.finish interrupted) : Run σ (Item × RowStream))
      (do return (item, ← s.finish interrupted)) (Quiet H) :=
    fun item interrupted => (mirrors_finish s interrupted).seq fun _ => .quiet_pure _
  unfold poll
  split
  · exact .quiet_pure _
  · refine Mirrors.aborted_bind s.abort fun late => ?_
    split
    · exact hfinish _ _
    · refine Mirrors.now_bind fun now => ?_
      split
      · exact hfinish _ _
      · split
        · split
          · exact .quiet_pure _
          · exact hfinish _ _
        · exact .quiet_pure _

theorem mirrors_next (s : RowStream) (patience : ℕ) :
    Mirrors hooks Issues env [] (s.next patience : Run σ (Item × RowStream)) (s.next patience)
      (Quiet Unfailed) := by
  unfold next
  refine (mirrors_poll s).seq fun polled => ?_
  split
  · exact Mirrors.now_bind fun now => (Mirrors.wait _).seq fun _ => mirrors_poll _
  · exact .quiet_pure _

theorem mirrors_drop (s : RowStream) :
    Mirrors hooks Issues env [] (s.drop : Run σ Unit) s.drop (Quiet H) := by
  unfold drop
  split
  · exact .quiet_pure _
  · exact (mirrors_finish s true).seq fun _ => .quiet_pure _

theorem mirrors_close (s : RowStream) :
    Mirrors hooks Issues env [] (s.close : Run σ Unit) s.close (Quiet Unfailed) := by
  unfold close
  split
  · exact .quiet_pure _
  · exact (Mirrors.release _ _).seq fun _ => .trace _

theorem mirrors_turn (s : RowStream) (t : Turn) :
    Mirrors hooks Issues env [] (s.turn t : Run σ (Option Poll × RowStream)) (s.turn t)
      (Quiet H) := by
  cases t with
  | poll =>
    refine Mirrors.aborted_bind s.abort fun late => (mirrors_poll s).seq fun polled => ?_
    exact .of_recount (fun _ _ _ => rfl) fun _ => ⟨rfl, fun _ heq => nomatch heq⟩
  | abort => exact Mirrors.now_bind fun _ => .quiet_pure _
  | elapse time =>
    refine Mirrors.settle.seq fun _ => Mirrors.read_bind ?_
    refine Mirrors.seq (.of_modify fun st h ms => ?_) fun _ => .quiet_pure _
    exact State.advance_recount h ms st env.source (st.now + time)

theorem mirrors_watch (s : RowStream) (turns : List Turn) :
    Mirrors hooks Issues env [] (s.watch turns : Run σ (List Poll × RowStream)) (s.watch turns)
      (Quiet H) := by
  induction turns generalizing s with
  | nil => exact .quiet_pure _
  | cons t turns ih =>
    exact (mirrors_turn s t).seq fun _ => (ih _).seq fun _ => .quiet_pure _

theorem mirrors_leave (s : RowStream) (leaving : Leaving) :
    Mirrors hooks Issues env [] (s.leave leaving : Run σ Unit) (s.leave leaving)
      (Quiet Unfailed) := by
  cases leaving with
  | kept => exact .quiet_pure ()
  | closed => exact mirrors_close s
  | dropped => exact mirrors_drop s

end RowStream

/-- Opens a stream, takes some turns with it, and leaves it. -/
def Client.streaming (c : Client) (q : Query) (abort : Option ℕ) (turns : List Turn)
    (leaving : Leaving) : Run σ (Except Error (List Poll)) := do
  match ← Run.attempt (c.stream q abort) with
  | .error e => return .error e
  | .ok s =>
    let (polls, s) ← s.watch turns
    s.leave leaving
    return .ok polls

/-- The error of an outcome is shown to hooks, once, and nothing else is. -/
def Client.Streamed (operation : String) : Reporting (Except Error α) := fun o failures =>
  match o with
  | .ok (.error e) => failures.map ErrorEvent.brief = [(operation, e)]
  | .ok (.ok _) => failures = []
  | .error halt => failures = [] ∧ Unfailed halt

theorem Client.streamed_attempted {operation : String} (o : Except Halt RowStream)
    (failures : List ErrorEvent) (h : ReportedOpening operation o failures) :
    Streamed operation (attempted o) failures := by
  cases o with
  | ok stream => exact h
  | error halt =>
    cases halt with
    | failed e => exact h
    | _ => exact ⟨h, fun _ => Halt.noConfusion⟩

/-- **Streaming.**  Of the errors of a stream hooks are only shown the one with which it is not
opened. -/
theorem Client.mirrors_streaming (c : Client) (q : Query) (abort : Option ℕ) (turns : List Turn)
    (leaving : Leaving) (env : Env σ) :
    Mirrors c.hooks (c.Issues q) env [] (c.streaming q abort turns leaving)
      (c.unobserved.streaming q abort turns leaving) (Streamed q.operation.name) := by
  unfold streaming
  refine ((c.mirrors_stream q abort env).attempt streamed_attempted).bind (fun o failures h => ?_)
    fun _ _ h => h
  cases o with
  | error e => exact .pure (by rwa [List.append_nil])
  | ok stream =>
    obtain rfl : failures = [] := h
    refine (RowStream.mirrors_watch stream turns).andThen (fun polled => ?_)
      fun _ hhalt => ⟨rfl, hhalt⟩
    exact (RowStream.mirrors_leave polled.2 leaving).andThen (fun _ => .pure rfl)
      fun _ hhalt => ⟨rfl, hhalt⟩

/-! ## What hooks can do -/

/-- A run under observation comes to the same as one without.  Every statement that it sends for its
query comes right after an event of its own, and every event is passed on to each hook in turn. -/
structure Observes (c : Client) (q : Query) (env : Env σ) (s : State σ)
    (observed bare : Run σ α) : Prop where
  outcome : (observed.exec env s).1 = (bare.exec env s).1
  /-- The states left differ only in what has happened. -/
  state : ∃ h ms, (observed.exec env s).2 = (bare.exec env s).2.under h ms
  journal : (observed.exec env s).2.history.filterMap Event.journal? =
    (bare.exec env s).2.history.filterMap Event.journal?
  news : ∃ news, (observed.exec env s).2.history = s.history ++ news ∧
    Announced c.hooks (c.Issues q) news ∧ Delivered c.hooks (c.Issues q) news

theorem observes_of_mirrors {c : Client} {q : Query} {env : Env σ} {r₁ r₂ : Run σ α}
    {Φ : Reporting α} (h : Mirrors c.hooks (c.Issues q) env [] r₁ r₂ Φ) (s : State σ) :
    Observes c q env s r₁ r₂ := by
  obtain ⟨o, s', l₁, m₁, l₂, m₂, failures, he₁, he₂, ha, -⟩ :=
    h s s.history s.moments s.history s.moments
  have hunder : s.under s.history s.moments = s := rfl
  rw [hunder] at he₁ he₂
  refine ⟨?_, ⟨s.history ++ l₁, m₁, ?_⟩, ?_, l₁, ?_, ha.announced, ha.delivered⟩
  · rw [he₁, he₂]
  · rw [he₁, he₂]
    rfl
  · rw [he₁, he₂]
    exact (List.filterMap_append ..).trans <|
      (congrArg _ ha.journal_eq).trans (List.filterMap_append ..).symm
  · rw [he₁]
    rfl

/-- **Whatever hooks do, they only observe**: a call comes to the same as without them, and the same
happens to connections.  Every statement of its query comes right after an event of its own, whose
name tells the statement of the query from the one that counts its rows, and each hook in turn is
shown every event. -/
theorem hooks_only_observe (c : Client) (q : Query) (abort : Option ℕ) (env : Env σ)
    (s : State σ) :
    Observes c q env s (c.execute q abort) (c.unobserved.execute q abort) ∧
    (∀ turns leaving, Observes c q env s (c.streaming q abort turns leaving)
      (c.unobserved.streaming q abort turns leaving)) ∧
    ∀ operation kind sql values, c.Issues q operation kind sql values →
      kind ≠ .batch ∧ sql ≠ limitStatement ∧
      (∀ statement, compile c.config.safety q = .ok statement → sql = statement.text →
        operation = q.operation.name) ∧
      ∀ mode counting, q.count = some mode → compileCount c.config.safety q mode = .ok counting →
        sql = counting.text → operation = "count" := by
  refine ⟨observes_of_mirrors (c.mirrors_execute q abort env) s, fun turns leaving =>
    observes_of_mirrors (c.mirrors_streaming q abort turns leaving env) s, ?_⟩
  intro operation kind sql values h
  have hsilent := h.not_isSilent 0
  simp only [Event.isSilent, Bool.or_eq_true, decide_eq_true_eq, not_or] at hsilent
  exact ⟨hsilent.1, hsilent.2, h.operation_eq⟩

/-- A client with a hook that panics and one that refuses everything. -/
def disturbed : Client where
  hooks := [fun _ => { failure := some .panicked },
    fun _ => { failure := some (.refused ⟨.hook "no", []⟩) }]

/-- The selection of all users, and how many there are. -/
def countedUsers : Query := { allUsers with count := some .exact }

/-- A statement, what hooks are shown before it, and how much an entry of the log matters. -/
def Event.caption? : Event → Option String
  | .shown (.statement e) => some e.operation
  | .sent _ _ sql _ => some sql
  | .traced t => some t.level.name
  | _ => none

theorem hooks_only_observe_of_disturbed :
    Observes disturbed countedUsers ⟨Script.source, []⟩ { source := {} }
        (disturbed.execute countedUsers none) (disturbed.unobserved.execute countedUsers none) ∧
      ((disturbed.execute countedUsers none).exec ⟨Script.source, []⟩
        { source := {} }).2.history.filterMap Event.caption? =
          ["select", "WARN", "WARN", "SELECT * FROM \"public\".\"users\"",
            "count", "WARN", "WARN",
            "SELECT COUNT(*) AS \"count\" FROM \"public\".\"users\""] :=
  ⟨(hooks_only_observe disturbed countedUsers none ⟨Script.source, []⟩ { source := {} }).1,
    by decide +kernel⟩

end Session

end QueryClient
