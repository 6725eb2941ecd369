/-
  The work of a transaction.

  What a callback does with the client of its transaction is a tree: it makes a call, and goes on
  as the reply says, until it has a value, fails, or panics.  A call may be aborted, or given up
  when the patience for it runs out; streams that are still open in the end are dropped.

  * `Work.perform` is the run of some work, and `Work.callback` the callback that does it;
  * `Call.script`: the statements of a call, which are a limit that is local to the transaction, then
    the statement of the query, then the one that counts its rows;
  * `Work.Performs` relates work to its outcomes and to what they send: the statements of one call
    after the other, of each call the first ones of its script;
  * `Request.Scoped`: what calls of a transaction ask for are statements on its connection; a limit
    that is set among them is local to the transaction, and nothing is restored.
-/
import QueryClient.Proofs.Session.Attempts
import QueryClient.Proofs.Statement.Compiled
import QueryClient.Session.RowStream
import QueryClient.Session.Transaction

namespace QueryClient

/-! ## Statements name something -/

namespace Piece

theorem quote_mem_textFrom {i : Ident} {pieces : List Piece} (h : name i ∈ pieces) (n : ℕ) :
    '"' ∈ textFrom n pieces := by
  induction pieces generalizing n with
  | nil => cases h
  | cons p rest ih =>
    rw [textFrom, List.mem_append]
    rcases List.mem_cons.1 h with rfl | h
    · exact Or.inl List.mem_cons_self
    · exact Or.inr (ih h _)

end Piece

open Piece

theorem Compiled.exists_name {safety : Safety} {q : Query} {pieces : List Piece}
    (h : Compiled safety q pieces) : ∃ i, name i ∈ pieces := by
  cases h with
  | @select _ schema | @rpc _ _ schema | @insert _ schema | @upsert _ _ _ schema
  | @update _ schema | @delete schema =>
    exact ⟨schema, by simp [Statement.target, Statement.application, Statement.rowPieces]⟩

theorem Counted.exists_name {q : Query} {mode : CountMode} {pieces : List Piece}
    (h : Counted q mode pieces) : ∃ i, name i ∈ pieces := by
  cases h with
  | @select _ schema | @rpc _ _ schema =>
    exact ⟨schema, by simp [Statement.target, Statement.application]⟩

/-- A text without a quoted name is not that of a statement. -/
theorem Statement.text_ne {s : Statement} (h : ∃ i, name i ∈ s.pieces) {sql : String}
    (hsql : '"' ∉ sql.toList) : s.text ≠ sql := by
  rintro rfl
  obtain ⟨i, hi⟩ := h
  rw [text, String.toList_ofList] at hsql
  exact hsql (quote_mem_textFrom hi 0)

namespace Session

open Run State

variable {σ α : Type}

/-! ## Calls and replies -/

/-- A call on the client of a transaction, or on one of its streams, which are numbered in the
order in which they were opened.  Moments of abortion count from the beginning of the call. -/
inductive Call (σ : Type) where
  | execute (q : Query) (abort patience : Option ℕ)
  | stream (q : Query) (abort patience : Option ℕ)
  | next (stream patience : ℕ)
  | abortStream (stream : ℕ)
  | closeStream (stream : ℕ) (patience : Option ℕ)
  | dropStream (stream : ℕ)
  | close
  /-- A transaction in the transaction. -/
  | transact (callback : Callback σ Json)
  | wait (time : Option ℕ)

inductive Reply where
  | response (r : Response Json)
  | opened (stream : ℕ)
  | refused (e : Error)
  | item (i : Item)
  | done
  /-- The patience ran out. -/
  | givenUp

/-- Gives up on a run when the patience for it runs out. -/
def patiently (patience : Option ℕ) (r : Run σ α) : Run σ (Option α) :=
  match patience with
  | none => do return some (← r)
  | some time => Run.within time r

namespace Call

/-- A stream that was closed or dropped. -/
def finished (s : RowStream) : RowStream := { s with done := true }

/-- Makes a call, with some streams open, and gives the streams that there are then. -/
def answer (c : Client) (streams : List RowStream) : Call σ → Run σ (Reply × List RowStream)
  | .execute q abort patience => do
    let now ← Run.now
    match ← patiently patience (c.execute q (abort.map (now + ·))) with
    | some r => return (.response r, streams)
    | none => return (.givenUp, streams)
  | .stream q abort patience => do
    let now ← Run.now
    match ← patiently patience (Run.attempt (c.stream q (abort.map (now + ·)))) with
    | some (.ok s) => return (.opened streams.length, streams ++ [s])
    | some (.error e) => return (.refused e, streams)
    | none => return (.givenUp, streams)
  | .next i patience =>
    match streams[i]? with
    | none => return (.item .ended, streams)
    | some s => do
      let (item, s) ← s.next patience
      return (.item item, streams.set i s)
  | .abortStream i => do
    let now ← Run.now
    return (.done, streams.modify i fun s => { s with abort := some now })
  | .closeStream i patience =>
    match streams[i]? with
    | none => return (.done, streams)
    | some s => do
      let closed ← patiently patience s.close
      return (if closed.isSome then .done else .givenUp, streams.modify i finished)
  | .dropStream i =>
    match streams[i]? with
    | none => return (.done, streams)
    | some s => do
      s.drop
      return (.done, streams.modify i finished)
  | .close => do
    c.close
    return (.done, streams)
  | .transact callback => do return (.response (← c.transact callback), streams)
  | .wait time => do
    Run.wait time
    return (.done, streams)

/-- The streams that are left to be dropped if a call is halted: one that is being closed takes
care of itself. -/
def leaves (streams : List RowStream) : Call σ → List RowStream
  | .closeStream i _ => streams.modify i finished
  | _ => streams

/-- Whether a call is a transaction. -/
def isTransaction : Call σ → Bool
  | .transact _ => true
  | _ => false

end Call

/-! ## The statements of calls -/

/-- The limit that calls of a transaction set. -/
def limitRequest (conn : ℕ) (limit : Duration) : Request :=
  .statement .query conn limitStatement [.text (toString limit.millis ++ "ms"), .bool true]

namespace Client

variable (c : Client) (conn : ℕ)

/-- The limit that is set before the statement of a call. -/
def limitScript : List Request :=
  (c.config.safety.statementTimeout.map (limitRequest conn)).toList

/-- The statement that counts the rows of a query that reads. -/
def countScript (q : Query) : List Request :=
  match q.count with
  | none => []
  | some mode =>
    if q.operation.isMutation then []
    else
      match Statement.compileCount c.config.safety q mode with
      | .error _ => []
      | .ok statement => [statement.request .query conn]

/-- The statements of a call that executes a query. -/
def executeScript (q : Query) : List Request :=
  match Statement.compile c.config.safety q with
  | .error _ => []
  | .ok statement =>
    c.limitScript conn ++ statement.request (statementKind q) conn :: c.countScript conn q

/-- The statements of a call that streams the rows of a query. -/
def streamScript (q : Query) : List Request :=
  match q.operation, Statement.compile c.config.safety q with
  | .select _, .ok statement => c.limitScript conn ++ [statement.request .stream conn]
  | _, _ => []

end Client

namespace Call

/-- The statements of a call. -/
def script (c : Client) (conn : ℕ) : Call σ → List Request
  | .execute q _ _ => c.executeScript conn q
  | .stream q _ _ => c.streamScript conn q
  | _ => []

/-- The only reply to a transaction in a transaction is that there is no such thing. -/
def Allows : Call σ → Reply → Prop
  | .transact _, reply =>
    reply = .response (.err (.validation "nested transactions are not supported"))
  | _, _ => True

end Call

/-! ## Work -/

/-- What a callback does with its client. -/
inductive Work (σ α : Type) where
  | done (a : α)
  | fail (e : Error)
  | panic (text : String)
  | ask (call : Call σ) (next : Reply → Work σ α)

namespace Work

/-- Does some work with some streams open, and drops those that are left. -/
def perform (c : Client) : Work σ α → List RowStream → Run σ α
  | .done a, streams => do
    streams.forM RowStream.drop
    return a
  | .fail e, streams => do
    streams.forM RowStream.drop
    Run.fail e
  | .panic text, streams => do
    streams.forM RowStream.drop
    throw (.panicked text)
  | .ask call next, streams => do
    let (reply, streams) ←
      (call.answer c streams).onHalt ((call.leaves streams).forM RowStream.drop)
    perform c (next reply) streams

/-- The callback that does some work; it panics if there is only the text of a panic. -/
def callback (plan : Except String (Work σ α)) : Callback σ α :=
  fun c => plan.map fun work => work.perform c []

/-- What can come of some work, and what concerns the connection meanwhile. -/
inductive Performs (c : Client) (conn : ℕ) : Work σ α → Except Halt α → List Happening → Prop
  | done {a} : Performs c conn (.done a) (.ok a) []
  | fail {e} : Performs c conn (.fail e) (.error (.failed e)) []
  | panic {text} : Performs c conn (.panic text) (.error (.panicked text)) []
  | ask {call next reply o t t'} :
    t.map Happening.request? <+: (call.script c conn).map some → call.Allows reply →
      Performs c conn (next reply) o t' → Performs c conn (.ask call next) o (t ++ t')
  /-- The work is given up in the course of a call. -/
  | givenUp {call next halt t} :
    t.map Happening.request? <+: (call.script c conn).map some → halt.givenUp →
      Performs c conn (.ask call next) (.error halt) t

end Work

/-! ## What calls ask for -/

/-- The statements that begin and close a transaction. -/
def brackets : List String := ["BEGIN", "COMMIT", "ROLLBACK"]

/-- A statement on a connection, not one of those without values, that neither begins or closes a
transaction nor restores the limit, and that sets a limit for the transaction only. -/
def Request.Scoped (conn : ℕ) : Request → Prop
  | .statement kind c sql values => c = conn ∧ kind ≠ .batch ∧ sql ∉ brackets ∧
    sql ≠ resetStatement ∧
    (sql = limitStatement → ∃ limit, values = [.text limit, .bool true])
  | _ => False

section
variable {conn : ℕ} {c : Client}

theorem scoped_request {s : Statement} (h : ∃ i, name i ∈ s.pieces) {kind : StatementKind}
    (hkind : kind ≠ .batch) : (s.request kind conn).Scoped conn := by
  have hquoteless : ∀ sql ∈ brackets, '"' ∉ sql.toList := by decide
  exact ⟨rfl, hkind, fun hmem => s.text_ne h (hquoteless _ hmem) rfl, s.text_ne h (by decide),
    fun he => absurd he (s.text_ne h (by decide))⟩

theorem scoped_limitScript : ∀ r ∈ c.limitScript conn, r.Scoped conn := by
  intro r hr
  unfold Client.limitScript at hr
  obtain ⟨limit, -, rfl⟩ := Option.map_eq_some_iff.1 (Option.mem_toList.1 hr)
  exact ⟨rfl, by decide, by decide, by decide, fun _ => ⟨_, rfl⟩⟩

theorem scoped_countScript {q : Query} : ∀ r ∈ c.countScript conn q, r.Scoped conn := by
  intro r hr
  unfold Client.countScript at hr
  split at hr
  · cases hr
  · next mode _ =>
    split at hr
    · cases hr
    · split at hr
      · cases hr
      · next statement hs =>
        rw [List.mem_singleton.1 hr]
        exact scoped_request (counted_of_compileCount hs).exists_name (by decide)

theorem scoped_executeScript {q : Query} : ∀ r ∈ c.executeScript conn q, r.Scoped conn := by
  intro r hr
  unfold Client.executeScript at hr
  split at hr
  · cases hr
  · next statement hs =>
    rcases List.mem_append.1 hr with hr | hr
    · exact scoped_limitScript r hr
    · rcases List.mem_cons.1 hr with rfl | hr
      · refine scoped_request (compiled_of_compile hs).exists_name ?_
        unfold Client.statementKind
        split <;> decide
      · exact scoped_countScript r hr

theorem scoped_streamScript {q : Query} : ∀ r ∈ c.streamScript conn q, r.Scoped conn := by
  intro r hr
  unfold Client.streamScript at hr
  split at hr
  · next statement _ hs =>
    rcases List.mem_append.1 hr with hr | hr
    · exact scoped_limitScript r hr
    · rw [List.mem_singleton.1 hr]
      exact scoped_request (compiled_of_compile hs).exists_name (by decide)
  · cases hr

theorem scoped_script {call : Call σ} : ∀ r ∈ call.script c conn, r.Scoped conn := by
  cases call with
  | execute q abort patience => exact scoped_executeScript
  | stream q abort patience => exact scoped_streamScript
  | _ => exact fun _ hr => nomatch hr

theorem exists_asked_of_prefix {script : List Request} (h : ∀ r ∈ script, r.Scoped conn)
    {t : List Happening} (ht : t.map Happening.request? <+: script.map some) :
    ∀ x ∈ t, ∃ r v, x = .asked r v ∧ r.Scoped conn := by
  intro x hx
  obtain ⟨r, hr, hrequest⟩ := List.mem_map.1 (ht.subset (List.mem_map_of_mem hx))
  cases x with
  | noted e => cases hrequest
  | asked r' v =>
    cases hrequest
    exact ⟨r, v, rfl, h r hr⟩

/-- Work asks for nothing but such statements. -/
theorem Work.Performs.asks {work : Work σ α} {o : Except Halt α} {t : List Happening}
    (h : work.Performs c conn o t) : ∀ x ∈ t, ∃ r v, x = .asked r v ∧ r.Scoped conn := by
  induction h with
  | done | fail | panic => exact fun _ hx => nomatch hx
  | ask ht _ _ ih =>
    intro x hx
    rcases List.mem_append.1 hx with hx | hx
    · exact exists_asked_of_prefix scoped_script ht x hx
    · exact ih x hx
  | givenUp ht _ => exact exists_asked_of_prefix scoped_script ht

end

/-! ## Streams that are open -/

section
variable {streams : List RowStream} {P : RowStream → Prop} (h : ∀ s ∈ streams, P s)
include h

theorem forall_mem_set {s : RowStream} (hs : P s) (i : ℕ) : ∀ s' ∈ streams.set i s, P s' := by
  intro s' hmem
  rcases List.mem_or_eq_of_mem_set hmem with hmem | rfl
  · exact h s' hmem
  · exact hs

theorem forall_mem_modify (f : RowStream → RowStream) (hf : ∀ s, P s → P (f s)) (i : ℕ) :
    ∀ s ∈ streams.modify i f, P s := by
  intro s hmem
  obtain ⟨j, hj⟩ := List.mem_iff_getElem?.1 hmem
  rw [List.getElem?_modify] at hj
  obtain ⟨s', hs', rfl⟩ := Option.map_eq_some_iff.1 hj
  have hP := h s' (List.mem_of_getElem? hs')
  split
  · exact hf s' hP
  · exact hP

/-- What is true of streams whether or not they are done is true of those that a call leaves. -/
theorem forall_mem_leaves (hf : ∀ s, P s → P (Call.finished s)) (call : Call σ) :
    ∀ s ∈ call.leaves streams, P s := by
  unfold Call.leaves
  split
  · exact forall_mem_modify h Call.finished hf _
  · exact h

end

end Session

end QueryClient
