/-
  Scenarios: what a caller does with a client, step by step, and what comes of it.

  A caller waits a minute for a call and a second for a row of a stream.  Between the steps the
  cleanups go on as far as they can.

  * `Scenario.play` plays a list of steps against a script.
-/
import QueryClient.Session.Execute
import QueryClient.Session.RowStream
import QueryClient.Session.Script
import QueryClient.Session.Transaction

namespace QueryClient.Session.Scenario

/-! ## Steps -/

/-- How long a caller waits for a call. -/
def callPatience : Duration := .ofMillis 60000

/-- How long a caller waits for a row. -/
def rowPatience : Duration := .ofMillis 1000

/-- A query that is executed. -/
structure Execution where
  query : Query
  /-- After which time the caller aborts. -/
  abort : Option Duration := none
  /-- After which time the caller gives the call up. -/
  patience : Duration := callPatience
  /-- How the data is read. -/
  read : Json.Reader Json := .ok

/-- What is done with a stream. -/
inductive StreamOp where
  | next | close | drop
  /-- Aborts the stream, if the caller can. -/
  | abort
  deriving DecidableEq, Repr

/-- A query whose rows are streamed. -/
structure Streaming where
  query : Query
  /-- After which time the caller aborts. -/
  abort : Option Duration := none
  /-- Whether the caller can abort by a step. -/
  abortable : Bool := false
  ops : List StreamOp := []

/-- What is done with a client, also in a transaction. -/
inductive Action where
  | execute (e : Execution)
  | stream (s : Streaming)
  | close
  /-- A transaction that does nothing. -/
  | emptyTransaction

/-- What the callback of a transaction does after its actions. -/
inductive Ending where
  | value (j : Json)
  | failure (e : Error)
  | panic (text : String)

/-- A step of a caller. -/
inductive Step where
  | action (a : Action)
  /-- A transaction with some actions, each with whether its failure makes the callback fail at
  once. -/
  | transaction (actions : List (Action × Bool)) (ending : Ending)

/-! ## What comes of them -/

/-- What comes of an operation on a stream. -/
inductive OpResult where
  | item (i : Item)
  | closed
  | nothing
  /-- The stream had been closed or dropped before. -/
  | gone

/-- An operation on a stream and what came of it. -/
structure OpReport where
  op : StreamOp
  result : OpResult
  /-- What has happened since the last report. -/
  events : List Event
  /-- Whether the stream has come to an end, while there is one. -/
  done : Option Bool

/-- What comes of an action. -/
inductive Answered where
  | response (r : Response Json)
  /-- The caller gave up. -/
  | dropped
  | opened (ops : List OpReport)
  /-- The stream was not opened. -/
  | refused (e : Error)
  | closed (inTransaction : Bool)
  /-- A transaction that does nothing, and whether its callback ran. -/
  | emptyTransaction (r : Response Json) (called : Bool)

/-- What comes of a step. -/
inductive StepAnswer where
  | action (a : Answered)
  | transaction (r : Response Json) (actions : List Answered)
  | transactionDropped (actions : List Answered)
  | transactionPanicked (text : String) (actions : List Answered)

/-- A step and what came of it. -/
structure StepReport where
  answer : StepAnswer
  /-- How long the caller waited. -/
  elapsed : Duration
  /-- What happened. -/
  events : List Event
  /-- What happened after the last operation on a stream. -/
  tail : List Event

/-- The error that an action failed with. -/
def Answered.error? : Answered → Option Error
  | .response r | .emptyTransaction r _ => r.error
  | .refused e => some e
  | _ => none

/-! ## Playing -/

/-- A source with what is noted down meanwhile. -/
structure Stage (σ : Type) where
  base : σ
  /-- How much of what has happened is reported. -/
  reported : Nat := 0
  /-- What came of the actions of a transaction. -/
  answers : List Answered := []

variable {σ : Type}

/-- A request on the base. -/
def onBase {α : Type} (ask : σ → α × σ) (s : Stage σ) : α × Stage σ :=
  let (answer, base) := ask s.base
  (answer, { s with base })

/-- A source whose state is on a stage. -/
def Stage.source (source : Source σ) : Source (Stage σ) where
  acquire := onBase source.acquire
  query conn sql values := onBase (source.query conn sql values)
  execute conn sql values := onBase (source.execute conn sql values)
  stream conn sql values := onBase (source.stream conn sql values)
  batch conn sql := onBase (source.batch conn sql)
  cancel conn := onBase (source.cancel conn)
  close s := { s with base := source.close s.base }

/-- What has happened since the last report. -/
def report : Run (Stage σ) (List Event) := do
  let s ← get
  set { s with source := { s.source with reported := s.history.length } }
  return s.history.drop s.source.reported

def note (a : Answered) : Run (Stage σ) Unit :=
  modify fun s => { s with source := { s.source with answers := s.source.answers ++ [a] } }

/-- The moment after some time from now. -/
def after (time : Option Duration) : Run (Stage σ) (Option Nat) := do
  let now ← Run.now
  return time.map (now + ·.nanos)

def execute (c : Client) (e : Execution) : Run (Stage σ) Answered := do
  let abort ← after e.abort
  match ← Run.within e.patience.nanos (c.executeAs e.read e.query abort) with
  | some r => return .response r
  | none => return .dropped

/-- Does something with a stream, and gives the stream that there is then. -/
def streamOp (abortable : Bool) (op : StreamOp) (stream : Option RowStream) :
    Run (Stage σ) (OpResult × Option RowStream) := do
  match op, stream with
  | .abort, none => return (.nothing, none)
  | _, none => return (.gone, none)
  | .next, some s =>
    let (item, s) ← (s.next rowPatience.nanos).onHalt s.drop
    return (.item item, some s)
  | .close, some s =>
    s.close
    return (.closed, none)
  | .drop, some s =>
    s.drop
    return (.nothing, none)
  | .abort, some s =>
    let now ← Run.now
    return (.nothing, some (if abortable then { s with abort := some now } else s))

/-- Does what is to be done with a stream, and drops it if it is left. -/
def streamOps (abortable : Bool) : List StreamOp → Option RowStream →
    Run (Stage σ) (List OpReport)
  | [], stream => do
    stream.forM RowStream.drop
    return []
  | op :: ops, stream => do
    let (result, stream) ← streamOp abortable op stream
    Run.settle
    let first := { op, result, events := ← report, done := stream.map (·.done) }
    return first :: (← streamOps abortable ops stream)

def stream (c : Client) (s : Streaming) : Run (Stage σ) Answered := do
  let abort ← after s.abort
  match ← Run.within callPatience.nanos (Run.attempt (c.stream s.query abort)) with
  | none => return .dropped
  | some (.error e) => return .refused e
  | some (.ok stream) => return .opened (← streamOps s.abortable s.ops (some stream))

def act (c : Client) : Action → Run (Stage σ) Answered
  | .execute e => execute c e
  | .stream s => stream c s
  | .close => do
    c.close
    return .closed c.inTransaction
  | .emptyTransaction => do
    let r ← c.transact fun _ => .ok (return Json.null)
    return .emptyTransaction r r.error.isNone

/-- The actions in a transaction, up to one whose failure counts. -/
def actAll (c : Client) : List (Action × Bool) → Run (Stage σ) Unit
  | [] => return
  | (a, propagate) :: rest => do
    let answered ← act c a
    note answered
    match answered.error? with
    | some e => if propagate then Run.fail e else actAll c rest
    | none => actAll c rest

/-- The callback of a transaction. -/
def callback (actions : List (Action × Bool)) (ending : Ending) : Callback (Stage σ) Json :=
  fun c => .ok do
    actAll c actions
    match ending with
    | .value j => return j
    | .failure e => Run.fail e
    | .panic text => throw (.panicked text)

def transaction (c : Client) (actions : List (Action × Bool)) (ending : Ending) :
    Run (Stage σ) StepAnswer := do
  modify fun s => { s with source := { s.source with answers := [] } }
  let answers : Run (Stage σ) (List Answered) := do return (← get).source.answers
  tryCatch
    (do
      match ← Run.within callPatience.nanos (c.transact (callback actions ending)) with
      | some r => return .transaction r (← answers)
      | none => return .transactionDropped (← answers))
    fun
      | .panicked text => do return .transactionPanicked text (← answers)
      | halt => throw halt

def step (c : Client) : Step → Run (Stage σ) StepAnswer
  | .action a => do return .action (← act c a)
  | .transaction actions ending => transaction c actions ending

/-- Does one step and reports it. -/
def playStep (c : Client) (s : Step) : Run (Stage σ) StepReport := do
  let before ← get
  let answer ← step c s
  let now ← Run.now
  Run.settle
  let tail ← report
  let events := (← get).history.drop before.history.length
  return { answer, elapsed := ⟨now - before.now⟩, events, tail }

/-- Plays some steps against a script. -/
def play (c : Client) (script : Script) (steps : List Step) : Except Halt (List StepReport) :=
  let env : Env (Stage Script) := { source := Stage.source Script.source, deadlines := [] }
  let run : Run (Stage Script) (List StepReport) := steps.mapM (playStep c)
  ((run.run env).run.run { source := { base := script } }).1

end QueryClient.Session.Scenario
