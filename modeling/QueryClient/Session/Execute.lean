/-
  Executing a query.

  A call takes a connection, limits the time of its statements, sends the statement of the
  query, fits the rows to the expected shape, counts rows if the query asks for that, and lets
  go of the connection.  A call that fails for a passing reason is tried again after a delay,
  unless it belongs to a transaction.

  * `Shape.fit` says which numbers of rows are expected;
  * `Client.attempt` is one attempt, `Client.retry` all of them;
  * `Client.execute` is the call.
-/
import QueryClient.Error.Retry
import QueryClient.Hook.Tracing
import QueryClient.Session.Connection
import QueryClient.Statement.Compile
import QueryClient.Statement.Plan

namespace QueryClient

/-- The data that rows are given back as: all of them, or the only one. -/
def Shape.fit (shape : Shape) (rows : List Fields) : Except Error (Option Json) :=
  match shape, rows with
  | .many, rows => .ok (some (.arr (rows.map .obj)))
  | .single, [] => .error ⟨.notFound "expected exactly one row, got none", []⟩
  | .maybeSingle, [] => .ok none
  | _, [row] => .ok (some (.obj row))
  | _, rows => .error (.tooManyRows 1 rows.length)

/-- The name of a mode in the log. -/
def CountMode.label : CountMode → String
  | .exact => "Exact"
  | .planned => "Planned"
  | .estimated => "Estimated"

/-- The number of rows that a counting statement found. -/
def CountMode.read (mode : CountMode) (row : Fields) : Option Int :=
  match mode with
  | .exact => (row.get? Statement.countColumn.name).bind Json.int64?
  | .planned | .estimated => row.head?.bind fun (_, plan) => Statement.planRows? plan

namespace Session

variable {σ α : Type}

/-- What a successful attempt gives: the data, and the number of rows. -/
abbrev Outcome := Option Json × Option Int

/-- A number of rows as far as 63 bits hold it. -/
def countOf (n : Nat) : Int := min n (Number.signedMax 64)

namespace Client

/-! ## One attempt -/

/-- Counts the rows of a query.  Whatever goes wrong only leaves an entry in the log. -/
def count (c : Client) (conn : Nat) (q : Query) (abort : Option Nat) (mode : CountMode) :
    Run σ (Option Int) :=
  match Statement.compileCount c.config.safety q mode with
  | .error e => do
    Run.trace (.debugError "count query not compiled" e.message)
    return none
  | .ok statement => do
    c.showStatement TracingHook.countOperation statement.text statement.values
    match ← Run.attempt (interruptible conn abort (query conn statement.text statement.values))
      with
    | .error e =>
      Run.trace (.debugError "count query failed" e.message)
      return none
    | .ok [] => return none
    | .ok (row :: _) =>
      let n := mode.read row
      if n.isNone then
        Run.trace (.ofCall .debug "count result not understood" [("mode", .str mode.label)])
      return n

/-- Sends the statement of a query, and then the one that counts its rows. -/
def run (c : Client) (conn : Nat) (q : Query) (statement : Statement) (abort : Option Nat) :
    Run σ Outcome := do
  c.showStatement q.operation.name statement.text statement.values
  if q.operation.isMutation && q.returning.isNone then
    let affected ←
      interruptible conn abort (Session.execute conn statement.text statement.values)
    return (none, q.count.map fun _ => countOf affected)
  else
    let rows ← interruptible conn abort (query conn statement.text statement.values)
    let data ← Run.ofExcept (q.shape.fit rows)
    match q.count with
    | none => return (data, none)
    | some mode =>
      if q.operation.isMutation then return (data, some (countOf rows.length))
      else return (data, ← c.count conn q abort mode)

/-- One attempt.  In a transaction the server is not asked to stop when the call is given up:
that could hit a later statement. -/
def attempt (c : Client) (q : Query) (statement : Statement) (abort : Option Nat) :
    Run σ Outcome := do
  let conn ← c.connection abort
  (c.lease conn !c.inTransaction).use do
    c.applyLimit conn
    c.run conn q statement abort

/-! ## All attempts -/

/-- The greatest number of attempts. -/
def maxAttempts (c : Client) : Nat :=
  if c.inTransaction then 1 else max c.config.retry.attempts 1

/-- Notes that an attempt failed and that there will be another one. -/
def traceRetry (c : Client) (operation : String) (number : Nat) (delay : Duration) (e : Error) :
    Run σ Unit :=
  Run.trace (.ofCall .warn "transient failure, retrying" [
    ("operation", .str operation),
    ("attempt", .int number),
    ("max_attempts", .int c.maxAttempts),
    ("backoff_ms", .int (min delay.millis (Number.unsignedMax 64) : Nat)),
    ("error", .str e.message)])

/-- Waits before the next attempt. -/
def backOff (delay : Duration) (abort : Option Nat) : Run σ Unit :=
  race abort (pure ⟨some delay.nanos, .ok ()⟩) Run.ofExcept
    (Run.fail (.aborted "aborted during retry backoff"))

/-- Makes attempt `number` and up to `left` further ones, as long as they fail for a passing
reason. -/
def retry (c : Client) (q : Query) (statement : Statement) (abort : Option Nat) :
    Nat → Nat → Run σ Outcome
  | 0, _ => c.attempt q statement abort
  | left + 1, number => do
    match ← Run.attempt (c.attempt q statement abort) with
    | .ok outcome => return outcome
    | .error e =>
      if e.isRetriable then
        let delay := c.config.retry.delayFor number
        c.traceRetry q.operation.name number delay e
        backOff delay abort
        retry c q statement abort left (number + 1)
      else Run.fail e

/-- Executes a query, and shows the hooks an error that comes of it. -/
def execute (c : Client) (q : Query) (abort : Option Nat) : Run σ (Response Json) := do
  let operation := q.operation.name
  if ← aborted abort then
    c.refuse operation none (.aborted "query aborted before execution")
  else
    match Statement.compile c.config.safety q with
    | .error e => c.refuse operation none e
    | .ok statement =>
      match ← Run.attempt (c.retry q statement abort (c.maxAttempts - 1) 1) with
      | .error e => c.refuse operation (some statement.text) e
      | .ok (data, count) => return .ok data count

/-- Executes a query and reads its data. -/
def executeAs (c : Client) (read : Json.Reader α) (q : Query) (abort : Option Nat) :
    Run σ (Response α) := do
  return (← c.execute q abort).decode read

end Client

end Session

end QueryClient
