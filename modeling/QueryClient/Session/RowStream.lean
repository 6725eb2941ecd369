/-
  Streams of rows.

  A stream holds a connection.  It gives its rows one by one, then at most one error, and then
  nothing.  It lets go of the connection when its rows run out, when it fails, and when it is
  closed or dropped; the server is asked to stop if there could have been more rows.

  * `Client.stream` opens a stream;
  * `RowStream.poll` is what a stream gives at the present moment, and `RowStream.next` waits
    for it;
  * `RowStream.close` and `RowStream.drop` end a stream.
-/
import QueryClient.Session.Connection
import QueryClient.Statement.Compile

namespace QueryClient.Session

/-- What a stream gives. -/
inductive Item where
  | row (r : Row)
  | failed (e : Error)
  /-- There are no more rows. -/
  | ended
  /-- There is no row yet. -/
  | pending

/-- A stream of rows. -/
structure RowStream where
  lease : Lease
  /-- The answers to the requests for the further rows. -/
  rows : List (Answer Row)
  /-- When the next row was asked for. -/
  asked : Option Nat := none
  /-- When the caller aborts, if that is settled. -/
  abort : Option Nat
  /-- Whether the stream has come to an end. -/
  done : Bool := false

variable {σ α : Type}

namespace RowStream

/-- Ends a stream; an interrupted one has the server stop. -/
def finish (s : RowStream) (interrupted : Bool) : Run σ RowStream := do
  ({ s.lease with cancel := interrupted } : Lease).discard
  return { s with rows := [], done := true }

/-- When the next row comes, if `now` is the moment at which it is asked for at the latest. -/
def due (s : RowStream) (now : Nat) : Option Nat :=
  s.rows.head?.bind fun answer => answer.wait.map (s.asked.getD now + ·)

/-- What the stream gives at the present moment.  That the caller aborts counts more than a row
that has come. -/
def poll (s : RowStream) : Run σ (Item × RowStream) := do
  if s.done then return (.ended, s)
  else if ← aborted s.abort then
    return (.failed (.aborted "stream aborted by caller"), ← s.finish true)
  else
    let now ← Run.now
    match s.rows with
    | [] => return (.ended, ← s.finish false)
    | answer :: rest =>
      if (s.due now).any (· ≤ now) then
        match answer.result with
        | .ok row => return (.row row, { s with rows := rest, asked := none })
        | .error e => return (.failed e, ← s.finish false)
      else return (.pending, { s with asked := some (s.asked.getD now) })

/-- What the stream gives within some time. -/
def next (s : RowStream) (patience : Nat) : Run σ (Item × RowStream) := do
  match ← s.poll with
  | (.pending, s) => do
    let now ← Run.now
    let wake := ((s.due now).toList ++ s.abort.toList).foldl min (now + patience)
    Run.wait (some (wake - now))
    s.poll
  | polled => return polled

/-- Closes a stream; this waits until its connection is as before. -/
def close (s : RowStream) : Run σ Unit := do
  unless s.done do
    s.lease.release true
    Run.trace (.debug "stream closed")

/-- Gives a stream up. -/
def drop (s : RowStream) : Run σ Unit := do
  unless s.done do
    let _ ← s.finish true

end RowStream

namespace Client

/-- Fails with an error that the hooks are shown. -/
def fail (c : Client) (operation : String) (sql : Option String) (e : Error) : Run σ α := do
  c.showFailure operation sql e
  Run.fail e

/-- Opens the stream of the rows of a statement. -/
def streamStatement (c : Client) (operation : String) (statement : Statement)
    (abort : Option Nat) : Run σ RowStream := do
  match ← Run.attempt (c.connection abort) with
  | .error e => c.fail operation (some statement.text) e
  | .ok conn =>
    let lease := c.lease conn true
    let opening : Run σ (List (Answer Row)) := do
      c.applyLimit conn
      c.showStatement operation statement.text statement.values
      interruptible conn abort (openStream conn statement.text statement.values)
    match ← (Run.attempt opening).onHalt lease.discard with
    | .error e =>
      lease.release false
      c.fail operation (some statement.text) e
    | .ok rows =>
      Run.trace (.ofCall .debug "stream opened" [("sql", .str statement.text)])
      return { lease, rows, abort }

/-- Opens the stream of the rows of a query, which has to be a selection. -/
def stream (c : Client) (q : Query) (abort : Option Nat) : Run σ RowStream := do
  let operation := q.operation.name
  match q.operation with
  | .select _ =>
    if ← aborted abort then
      c.fail operation none (.aborted "stream aborted before execution")
    else
      match Statement.compile c.config.safety q with
      | .error e => c.fail operation none e
      | .ok statement => c.streamStatement operation statement abort
  | _ =>
    c.fail operation none (.validation (operation ++ " cannot be streamed; use select"))

end Client

end QueryClient.Session
