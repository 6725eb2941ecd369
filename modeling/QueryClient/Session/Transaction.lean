/-
  Transactions.

  A transaction runs a callback between `BEGIN` and `COMMIT` on one connection.  If the callback
  or the `COMMIT` fails there is a `ROLLBACK`, and the response names the error that brought it
  about.  A panic of the callback's work goes on after the `ROLLBACK`.
-/
import QueryClient.Session.Connection

namespace QueryClient.Session

variable {σ α : Type}

/-- Undoes what a transaction did; a failure only leaves an entry in the log. -/
def rollBack (conn : Nat) : Run σ Unit := do
  match ← Run.attempt (batch conn "ROLLBACK") with
  | .ok _ => Run.trace (.debug "transaction rolled back")
  | .error e => Run.trace (.ofCall .warn "rollback failed" [("error", .str e.message)])

/-- The outcome of the work in a transaction; what a panicking one did is undone first. -/
def workOutcome (conn : Nat) (work : Run σ α) : Run σ (Except Error α) :=
  tryCatch (do return .ok (← work)) fun
    | .failed e => pure (.error e)
    | .panicked text => do
      rollBack conn
      throw (.panicked text)
    | halt => throw halt

/-- What the callback of a transaction is given a client for: the work to do.  It can panic
before there is any. -/
abbrev Callback (σ α : Type) := Client → Except String (Run σ α)

namespace Client

/-- The name under which hooks are shown the failure of a transaction. -/
def transactionOperation : String := "transaction"

/-- The response of a transaction that failed. -/
def refuseTransaction (c : Client) (message : String) (cause : Error) : Run σ (Response α) :=
  c.refuse transactionOperation none (.transaction message cause)

/-- Ends the transaction on a connection. -/
def endTransaction (c : Client) (conn : Nat) : Except Error α → Run σ (Response α)
  | .error e => do
    rollBack conn
    c.refuseTransaction "Transaction failed" e
  | .ok value => do
    match ← Run.attempt (batch conn "COMMIT") with
    | .ok _ =>
      Run.trace (.debug "transaction committed")
      return .ok (some value) none
    | .error e =>
      rollBack conn
      c.refuseTransaction "COMMIT failed" e

/-- Runs a transaction on a connection. -/
def transactionOn (c : Client) (conn : Nat) (callback : Callback σ α) : Run σ (Response α) := do
  match ← Run.attempt (batch conn "BEGIN") with
  | .error e => c.refuseTransaction "BEGIN failed" e
  | .ok _ =>
    Run.trace (.debug "transaction started")
    match callback { c with transaction := some conn } with
    | .error text => throw (.panicked text)
    | .ok work => c.endTransaction conn (← workOutcome conn work)

/-- Runs a callback in a transaction of its own. -/
def transact (c : Client) (callback : Callback σ α) : Run σ (Response α) := do
  if c.inTransaction then
    c.refuse transactionOperation none
      (.validation "nested transactions are not supported")
  else
    match ← Run.attempt (acquire none) with
    | .error e => c.refuseTransaction "failed to acquire a connection" e
    | .ok conn => (c.transactionOn conn callback).ensuring (modify (·.letGo conn))

end Client

end QueryClient.Session
