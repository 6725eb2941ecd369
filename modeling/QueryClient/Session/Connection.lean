/-
  Connections in use: how a call comes by one, what it does with it, and how it lets go.

  A caller may abort a call at some moment.  What has come by that moment counts; what a call
  waits for longer is given up (`race`), and a call that starts something after the moment
  does not get to it.

  A call holds its connection by a lease.  A lease ends with the cleanup that its connection
  needs, and a call that is given up leaves that to a cleanup that goes on beside the calls.
-/
import QueryClient.Session.Client

namespace QueryClient.Session

variable {σ α β : Type}

/-! ## Calls that can be aborted -/

/-- Whether the moment at which the caller aborts, if it does, has come. -/
def aborted (abort : Option Nat) : Run σ Bool := do
  let now ← Run.now
  return abort.any (· ≤ now)

/-- Asks for something and waits for the answer, which `finish` gets; but `stop` goes on if the
caller aborts before. -/
def race (abort : Option Nat) (ask : Run σ (Answer α)) (finish : Except Error α → Run σ β)
    (stop : Run σ β) : Run σ β := do
  if ← aborted abort then stop
  else
    let answer ← ask
    let now ← Run.now
    match abort.filter fun t => !answer.wait.any (now + · ≤ t) with
    | some t => do
      Run.wait (some (t - now))
      stop
    | none => do
      Run.wait answer.wait
      finish answer.result

/-! ## Statements -/

/-- The statement that limits the time of the statements of a session, or of a transaction. -/
def limitStatement : String := "SELECT set_config('statement_timeout', $1, $2)"

def query (conn : Nat) (sql : String) (values : List Value) : Run σ (Answer (List Row)) :=
  Run.request [.sent .query conn sql values] fun source => source.query conn sql values

def execute (conn : Nat) (sql : String) (values : List Value) : Run σ (Answer Nat) :=
  Run.request [.sent .execute conn sql values] fun source => source.execute conn sql values

def openStream (conn : Nat) (sql : String) (values : List Value) :
    Run σ (Answer (List (Answer Row))) :=
  Run.request [.sent .stream conn sql values] fun source => source.stream conn sql values

def batch (conn : Nat) (sql : String) : Run σ Unit := do
  Run.await (← Run.request [.sent .batch conn sql []] fun source => source.batch conn sql)

/-- Limits the time of the statements that follow. -/
def limitTime (conn : Nat) (limit : Duration) (inTransaction : Bool) : Run σ Unit := do
  let values := [.text (toString limit.millis ++ "ms"), .bool inTransaction]
  let _ ← Run.await (← query conn limitStatement values)

/-- Goes through the steps of a cleanup and waits for each. -/
def cleanUp (conn : Nat) (steps : List CleanupStep) : Run σ Unit :=
  steps.forM fun step => do
    let env ← read
    let answer ← modifyGet (State.startStep env.source conn step)
    Run.wait answer.wait
    modify fun s => s.endStep step answer.result

/-- Waits for the answer to a statement.  If the caller aborts before it comes, the server is
asked to stop. -/
def interruptible (conn : Nat) (abort : Option Nat) (ask : Run σ (Answer α)) : Run σ α :=
  race abort ask Run.ofExcept do
    cleanUp conn [.cancel]
    Run.fail (.aborted "query aborted by caller")

/-! ## Leases -/

/-- A connection that a call holds. -/
structure Lease where
  conn : Nat
  /-- Whether it belongs to a transaction, which keeps it. -/
  shared : Bool
  /-- Whether the time limit of the session has to be restored. -/
  reset : Bool
  /-- Whether the server is asked to stop if the call is given up. -/
  cancel : Bool

/-- Takes a connection from the source. -/
def acquire (abort : Option Nat) : Run σ Nat :=
  race abort (Run.request [.acquiring] Source.acquire)
    (fun
      | .ok _ => modifyGet State.hold
      | .error e => do
        Run.log .acquireFailed
        Run.fail e)
    (Run.fail (.aborted "aborted while acquiring a connection"))

/-- The connection for a call: that of the transaction, or a new one. -/
def Client.connection (c : Client) (abort : Option Nat) : Run σ Nat :=
  match c.transaction with
  | some conn =>
    race abort (pure (.now (.ok conn))) Run.ofExcept
      (Run.fail (.aborted "aborted while acquiring a connection"))
  | none => acquire abort

namespace Lease

/-- Lets go of the connection. -/
def letGo (l : Lease) : Run σ Unit := do
  unless l.shared do
    modify (·.letGo l.conn)

/-- Gives the lease up, and leaves what has to be done to a cleanup. -/
def discard (l : Lease) : Run σ Unit := do
  let steps := cleanupSteps l.cancel l.reset
  unless steps.isEmpty do
    modify (·.spawn l.conn steps)
  l.letGo

/-- Ends the lease: asks the server to stop if `interrupted`, restores the session, and lets go
of the connection. -/
def release (l : Lease) (interrupted : Bool) : Run σ Unit := do
  (cleanUp l.conn (cleanupSteps interrupted l.reset)).onHalt l.discard
  l.letGo

/-- Does something under the lease and ends it. -/
def use (l : Lease) (body : Run σ α) : Run σ α := do
  let result ← (Run.attempt body).onHalt l.discard
  l.release false
  Run.ofExcept result

end Lease

namespace Client

/-- Whether calls change the time limit of a session. -/
def limitsSession (c : Client) : Bool :=
  c.config.safety.statementTimeout.isSome && !c.inTransaction

/-- A lease on a connection. -/
def lease (c : Client) (conn : Nat) (cancel : Bool) : Lease :=
  { conn, shared := c.inTransaction, reset := c.limitsSession, cancel }

/-- Limits the time of statements, if the settings say so; a failure does not matter to the
call. -/
def applyLimit (c : Client) (conn : Nat) : Run σ Unit :=
  match c.config.safety.statementTimeout with
  | none => pure ()
  | some limit => do
    match ← Run.attempt (limitTime conn limit c.inTransaction) with
    | .ok _ => pure ()
    | .error e => Run.trace (.debugError "failed to apply statement_timeout" e.message)

end Client

end QueryClient.Session
