/-
  Errors and the chains of causes behind them.

  What a caller sees is an `Error`: a `Failure` of one of nine kinds, and the links that led to
  it, the nearest first.  A link is another failure, an error of the database driver, a report
  of the server, an error of the operating system, or any other error with a text.  Every link
  has at most one cause, so a chain is a list.

  * `Link.message` has all wording;
  * `Error.ofThrown` makes an error of a given kind from any chain: it takes over the text of
    the chain's first link and the first status in the chain.
-/
import QueryClient.Text.Blank

namespace QueryClient

open QueryClient.Text

/-- The kinds of failures. -/
inductive ErrorCode where
  | validation | query | connection | transaction | notFound | tooManyRows | decode | hook
  | aborted
  deriving DecidableEq, Repr, Inhabited

/-- The name under which a kind is reported. -/
def ErrorCode.name : ErrorCode → String
  | .validation => "VALIDATION"
  | .query => "QUERY"
  | .connection => "CONNECTION"
  | .transaction => "TRANSACTION"
  | .notFound => "NOT_FOUND"
  | .tooManyRows => "TOO_MANY_ROWS"
  | .decode => "DECODE"
  | .hook => "HOOK"
  | .aborted => "ABORTED"

/-- What went wrong, without its cause. -/
inductive Failure where
  /-- Input that is refused before anything is sent. -/
  | validation (message : String)
  /-- A statement that failed, with the status that the server gave. -/
  | query (message : String) (status : Option String)
  | connection (message : String)
  | transaction (message : String)
  /-- One row was expected and there was none. -/
  | notFound (message : String)
  | tooManyRows (message : String)
  /-- A value in a column that could not be read. -/
  | decode (column message : String)
  | hook (message : String)
  /-- The caller gave up. -/
  | aborted (message : String)
  deriving DecidableEq, Repr, Inhabited

namespace Failure

def code : Failure → ErrorCode
  | .validation _ => .validation
  | .query _ _ => .query
  | .connection _ => .connection
  | .transaction _ => .transaction
  | .notFound _ => .notFound
  | .tooManyRows _ => .tooManyRows
  | .decode _ _ => .decode
  | .hook _ => .hook
  | .aborted _ => .aborted

def message : Failure → String
  | .validation m => "Validation error: " ++ m
  | .query m _ => "Query error: " ++ m
  | .connection m => "Connection error: " ++ m
  | .transaction m => "Transaction error: " ++ m
  | .notFound m => "Not found: " ++ m
  | .tooManyRows m => "Too many rows: " ++ m
  | .decode column m => "Decode error on column '" ++ column ++ "': " ++ m
  | .hook m => "Hook error: " ++ m
  | .aborted m => "Aborted: " ++ m

def status? : Failure → Option String
  | .query _ status => status
  | _ => none

/-- Whether a failure of this kind can name a cause. -/
def hasCause : Failure → Bool
  | .query _ _ | .connection _ | .transaction _ | .tooManyRows _ => true
  | _ => false

end Failure

/-- An error as the server reports it. -/
structure ServerReport where
  severity : String
  status : String
  message : String
  detail : Option String
  hint : Option String
  constraint : Option String
  deriving DecidableEq, Repr, Inhabited

/-- The report with its detail and its hint on lines of their own. -/
def ServerReport.text (r : ServerReport) : String :=
  let line (name : String) : Option String → String
    | some s => "\n" ++ name ++ ": " ++ s
    | none => ""
  r.severity ++ ": " ++ r.message ++ line "DETAIL" r.detail ++ line "HINT" r.hint

/-- An error of the driver that talks to the server. -/
inductive DriverError where
  | report (r : ServerReport)
  | closed
  | connect
  | parameter (index : Nat)
  | parameterCount (expected got : Nat)
  | column (index : Nat)
  | settings
  deriving DecidableEq, Repr

namespace DriverError

def message : DriverError → String
  | .report _ => "db error"
  | .closed => "connection closed"
  | .connect => "error connecting to server"
  | .parameter index => "error serializing parameter " ++ toString index
  | .parameterCount expected got =>
    "expected " ++ toString expected ++ " parameters but got " ++ toString got
  | .column index => "error deserializing column " ++ toString index
  | .settings => "invalid connection string"

def report? : DriverError → Option ServerReport
  | .report r => some r
  | _ => none

def isClosed (e : DriverError) : Bool := e = .closed

end DriverError

/-- The kinds of errors of the operating system. -/
inductive SystemErrorKind where
  | addressInUse | addressNotAvailable | alreadyExists | argumentListTooLong | brokenPipe
  | connectionAborted | connectionRefused | connectionReset | crossesDevices | deadlock
  | directoryNotEmpty | executableFileBusy | fileTooLarge | hostUnreachable | interrupted
  | invalidData | invalidFilename | invalidInput | isADirectory | networkDown
  | networkUnreachable | notADirectory | notConnected | notFound | notSeekable | other
  | outOfMemory | permissionDenied | quotaExceeded | readOnlyFilesystem | resourceBusy
  | staleNetworkFileHandle | storageFull | timedOut | tooManyLinks | unexpectedEnd
  | unsupported | wouldBlock | writeZero
  deriving DecidableEq, Repr, Inhabited

/-- The text of an error that has nothing but its kind. -/
def SystemErrorKind.description : SystemErrorKind → String
  | .addressInUse => "address in use"
  | .addressNotAvailable => "address not available"
  | .alreadyExists => "entity already exists"
  | .argumentListTooLong => "argument list too long"
  | .brokenPipe => "broken pipe"
  | .connectionAborted => "connection aborted"
  | .connectionRefused => "connection refused"
  | .connectionReset => "connection reset"
  | .crossesDevices => "cross-device link or rename"
  | .deadlock => "deadlock"
  | .directoryNotEmpty => "directory not empty"
  | .executableFileBusy => "executable file busy"
  | .fileTooLarge => "file too large"
  | .hostUnreachable => "host unreachable"
  | .interrupted => "operation interrupted"
  | .invalidData => "invalid data"
  | .invalidFilename => "invalid filename"
  | .invalidInput => "invalid input parameter"
  | .isADirectory => "is a directory"
  | .networkDown => "network down"
  | .networkUnreachable => "network unreachable"
  | .notADirectory => "not a directory"
  | .notConnected => "not connected"
  | .notFound => "entity not found"
  | .notSeekable => "seek on unseekable file"
  | .other => "other error"
  | .outOfMemory => "out of memory"
  | .permissionDenied => "permission denied"
  | .quotaExceeded => "quota exceeded"
  | .readOnlyFilesystem => "read-only filesystem or storage medium"
  | .resourceBusy => "resource busy"
  | .staleNetworkFileHandle => "stale network file handle"
  | .storageFull => "no storage space"
  | .timedOut => "timed out"
  | .tooManyLinks => "too many links"
  | .unexpectedEnd => "unexpected end of file"
  | .unsupported => "unsupported"
  | .wouldBlock => "operation would block"
  | .writeZero => "write zero"

/-- An error of the operating system: its kind, and a text of its own if it has one. -/
structure SystemError where
  kind : SystemErrorKind
  text : Option String
  deriving DecidableEq, Repr, Inhabited

def SystemError.message (e : SystemError) : String :=
  e.text.getD e.kind.description

/-- One link in a chain of causes. -/
inductive Link where
  | failure (f : Failure)
  | driver (e : DriverError)
  | server (r : ServerReport)
  | system (e : SystemError)
  | other (text : String)
  deriving DecidableEq, Repr

namespace Link

def message : Link → String
  | .failure f => f.message
  | .driver e => e.message
  | .server r => r.text
  | .system e => e.message
  | .other text => text

/-- The status that a link carries. -/
def status? : Link → Option String
  | .failure f => f.status?
  | .driver e => e.report?.map (·.status)
  | .server r => some r.status
  | .system _ | .other _ => none

end Link

/-- A failure and the links behind it, the nearest first. -/
structure Error where
  failure : Failure
  causes : List Link := []
  deriving DecidableEq, Repr, Inhabited

/-- The first status in a chain. -/
def firstStatus? (chain : List Link) : Option String :=
  chain.findSome? Link.status?

namespace Error

def code (e : Error) : ErrorCode := e.failure.code

def message (e : Error) : String := e.failure.message

def status? (e : Error) : Option String := e.failure.status?

/-- The error as a chain that starts with its own failure. -/
def chain (e : Error) : List Link := .failure e.failure :: e.causes

/-- An error with causes, if its kind has room for them. -/
def make (f : Failure) (causes : List Link) : Error :=
  ⟨f, if f.hasCause then causes else []⟩

def validation (message : String) : Error := ⟨.validation message, []⟩

def aborted (message : String) : Error := ⟨.aborted message, []⟩

/-- A failure in a transaction and the error that brought it about. -/
def transaction (message : String) (cause : Error) : Error :=
  ⟨.transaction message, cause.chain⟩

/-- More rows than expected. -/
def tooManyRows (expected got : Nat) : Error :=
  ⟨.tooManyRows ("expected " ++ toString expected ++ ", got " ++ toString got), []⟩

/-- A failure of a given kind with a text, and a status if the kind has one. -/
def failureOf (message : String) (status : Option String) : ErrorCode → Failure
  | .validation => .validation message
  | .query => .query message status
  | .connection => .connection message
  | .transaction => .transaction message
  | .notFound => .notFound message
  | .tooManyRows => .tooManyRows message
  | .decode => .decode "" message
  | .hook => .hook message
  | .aborted => .aborted message

/-- An error of a given kind from a chain.  Its text is that of the first link, or `fallback`
if that is blank. -/
def ofThrown (code : ErrorCode) (fallback : String) (thrown : Link) (rest : List Link) :
    Error :=
  let text := thrown.message
  let message := if (trim text).isEmpty then fallback else text
  make (failureOf message (firstStatus? (thrown :: rest)) code) (thrown :: rest)

/-- The error for one of the driver.  A report gives its text, after the name of the constraint
it is about, and its status; a connection that is closed is a failure of the connection. -/
def ofDriver (e : DriverError) (rest : List Link) : Error :=
  match e with
  | .report r =>
    let message := match r.constraint with
      | some c => c ++ ": " ++ r.message
      | none => r.message
    ⟨.query message (some r.status), .driver e :: rest⟩
  | .closed => ⟨.connection e.message, .driver e :: rest⟩
  | e => ⟨.query e.message none, .driver e :: rest⟩

end Error

end QueryClient
