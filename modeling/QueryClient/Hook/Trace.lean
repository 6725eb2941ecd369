/-
  Entries of the log that a client writes.
-/
import QueryClient.Json.Basic

namespace QueryClient

/-- How much an entry matters. -/
inductive Level where
  | error | warn | info | debug | trace
  deriving DecidableEq, Repr

def Level.name : Level → String
  | .error => "ERROR"
  | .warn => "WARN"
  | .info => "INFO"
  | .debug => "DEBUG"
  | .trace => "TRACE"

/-- An entry of the log: where it belongs, and its named fields. -/
structure Trace where
  level : Level
  target : String
  fields : List (String × Json)

namespace Trace

/-- Where entries about calls belong. -/
def clientTarget : String := "pgchain"

/-- Where entries about statements belong. -/
def statementTarget : String := "pgchain.sql"

/-- An entry about a call: a message and other fields. -/
def ofCall (level : Level) (message : String) (fields : List (String × Json)) : Trace :=
  ⟨level, clientTarget, ("message", .str message) :: fields⟩

/-- An entry of little weight. -/
def debug (message : String) : Trace := ofCall .debug message []

/-- An entry about an error that does not matter to the caller. -/
def debugError (message error : String) : Trace :=
  ofCall .debug message [("error", .str error)]

/-- An entry as JSON. -/
def toJson (t : Trace) : Json :=
  .object [("level", .str t.level.name), ("target", .str t.target), ("fields", .object t.fields)]

end Trace

end QueryClient
