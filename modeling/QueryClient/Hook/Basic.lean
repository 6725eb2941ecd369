/-
  Hooks: observers of the statements that are sent and of the calls that fail.

  A hook cannot influence a call.  What it is shown of bound values is their JSON without
  anything that looks like a secret, and a hook that refuses or panics leaves an entry in the
  log and nothing else.

  * `dispatch` shows an event to all hooks and collects the entries that they leave.
-/
import QueryClient.Error.Basic
import QueryClient.Hook.Trace
import QueryClient.Json.Redaction
import QueryClient.Value

namespace QueryClient

/-- A statement that is about to be sent. -/
structure StatementEvent where
  operation : String
  sql : String
  /-- The bound values as JSON, without secrets. -/
  params : List Json

/-- A call that failed. -/
structure ErrorEvent where
  operation : String
  /-- The statement, if the call came to having one. -/
  sql : Option String
  error : Error

/-- What hooks are shown. -/
inductive HookEvent where
  | statement (e : StatementEvent)
  | failure (e : ErrorEvent)

/-- The event for a statement with its bound values. -/
def StatementEvent.of (operation sql : String) (values : List Value) : StatementEvent :=
  ⟨operation, sql, values.map fun v => v.toJson.redact⟩

/-- How a hook fails. -/
inductive HookFailure where
  | refused (e : Error)
  | panicked

/-- What a hook makes of an event: entries of the log, and maybe a failure. -/
structure HookOutcome where
  traces : List Trace := []
  failure : Option HookFailure := none

/-- An observer. -/
abbrev Hook := HookEvent → HookOutcome

namespace HookFailure

/-- A failed hook as an error. -/
def error : HookFailure → Error
  | .refused e => ⟨.hook e.message, []⟩
  | .panicked => ⟨.hook "hook panicked", []⟩

/-- What the log says of a hook that failed. -/
def message : String := "query hook failed"

/-- The entry that a failed hook leaves. -/
def trace (f : HookFailure) : Trace :=
  .ofCall .warn message [("error", .str f.error.message)]

end HookFailure

/-- The entries that a hook leaves. -/
def HookOutcome.allTraces (o : HookOutcome) : List Trace :=
  o.traces ++ (o.failure.map HookFailure.trace).toList

/-- Shows an event to all hooks in order. -/
def dispatch (hooks : List Hook) (event : HookEvent) : List Trace :=
  hooks.flatMap fun hook => (hook event).allTraces

end QueryClient
