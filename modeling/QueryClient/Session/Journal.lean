/-
  What happened, as JSON.
-/
import QueryClient.Error.Detail
import QueryClient.Session.Event
import QueryClient.Value.Tagged

namespace QueryClient

/-- What hooks are shown, as JSON. -/
def HookEvent.toJson : HookEvent → Json
  | .statement e =>
    .object [("before", .str e.operation), ("sql", .str e.sql),
      ("params", .arr (e.params.map Json.exact))]
  | .failure e =>
    .object [("on_error", .str e.operation),
      ("sql", match e.sql with
        | some sql => .str sql
        | none => .null),
      ("detail", e.error.detail)]

namespace Session

def StatementKind.name : StatementKind → String
  | .query => "query"
  | .execute => "execute"
  | .stream => "stream"
  | .batch => "batch"

/-- An event with the connection that it is about. -/
def onConnection (event : String) (conn : Nat) (more : List (String × Json)) : Json :=
  .object ([("ev", .str event), ("conn", .int conn)] ++ more)

namespace Event

/-- What happened to connections, as JSON. -/
def journal? : Event → Option Json
  | .acquired conn => some (onConnection "acquire" conn [])
  | .acquireFailed => some (.object [("ev", .str "acquire_failed")])
  | .sent kind conn sql values =>
    some (onConnection kind.name conn
      [("sql", .str sql), ("params", .arr (values.map Value.tagged))])
  | .cancelled conn => some (onConnection "cancel" conn [])
  | .released conn => some (onConnection "release" conn [])
  | .closed => some (.object [("ev", .str "close")])
  | .acquiring | .traced _ | .shown _ => none

def trace? : Event → Option Trace
  | .traced t => some t
  | _ => none

def shown? : Event → Option HookEvent
  | .shown e => some e
  | _ => none

end Event

end Session

end QueryClient
