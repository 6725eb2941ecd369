/-
  Errors as JSON with all that is known about them: the status, the causes, and whether the
  error is passing.
-/
import QueryClient.Error.Retry
import QueryClient.Json.Basic

namespace QueryClient

/-- A failure with the detail of its causes. -/
def Failure.detail (f : Failure) (isRetriable : Bool) (causes : Option Json) : Json :=
  .object ([("error", .str f.code.name), ("message", .str f.message)] ++
    (f.status?.map fun s => ("status", Json.str s)).toList ++
    (causes.map fun c => ("cause", c)).toList ++
    (if isRetriable then [("retriable", .bool true)] else []))

/-- The detail of a chain of causes, if there are any.  What lies behind an error of the driver,
of the server or of the system is not told. -/
def causesDetail? : List Link → Option Json
  | [] => none
  | .failure f :: rest =>
    some (f.detail (Error.isRetriable ⟨f, rest⟩) (causesDetail? rest))
  | .driver e :: _ => some (.object [("pg", .str e.message), ("closed", .bool e.isClosed)])
  | .server r :: _ => some (.object [("dberror", .str r.text)])
  | .system e :: _ => some (.object [("io", .str e.message)])
  | .other text :: rest =>
    some (.object (("other", .str text) ::
      ((causesDetail? rest).map fun c => ("source", c)).toList))

/-- The detail of an error. -/
def Error.detail (e : Error) : Json :=
  e.failure.detail e.isRetriable (causesDetail? e.causes)

end QueryClient
