/-
  Responses: what a call gives back.

  A response holds data, which may be absent, or an error, and maybe a number of rows.
-/
import QueryClient.Error.Basic
import QueryClient.Json.Reading

namespace QueryClient

/-- The outcome of a call. -/
structure Response (α : Type) where
  data : Option α := none
  error : Option Error := none
  count : Option Int := none

namespace Response

variable {α β : Type}

def ok (data : Option α) (count : Option Int) : Response α := { data, count }

/-- A failure has neither data nor a count. -/
def err (e : Error) : Response α := { error := some e }

/-- The error, or else the data. -/
def toExcept (r : Response α) : Except Error (Option α) :=
  match r.error with
  | some e => .error e
  | none => .ok r.data

/-- The response whose data a reader has read.  Data that does not fit makes it a failure that
keeps the count. -/
def decode (r : Response Json) (read : Json.Reader α) : Response α :=
  match r.error with
  | some e => err e
  | none =>
    match r.data.mapM read with
    | .ok data => ok data r.count
    | .error misfit =>
      { error := some ⟨.decode "<row>" misfit.message, []⟩, count := r.count }

end Response

/-- An error as JSON. -/
def Error.toJson (e : Error) : Json :=
  .object [
    ("code", .str e.code.name),
    ("message", .str e.message),
    ("status", match e.status? with
      | some status => .str status
      | none => .null)]

/-- A response as JSON. -/
def Response.toJson (r : Response Json) : Json :=
  .object [
    ("data", r.data.getD .null),
    ("error", match r.error with
      | some e => e.toJson
      | none => .null),
    ("count", match r.count with
      | some n => .int n
      | none => .null)]

end QueryClient
