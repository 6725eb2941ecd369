/-
  The rows of an insert: their columns, which are those of the first row, and their values.
-/
import QueryClient.Config.Basic
import QueryClient.Value

namespace QueryClient

/-- Rows of values under common columns. -/
structure Rows where
  columns : List Ident
  rows : List (List Value)

namespace Rows

/-- The objects of a payload: one object, or an array of objects. -/
def objects (what : String) : Json → Except Error (List Fields)
  | .obj fields => .ok [fields]
  | .arr items =>
    items.zipIdx.mapM fun (item, i) =>
      match item with
      | .obj fields => .ok fields
      | _ => .error (.validation (what ++ " row " ++ toString i ++ " is not an object"))
  | _ => .error (.validation (what ++ " payload must be an object or an array of objects"))

/-- Refuses a row with a key that the first row does not have. -/
def checkKeys (what : String) (first : Fields) (row : Fields × Nat) : Except Error Unit :=
  match row.1.keys.find? fun key => (first.get? key).isNone with
  | some extra =>
    .error (.validation (what ++ " row " ++ toString row.2 ++ " has column '" ++ extra ++
      "' not present in the first row"))
  | none => .ok ()

/-- The value of a key; a key that is not there stands for null. -/
def cell (row : Fields) (key : String) : Value :=
  Value.ofOption ((row.get? key).map Value.ofJson)

/-- The rows of a payload with no more cells than allowed. -/
def ofPayload (safety : Safety) (what : String) (payload : Json) : Except Error Rows := do
  let objects ← objects what payload
  match objects with
  | [] => .error (.validation (what ++ " requires at least one row"))
  | first :: _ =>
    if first.isEmpty then .error (.validation (what ++ " row has no columns"))
    else
      objects.zipIdx.forM (checkKeys what first)
      let columns ← first.keys.mapM (Ident.parse .column)
      let total := objects.length * columns.length
      if safety.maxTotalParams < total then
        .error (.validation (what ++ " too large: " ++ toString objects.length ++ " rows x " ++
          toString columns.length ++ " columns = " ++ toString total ++
          " parameters exceeds max_total_params (" ++ toString safety.maxTotalParams ++ ")"))
      else .ok ⟨columns, objects.map fun row => first.keys.map (cell row)⟩

end Rows

end QueryClient
