/-
  JSON values read as something more definite.

  A reader either gives a value or says what does not fit.  Records are read from objects, in
  which unknown keys are ignored, and from arrays that hold the fields in order.
-/
import QueryClient.Json.Printer
import QueryClient.Text.Quoted

namespace QueryClient.Json

open QueryClient.Text

/-- Why a value is not what was asked for. -/
inductive Misfit where
  | wrongType (found : Json) (expected : String)
  | outOfRange (found : Int) (expected : String)
  | wrongLength (found : Nat) (expected : String)
  | missing (field : String)

/-- What a value is, as told in messages. -/
def describe : Json → String
  | .null => "null"
  | .bool b => "boolean `" ++ (if b then "true" else "false") ++ "`"
  | .int i => "integer `" ++ toString i ++ "`"
  | .float x => "floating point `" ++ String.ofList (floatText x) ++ "`"
  | .str s => "string " ++ showText s
  | .arr _ => "sequence"
  | .obj _ => "map"

def Misfit.message : Misfit → String
  | .wrongType found expected =>
    "invalid type: " ++ describe found ++ ", expected " ++ expected
  | .outOfRange found expected =>
    "invalid value: integer `" ++ toString found ++ "`, expected " ++ expected
  | .wrongLength found expected =>
    "invalid length " ++ toString found ++ ", expected " ++ expected
  | .missing field => "missing field `" ++ field ++ "`"

/-- What makes a value of a JSON value. -/
abbrev Reader (α : Type) := Json → Except Misfit α

namespace Reader

/-- An integer within bounds, of a kind called `name`. -/
def integer (name : String) (min max : Int) : Reader Int
  | .int i => if min ≤ i ∧ i ≤ max then .ok i else .error (.outOfRange i name)
  | j => .error (.wrongType j name)

/-- A natural number of `bits` bits, of a kind called `name`. -/
def natural (name : String) (bits : Nat) : Reader Nat := fun j =>
  (integer name 0 (Number.unsignedMax bits) j).map Int.toNat

/-- An integer of 64 bits with a sign. -/
def int64 : Reader Int := integer "i64" (Number.signedMin 64) (Number.signedMax 64)

def string : Reader String
  | .str s => .ok s
  | j => .error (.wrongType j "a string")

def boolean : Reader Bool
  | .bool b => .ok b
  | j => .error (.wrongType j "a boolean")

/-- Null, or something that another reader takes. -/
def nullable {α : Type} (r : Reader α) : Reader (Option α)
  | .null => .ok none
  | j => (r j).map some

/-- An array whose items another reader takes. -/
def list {α : Type} (r : Reader α) : Reader (List α)
  | .arr items => items.mapM r
  | j => .error (.wrongType j "a sequence")

/-- An array of two items. -/
def pair {α β : Type} (first : Reader α) (second : Reader β) : Reader (α × β)
  | .arr items => do
    match items with
    | [] => .error (.wrongLength 0 "a tuple of size 2")
    | [a] => do
      let _ ← first a
      .error (.wrongLength 1 "a tuple of size 2")
    | a :: b :: rest => do
      let a ← first a
      let b ← second b
      if rest.isEmpty then .ok (a, b)
      else .error (.wrongLength items.length "fewer elements in array")
  | j => .error (.wrongType j "a tuple of size 2")

end Reader

/-- Whether a record can do without a field. -/
inductive Presence where
  | required
  /-- Only an object can leave it out. -/
  | optional
  | defaulted
  deriving DecidableEq

/-- A field of a record under construction in `σ`. -/
structure RecordField (σ : Type) where
  name : String
  presence : Presence
  read : Json → σ → Except Misfit σ

/-- A field that a reader reads and `put` stores. -/
def RecordField.of {α σ : Type} (name : String) (presence : Presence) (r : Reader α)
    (put : α → σ → σ) : RecordField σ :=
  ⟨name, presence, fun j s => (r j).map (put · s)⟩

/-- A record called `what`, which begins as `start`.  From an object the known keys are read in
the order of the keys, from an array the fields in their own order. -/
def readRecord {σ : Type} (what : String) (fields : List (RecordField σ)) (start : σ) :
    Reader σ
  | .obj entries => do
    let record ← entries.foldlM (fun s (k, v) =>
      match fields.find? (·.name = k) with
      | some f => f.read v s
      | none => .ok s) start
    match fields.find? fun f => f.presence = .required ∧ isAbsent entries f.name with
    | some f => .error (.missing f.name)
    | none => .ok record
  | .arr items => do
    let record ← (fields.zip items).foldlM (fun s (f, v) => f.read v s) start
    match (fields.drop items.length).findIdx? fun f => f.presence ≠ .defaulted with
    | some i =>
      .error (.wrongLength (items.length + i)
        ("struct " ++ what ++ " with " ++ toString fields.length ++ " elements"))
    | none =>
      if fields.length < items.length then
        .error (.wrongLength items.length "fewer elements in array")
      else .ok record
  | j => .error (.wrongType j ("struct " ++ what))
where
  /-- Whether no entry has a given key. -/
  isAbsent (entries : Fields) (key : String) : Bool := (Fields.get? entries key).isNone

end QueryClient.Json
