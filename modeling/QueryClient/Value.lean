/-
  Bound values: what the placeholders of a statement stand for.

  JSON values become bound values and back; arrays and objects stay JSON until they are bound.
  In JSON, decimals, identifiers, moments and bytes are texts, and a number that is not finite
  is null.
-/
import QueryClient.Calendar.Moment
import QueryClient.Json.Basic
import QueryClient.Number.Decimal
import QueryClient.Text.Hex
import QueryClient.Uuid

namespace QueryClient

open QueryClient.Calendar QueryClient.Number QueryClient.Text

/-- A bound value. -/
inductive Value where
  | null
  | bool (b : Bool)
  | int (i : Int)
  | float (x : Double)
  | decimal (d : Decimal)
  | text (s : String)
  | json (j : Json)
  | uuid (u : Uuid)
  /-- A moment in universal time. -/
  | timestamp (m : Moment)
  | bytes (b : List UInt8)
  | array (items : List Value)
  deriving Inhabited

namespace Value

/-- The bound value of a JSON value.  A number that fits 64 bits with a sign is an integer. -/
def ofJson : Json → Value
  | .null => .null
  | .bool b => .bool b
  | .int i => if Number.isSigned 64 i then .int i else .float (.ofInt i)
  | .float x => .float x
  | .str s => .text s
  | .arr items => .json (.arr items)
  | .obj fields => .json (.obj fields)

/-- Bytes as text: `\x` and their hexadecimal digits. -/
def hexText (bytes : List UInt8) : String :=
  "\\x" ++ hex bytes

mutual

/-- The value as JSON. -/
def toJson : Value → Json
  | .null => .null
  | .bool b => .bool b
  | .int i => .int i
  | .float x => .ofDouble x
  | .decimal d => .str d.toText
  | .text s => .str s
  | .json j => j
  | .uuid u => .str u.toText
  | .timestamp m => .str m.toUtcText
  | .bytes b => .str (hexText b)
  | .array items => .arr (toJsonList items)

/-- Some values as JSON. -/
def toJsonList : List Value → List Json
  | [] => []
  | v :: rest => toJson v :: toJsonList rest

end

def isNull : Value → Bool
  | .null => true
  | _ => false

/-- A 32-bit floating point number as a bound value. -/
def ofSingle (x : Single) : Value := .float x.toDouble

/-- An absent value is null. -/
def ofOption : Option Value → Value
  | some v => v
  | none => .null

end Value

end QueryClient
