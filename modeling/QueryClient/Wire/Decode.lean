/-
  Cells of a result as JSON, by the types of their columns.

  A cell that holds no value is null.  Moments, decimals, identifiers and bytes become texts;
  a floating point number that is not finite becomes null.
-/
import QueryClient.Calendar.Moment
import QueryClient.Json.Parser
import QueryClient.Value
import QueryClient.Wire.Numeric
import QueryClient.Wire.SqlType

namespace QueryClient.Wire

open QueryClient.Calendar QueryClient.Number

/-! ## Scalars -/

/-- The character with the number of a byte. -/
def decodeChar (b : UInt8) : Json := .str (String.singleton (Char.ofNat b.toNat))

/-- A version number and JSON text. -/
def decodeJsonb : List UInt8 → Option Json
  | 1 :: text => (Bytes.text? text).bind Json.parse?
  | _ => none

def decodeInt (width : Nat) (bytes : List UInt8) : Option Json :=
  (Bytes.int? width bytes).map .int

def decodeText (bytes : List UInt8) : Option Json := (Bytes.text? bytes).map .str

def decodeMoment (toText : Moment → String) (bytes : List UInt8) : Option Json := do
  let m ← Moment.ofMicrosSince2000? (← Bytes.int? 8 bytes)
  pure (.str (toText m))

/-- The JSON of the bytes of a scalar. -/
def decodeScalar (s : Scalar) (bytes : List UInt8) : Option Json :=
  match s with
  | .bool =>
    match bytes with
    | [b] => some (.bool (b ≠ 0))
    | _ => none
  | .char =>
    match bytes with
    | [b] => some (decodeChar b)
    | _ => none
  | .int2 => decodeInt 2 bytes
  | .int4 => decodeInt 4 bytes
  | .int8 => decodeInt 8 bytes
  | .oid => (Bytes.nat? 4 bytes).map fun n => .int n
  | .float4 =>
    (Bytes.nat? 4 bytes).map fun n => Json.ofDouble (Single.toDouble ⟨UInt32.ofNat n⟩)
  | .float8 => (Bytes.nat? 8 bytes).map fun n => Json.ofDouble ⟨UInt64.ofNat n⟩
  | .numeric => do
    let d ← (← Numeric.ofBytes? bytes).toDecimal?
    pure (.str d.toText)
  | .json => (Bytes.text? bytes).bind Json.parse?
  | .jsonb => decodeJsonb bytes
  | .uuid => (Uuid.ofBytes? bytes).map fun u => .str u.toText
  | .timestamp => decodeMoment Moment.toText bytes
  | .timestamptz => decodeMoment Moment.toUtcText bytes
  | .date => do
    let d ← Date.ofDay? (Date.epoch2000 + (← Bytes.int? 4 bytes))
    pure (.str d.toText)
  | .time => do
    let micros ← Bytes.int? 8 bytes
    pure (.str (TimeOfDay.ofNanos (1000 * micros)).toText)
  | .bytea => some (.str (Value.hexText bytes))
  | .text | .varchar | .bpchar | .name | .unknown => decodeText bytes

/-! ## Arrays -/

/-- Elements with their lengths before them, until nothing is left. -/
def elements? : Nat → List UInt8 → Option (List (Option (List UInt8)))
  | 0, bytes => if bytes.isEmpty then some [] else none
  | count + 1, bytes => do
    let (length, rest) ← Bytes.split? 4 bytes
    let length := Bytes.toInt length
    if length < 0 then
      pure (none :: (← elements? count rest))
    else
      let (element, rest) ← Bytes.split? length.toNat rest
      pure (some element :: (← elements? count rest))

/-- The elements of an array of at most one dimension. -/
def arrayElements? (bytes : List UInt8) : Option (List (Option (List UInt8))) := do
  let (dimensions, bytes) ← Bytes.split? 4 bytes
  let (_, bytes) ← Bytes.split? 8 bytes
  match Bytes.toInt dimensions with
  | 0 => elements? 0 bytes
  | 1 =>
    let (length, bytes) ← Bytes.split? 4 bytes
    let (_, bytes) ← Bytes.split? 4 bytes
    let length := Bytes.toInt length
    if length < 0 then none else elements? length.toNat bytes
  | _ => none

/-- The scalars that are read as elements of arrays. -/
def isElement : Scalar → Bool
  | .char | .oid | .timestamp | .time | .bytea => false
  | _ => true

/-! ## Columns -/

/-- Why a cell has no JSON. -/
inductive DecodeError where
  | unsupported (type : SqlType)
  | unsupportedElement (type : SqlType)
  | malformed
  deriving Repr

/-- What reads the bytes of a value that is no array. -/
def reader? : SqlType → Option (List UInt8 → Option Json)
  | .scalar s => some (decodeScalar s)
  | type => if type.readsAsText then some decodeText else none

/-- What reads the bytes of an element of an array. -/
def elementReader? : SqlType → Option (List UInt8 → Option Json)
  | .scalar s => if isElement s then some (decodeScalar s) else none
  | type => if type.readsAsText then some decodeText else none

/-- An element that holds no value is null. -/
def decodeElement (read : List UInt8 → Option Json) : Option (List UInt8) → Option Json
  | none => some .null
  | some bytes => read bytes

/-- What reads the bytes of a column. -/
def columnReader : SqlType → Except DecodeError (List UInt8 → Option Json)
  | .array _ element =>
    match elementReader? element with
    | some read =>
      .ok fun bytes => do
        let items ← (← arrayElements? bytes).mapM (decodeElement read)
        pure (.arr items)
    | none => .error (.unsupportedElement element)
  | type =>
    match reader? type with
    | some read => .ok read
    | none => .error (.unsupported type)

/-- The JSON of a cell, which may hold no value. -/
def decodeCell (type : SqlType) (cell : Option (List UInt8)) : Except DecodeError Json := do
  let read ← columnReader type
  match cell with
  | none => pure .null
  | some bytes =>
    match read bytes with
    | some j => .ok j
    | none => .error .malformed

end QueryClient.Wire
