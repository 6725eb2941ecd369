/-
  Bound values in the binary form of the parameters they are bound to.

  The type of a parameter is what the server says it is, and a value adapts to it: an integer
  becomes as wide as the type asks for, a text is read as a value of the type, an array binds
  its elements.  What does not fit is an error.
-/
import QueryClient.Calendar.Reading
import QueryClient.Json.Printer
import QueryClient.Value
import QueryClient.Wire.Numeric
import QueryClient.Wire.SqlType

namespace QueryClient.Wire

open QueryClient.Calendar QueryClient.Number QueryClient.Text

/-- Why a value cannot be bound. -/
inductive BindError where
  | mismatch (kind : String) (type : SqlType)
  | badBoolean (text : String)
  | badNumeric (text : String)
  | badInteger (e : IntegerError)
  | badFloat (e : FloatError)
  | outOfRange (e : IntegerError)
  | badUuid
  | badMoment
  | badDecimal

/-- The text of an error, where it has one of its own. -/
def BindError.message? : BindError → Option String
  | .mismatch kind type =>
    some ("cannot bind " ++ kind ++ " value to parameter of type " ++ type.display)
  | .badBoolean text => some ("invalid boolean literal '" ++ text ++ "'")
  | .badNumeric text => some ("invalid numeric literal '" ++ text ++ "'")
  | .badInteger e | .outOfRange e => some e.message
  | .badFloat e => some e.message
  | .badUuid | .badMoment | .badDecimal => none

/-- The bytes of a value that is not null, or the reason why it cannot be bound. -/
abbrev Encoded := Except BindError (List UInt8)

/-! ## Scalars -/

/-- An integer of `width` bytes between two bounds. -/
def encodeInteger (width : Nat) (min max i : Int) : Encoded :=
  match checkRange min max i with
  | .ok i => .ok (Bytes.ofInt width i)
  | .error e => .error (.outOfRange e)

def encodeDouble (x : Double) : List UInt8 := Bytes.ofNat 8 x.bits.toNat

def encodeSingle (x : Single) : List UInt8 := Bytes.ofNat 4 x.bits.toNat

def encodeBool (b : Bool) : List UInt8 := [if b then 1 else 0]

def encodeDecimal (d : Decimal) : List UInt8 := (Numeric.ofDecimal d).toBytes

def encodeDate (d : Date) : List UInt8 := Bytes.ofInt 4 (d.day - Date.epoch2000)

def encodeMoment (m : Moment) : List UInt8 := Bytes.ofInt 8 m.microsSince2000

def encodeTime (t : TimeOfDay) : List UInt8 := Bytes.ofInt 8 (t.nanos / 1000)

/-- JSON text; the binary form has a version number before it. -/
def encodeJson (binary : Bool) (j : Json) : List UInt8 :=
  let text := Bytes.ofText j.toText
  if binary then 1 :: text else text

/-- An integer, by the type of its parameter. -/
def encodeInt (s : Scalar) (i : Int) : Option Encoded :=
  match s with
  | .int2 => some (encodeInteger 2 (signedMin 16) (signedMax 16) i)
  | .int4 => some (encodeInteger 4 (signedMin 32) (signedMax 32) i)
  | .int8 => some (encodeInteger 8 (signedMin 64) (signedMax 64) i)
  | .oid => some (encodeInteger 4 0 (unsignedMax 32) i)
  | .float4 => some (.ok (encodeSingle (.ofInt i)))
  | .float8 => some (.ok (encodeDouble (.ofInt i)))
  | .numeric => some (.ok (encodeDecimal (.ofInt i)))
  | _ => none

/-- A floating point number, by the type of its parameter. -/
def encodeFloat (s : Scalar) (x : Double) : Option Encoded :=
  match s with
  | .float4 => some (.ok (encodeSingle x.toSingle))
  | .float8 => some (.ok (encodeDouble x))
  | .numeric =>
    some (match Decimal.ofDouble? x with
      | some d => .ok (encodeDecimal d)
      | none => .error .badDecimal)
  | _ => none

/-- The truth value that a text spells. -/
def readBool (text : String) : Except BindError Bool :=
  let word := String.ofList (text.toList.map Char.toLower)
  if word ∈ ["true", "t", "yes", "on", "1"] then .ok true
  else if word ∈ ["false", "f", "no", "off", "0"] then .ok false
  else .error (.badBoolean text)

def readDecimal (text : String) : Except BindError Decimal :=
  match Decimal.parse? (trim text) with
  | some d => .ok d
  | none => .error (.badNumeric (trim text))

/-- What a text spells, or an error if it spells nothing. -/
def orError {α : Type} (e : BindError) (value : Option α) (encode : α → List UInt8) : Encoded :=
  match value with
  | some a => .ok (encode a)
  | none => .error e

/-- A text, by the type of its parameter. -/
def encodeText (s : Scalar) (text : String) : Option Encoded :=
  match s with
  | .bool => some ((readBool text).map encodeBool)
  | .int2 | .int4 | .int8 | .oid =>
    match readInt64 (trim text) with
    | .ok i => encodeInt s i
    | .error e => some (.error (.badInteger e))
  | .float4 | .float8 =>
    match readDouble (trim text) with
    | .ok x => encodeFloat s x
    | .error e => some (.error (.badFloat e))
  | .numeric => some ((readDecimal text).map encodeDecimal)
  | .uuid => some (orError .badUuid (Uuid.parse? (trim text)) (·.bytes))
  | .timestamptz => some (orError .badMoment (instant? text) encodeMoment)
  | .timestamp => some (orError .badMoment (moment? text) encodeMoment)
  | .date => some (orError .badMoment (date? text) encodeDate)
  | .time => some (orError .badMoment (time? text) encodeTime)
  | .bytea => some (.ok (Bytes.ofText text))
  | _ => none

/-- A moment, by the type of its parameter. -/
def encodeTimestamp (s : Scalar) (m : Moment) : Option Encoded :=
  match s with
  | .timestamptz | .timestamp => some (.ok (encodeMoment m))
  | .date => some (.ok (encodeDate m.date))
  | _ => none

/-! ## Values -/

/-- What a value is called. -/
def kindName : Value → String
  | .null => "null"
  | .bool _ => "bool"
  | .int _ => "integer"
  | .float _ => "float"
  | .decimal _ => "decimal"
  | .text _ => "text"
  | .json _ => "json"
  | .uuid _ => "uuid"
  | .timestamp _ => "timestamp"
  | .bytes _ => "bytes"
  | .array _ => "array"

/-- The text that a value is bound as, if it has one. -/
def textOf? : Value → Option String
  | .bool b => some (if b then "true" else "false")
  | .int i => some (String.ofList (Json.intText i))
  | .float x => some (DecimalText.plain.render x)
  | .decimal d => some d.toText
  | .text s => some s
  | .json j => some j.toText
  | .uuid u => some u.toText
  | .timestamp m => some m.toUtcText
  | .null | .bytes _ | .array _ => none

/-- The bytes of a value as a known scalar that is neither text nor JSON, if there are any. -/
def encodeScalar (s : Scalar) : Value → Option Encoded
  | .bool b => if s = .bool then some (.ok (encodeBool b)) else none
  | .int i => encodeInt s i
  | .float x => encodeFloat s x
  | .decimal d => if s = .numeric then some (.ok (encodeDecimal d)) else none
  | .text text => encodeText s text
  | .uuid u => if s = .uuid then some (.ok u.bytes) else none
  | .timestamp m => encodeTimestamp s m
  | .bytes b => if s = .bytea then some (.ok b) else none
  | .null | .json _ | .array _ => none

/-- A value as JSON for a parameter that is JSON.  Bytes have no JSON to be bound as. -/
def jsonOf? : Value → Option Json
  | .bytes _ => none
  | v => some v.toJson

/-- Binds a value that is not null to a parameter that is neither a domain nor, for a list, an
array. -/
def encodePlain (type : SqlType) (v : Value) : Encoded :=
  let found : Option Encoded := match type with
    | .scalar .json => (jsonOf? v).map fun j => .ok (encodeJson false j)
    | .scalar .jsonb => (jsonOf? v).map fun j => .ok (encodeJson true j)
    | type =>
      if type.isTextLike then (textOf? v).map fun s => .ok (Bytes.ofText s)
      else match type with
        | .scalar s => encodeScalar s v
        | _ => none
  found.getD (.error (.mismatch (kindName v) type))

/-- A value as it is bound to a parameter of a type: JSON that is no array or object is bound
like the value it stands for, unless the parameter is JSON itself. -/
def settle (type : SqlType) (v : Value) : Value :=
  match type, v with
  | .scalar .json, v | .scalar .jsonb, v => v
  | _, .json j => Value.ofJson j
  | _, v => v

/-- The bytes of a value, or nothing for null. -/
def encodeNullable (type : SqlType) (v : Value) : Except BindError (Option (List UInt8)) :=
  match settle type v with
  | .null => .ok none
  | v => (encodePlain type v).map some

/-! ## Arrays -/

/-- An element: its length and its bytes, or a negative length for null. -/
def elementBytes : Option (List UInt8) → List UInt8
  | none => Bytes.ofInt 4 (-1)
  | some bytes => Bytes.ofNat 4 bytes.length ++ bytes

/-- The index of the first element: vectors count from zero. -/
def lowerBound (number : Nat) : Nat := if number ∈ [22, 30] then 0 else 1

/-- An array of one dimension. -/
def arrayBytes (name : TypeName) (element : SqlType) (items : List (Option (List UInt8))) :
    List UInt8 :=
  Bytes.ofNat 4 1 ++ Bytes.ofNat 4 (if items.any (·.isNone) then 1 else 0) ++
    Bytes.ofNat 4 element.number ++ Bytes.ofNat 4 items.length ++
    Bytes.ofNat 4 (lowerBound name.number) ++ items.flatMap elementBytes

/-- The values of a list that is bound to an array. -/
def itemsOf? : Value → Option (List Value)
  | .array items => some items
  | .json (.arr items) => some (items.map Value.ofJson)
  | _ => none

/-- Binds a value to a parameter: its bytes, or nothing for null.  A domain takes what its base
takes. -/
def encode : SqlType → Value → Except BindError (Option (List UInt8))
  | .domain _ base, v => encode base v
  | .array name element, v =>
    match itemsOf? v with
    | some items =>
      (items.mapM fun item => encode element item).map fun bytes =>
        some (arrayBytes name element bytes)
    | none => encodeNullable (.array name element) v
  | type, v => encodeNullable type v

end QueryClient.Wire
