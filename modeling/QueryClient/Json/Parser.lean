/-
  JSON text read into values.

  The whole text must be one value with blanks around it.  Arrays and objects may be nested
  127 deep.  A number without point and exponent is a whole number if it fits 64 bits, with or
  without a sign; any other number is a floating point number, made from at most nineteen or
  twenty significant digits by one multiplication with, or division by, a power of ten.

  Every function takes the front of the characters and returns the rest; the fuel is the
  length of the text, which no value exceeds.
-/
import QueryClient.Json.Basic
import QueryClient.Number.Literal
import QueryClient.Text.Hex

namespace QueryClient.Json

open QueryClient.Number QueryClient.Text

/-- The four blanks of JSON. -/
def isSpace (c : Char) : Bool := c = ' ' || c = '\n' || c = '\t' || c = '\r'

def skipSpaces (cs : List Char) : List Char := cs.dropWhile isSpace

/-! ## Strings -/

/-- The number that four hexadecimal digits spell. -/
def fourHex? : List Char → Option (Nat × List Char)
  | a :: b :: c :: d :: rest => do
    let a ← hexValue? a
    let b ← hexValue? b
    let c ← hexValue? c
    let d ← hexValue? d
    some (4096 * a + 256 * b + 16 * c + d, rest)
  | _ => none

/-- The character after `\u`: two escapes in a row for one beyond the first 65536, and no lone
half of such a pair. -/
def unicodeEscape? (cs : List Char) : Option (Char × List Char) := do
  let (high, rest) ← fourHex? cs
  if 0xD800 ≤ high ∧ high < 0xDC00 then
    match rest with
    | '\\' :: 'u' :: rest =>
      let (low, rest) ← fourHex? rest
      if 0xDC00 ≤ low ∧ low < 0xE000 then
        some (Char.ofNat (0x10000 + (high - 0xD800) * 0x400 + (low - 0xDC00)), rest)
      else none
    | _ => none
  else if 0xDC00 ≤ high ∧ high < 0xE000 then none
  else some (Char.ofNat high, rest)

/-- The character after a backslash. -/
def escape? : List Char → Option (Char × List Char)
  | '"' :: rest => some ('"', rest)
  | '\\' :: rest => some ('\\', rest)
  | '/' :: rest => some ('/', rest)
  | 'b' :: rest => some ('\x08', rest)
  | 'f' :: rest => some ('\x0c', rest)
  | 'n' :: rest => some ('\n', rest)
  | 'r' :: rest => some ('\r', rest)
  | 't' :: rest => some ('\t', rest)
  | 'u' :: rest => unicodeEscape? rest
  | _ => none

/-- The rest of a string literal after its opening quote; `acc` holds the characters so far,
the last one first. -/
def stringBody : Nat → List Char → List Char → Option (String × List Char)
  | 0, _, _ => none
  | fuel + 1, acc, cs =>
    match cs with
    | '"' :: rest => some (String.ofList acc.reverse, rest)
    | '\\' :: rest => (escape? rest).bind fun (c, rest) => stringBody fuel (c :: acc) rest
    | c :: rest => if c.toNat < 0x20 then none else stringBody fuel (c :: acc) rest
    | [] => none

/-! ## Numbers -/

/-- A number under way: a coefficient of 64 bits times a power of ten. -/
structure Scaled where
  coefficient : Nat
  exponent : Int

/-- Takes in one digit, if the coefficient still has 64 bits. -/
def Scaled.push? (n : Scaled) (d : Char) (step : Int) : Option Scaled :=
  let c := 10 * n.coefficient + (d.toNat - 0x30)
  if c ≤ unsignedMax 64 then some ⟨c, n.exponent + step⟩ else none

/-- The digits before the point: those after the first that does not fit count as zeros. -/
def Scaled.whole : Scaled → List Char → Scaled
  | n, [] => n
  | n, d :: rest =>
    match n.push? d 0 with
    | some n => Scaled.whole n rest
    | none => ⟨n.coefficient, n.exponent + (rest.length + 1)⟩

/-- The digits after the point: those from the first that does not fit are ignored. -/
def Scaled.fraction : Scaled → List Char → Scaled
  | n, [] => n
  | n, d :: rest =>
    match n.push? d (-1) with
    | some n => Scaled.fraction n rest
    | none => n

/-- Divides by `10 ^ 308` until the exponent is within reach of one power of ten; a few times
are enough to reach zero. -/
def Scaled.settle : Nat → Double → Int → Option Double
  | 0, _, _ => none
  | fuel + 1, x, e =>
    if e.natAbs ≤ 308 then
      let y := if 0 ≤ e then x.mul (.tenPow e.natAbs) else x.div (.tenPow e.natAbs)
      if y.isFinite then some y else none
    else if x.magnitude = 0 then some x
    else if 0 ≤ e then none
    else Scaled.settle fuel (x.div (.tenPow 308)) (e + 308)

/-- The floating point number of a coefficient and an exponent, if it is finite. -/
def Scaled.double? (n : Scaled) : Option Double :=
  Scaled.settle 8 (.ofInt n.coefficient) n.exponent

/-- An exponent: its sign and its digits. -/
def exponent? : List Char → Option (Bool × List Char × List Char)
  | cs =>
    let (negative, cs) := match cs with
      | '+' :: rest => (false, rest)
      | '-' :: rest => (true, rest)
      | cs => (false, cs)
    let (ds, rest) := spanDigits cs
    if ds.isEmpty then none else some (negative, ds, rest)

/-- The number with an exponent.  One beyond 31 bits makes it zero, or too large. -/
def Scaled.withExponent? (n : Scaled) (negative : Bool) (ds : List Char) : Option Double :=
  let e : Int := natOfDigits 0 ds
  if e ≤ signedMax 32 then Scaled.double? ⟨n.coefficient, n.exponent + if negative then -e else e⟩
  else if n.coefficient ≠ 0 ∧ !negative then none
  else some (.ofInt 0)

/-- A floating point number with its sign. -/
def signed (negative : Bool) (x : Double) : Json :=
  .float (if negative then x.neg else x)

/-- The value of a number without point and exponent, given as its digits. -/
def wholeNumber? (negative : Bool) (ds : List Char) : Option Json :=
  let n := natOfDigits 0 ds
  if n ≤ unsignedMax 64 then
    if !negative then some (.int n)
    else if 0 < n ∧ n ≤ unsignedMax 63 + 1 then some (.int (-n))
    else some (signed true (.ofInt n))
  else (Scaled.whole ⟨0, 0⟩ ds).double?.map (signed negative)

/-- The digits of a number before the point: no zero stands in front of another digit. -/
def wholeDigits? (cs : List Char) : Option (List Char × List Char) :=
  match spanDigits cs with
  | ([], _) => none
  | ('0' :: _ :: _, _) => none
  | (ds, rest) => some (ds, rest)

/-- The rest of a number after its whole digits and its fraction. -/
def numberTail? (negative : Bool) (n : Scaled) : List Char → Option (Json × List Char)
  | 'e' :: rest | 'E' :: rest => do
    let (below, ds, rest) ← exponent? rest
    let x ← n.withExponent? below ds
    some (signed negative x, rest)
  | rest => n.double?.map fun x => (signed negative x, rest)

/-- A number after its sign. -/
def number? (negative : Bool) (cs : List Char) : Option (Json × List Char) := do
  let (ds, rest) ← wholeDigits? cs
  match rest with
  | '.' :: rest =>
    let (fs, rest) := spanDigits rest
    if fs.isEmpty then none
    else numberTail? negative ((Scaled.whole ⟨0, 0⟩ ds).fraction fs) rest
  | 'e' :: _ | 'E' :: _ => numberTail? negative (Scaled.whole ⟨0, 0⟩ ds) rest
  | rest => (wholeNumber? negative ds).map fun j => (j, rest)

/-! ## Values -/

/-- A word at the front. -/
def word? (w : String) (j : Json) (cs : List Char) : Option (Json × List Char) :=
  let w := w.toList
  if cs.take w.length = w then some (j, cs.drop w.length) else none

mutual

/-- A value with blanks before it, nested at most `depth` deep. -/
def value? (fuel depth : Nat) (cs : List Char) : Option (Json × List Char) :=
  match fuel with
  | 0 => none
  | fuel + 1 =>
    match skipSpaces cs with
    | 'n' :: rest => word? "ull" .null rest
    | 't' :: rest => word? "rue" (.bool true) rest
    | 'f' :: rest => word? "alse" (.bool false) rest
    | '"' :: rest => (stringBody fuel [] rest).map fun (s, rest) => (.str s, rest)
    | '-' :: rest => number? true rest
    | '[' :: rest =>
      match depth with
      | 0 => none
      | depth + 1 =>
        match skipSpaces rest with
        | ']' :: rest => some (.arr [], rest)
        | rest => (items? fuel depth rest).map fun (items, rest) => (.arr items, rest)
    | '\x7b' :: rest =>
      match depth with
      | 0 => none
      | depth + 1 =>
        match skipSpaces rest with
        | '\x7d' :: rest => some (.obj [], rest)
        | rest => (fields? fuel depth rest).map fun (pairs, rest) => (.object pairs, rest)
    | cs => number? false cs

/-- The items of an array, at least one, with the closing bracket. -/
def items? (fuel depth : Nat) (cs : List Char) : Option (List Json × List Char) :=
  match fuel with
  | 0 => none
  | fuel + 1 => do
    let (item, rest) ← value? fuel depth cs
    match skipSpaces rest with
    | ',' :: rest =>
      let (items, rest) ← items? fuel depth rest
      some (item :: items, rest)
    | ']' :: rest => some ([item], rest)
    | _ => none

/-- The fields of an object, at least one, with the closing brace. -/
def fields? (fuel depth : Nat) (cs : List Char) : Option (List (String × Json) × List Char) :=
  match fuel with
  | 0 => none
  | fuel + 1 =>
    match skipSpaces cs with
    | '"' :: rest => do
      let (key, rest) ← stringBody fuel [] rest
      match skipSpaces rest with
      | ':' :: rest =>
        let (value, rest) ← value? fuel depth rest
        match skipSpaces rest with
        | ',' :: rest =>
          let (fields, rest) ← fields? fuel depth rest
          some ((key, value) :: fields, rest)
        | '\x7d' :: rest => some ([(key, value)], rest)
        | _ => none
      | _ => none
    | _ => none

end

/-- The value that a text spells. -/
def parse? (s : String) : Option Json :=
  let cs := s.toList
  match value? (2 * cs.length + 2) 127 cs with
  | some (j, rest) => if (skipSpaces rest).isEmpty then some j else none
  | none => none

end QueryClient.Json
