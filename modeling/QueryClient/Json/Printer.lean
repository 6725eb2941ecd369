/-
  JSON text without blanks.

  Quotes, backslashes and control characters are escaped; every other character is written as
  it is.  Floating point numbers have the fewest digits that read back.
-/
import QueryClient.Json.Basic
import QueryClient.Number.Shortest
import QueryClient.Text.Hex

namespace QueryClient.Json

open QueryClient.Number QueryClient.Text

/-- A character of a string literal. -/
def escapeChar (c : Char) : List Char :=
  match c with
  | '"' => ['\\', '"']
  | '\\' => ['\\', '\\']
  | '\n' => ['\\', 'n']
  | '\r' => ['\\', 'r']
  | '\t' => ['\\', 't']
  | '\x08' => ['\\', 'b']
  | '\x0c' => ['\\', 'f']
  | c => if c.toNat < 0x20 then '\\' :: 'u' :: hexNat 4 c.toNat else [c]

/-- A string literal. -/
def quote (s : String) : List Char :=
  '"' :: (s.toList.flatMap escapeChar ++ ['"'])

/-- An integer in decimal digits. -/
def intText (i : Int) : List Char :=
  if i < 0 then '-' :: Nat.toDigits 10 i.natAbs else Nat.toDigits 10 i.natAbs

/-- A floating point number; one that is not finite is written as null. -/
def floatText (x : Double) : List Char :=
  if x.isFinite then (DecimalText.json.render x).toList else "null".toList

mutual

/-- The characters of a value. -/
def print : Json → List Char
  | .null => "null".toList
  | .bool true => "true".toList
  | .bool false => "false".toList
  | .int i => intText i
  | .float x => floatText x
  | .str s => quote s
  | .arr items => '[' :: (printItems items ++ [']'])
  | .obj fields => '\x7b' :: (printFields fields ++ ['\x7d'])

/-- The items of an array with commas between them. -/
def printItems : List Json → List Char
  | [] => []
  | [item] => print item
  | item :: rest => print item ++ ',' :: printItems rest

/-- The fields of an object with commas between them. -/
def printFields : List (String × Json) → List Char
  | [] => []
  | [(k, v)] => quote k ++ ':' :: print v
  | (k, v) :: rest => quote k ++ ':' :: print v ++ ',' :: printFields rest

end

/-- The text of a value. -/
def toText (j : Json) : String := String.ofList (print j)

end QueryClient.Json
