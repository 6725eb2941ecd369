/-
  Universally unique identifiers: sixteen bytes, written as 32 hexadecimal digits in groups of
  8, 4, 4, 4 and 12 with hyphens between them.

  Reading also takes the digits without hyphens, and the hyphenated form in braces or after
  `urn:uuid:`.
-/
import QueryClient.Text.Blank
import QueryClient.Text.Hex

namespace QueryClient

open QueryClient.Text

/-- Sixteen bytes. -/
structure Uuid where
  bytes : List UInt8
  length_bytes : bytes.length = 16
  deriving DecidableEq

namespace Uuid

/-- The identifier of sixteen bytes. -/
def ofBytes? (bytes : List UInt8) : Option Uuid :=
  if h : bytes.length = 16 then some ⟨bytes, h⟩ else none

/-- The digits in their five groups. -/
def groups : List Char → List (List Char)
  | ds => [ds.take 8, (ds.drop 8).take 4, (ds.drop 12).take 4, (ds.drop 16).take 4, ds.drop 20]

/-- The hyphenated form, in lower case. -/
def toText (u : Uuid) : String :=
  String.ofList (['-'].intercalate (groups (hexChars u.bytes)))

/-- The digits of a hyphenated form, if its four hyphens stand where they should. -/
def unhyphenate? (cs : List Char) : Option (List Char) :=
  if cs.length = 36 ∧ [8, 13, 18, 23].all fun i => cs[i]? = some '-' then
    some (cs.take 8 ++ (cs.drop 9).take 4 ++ (cs.drop 14).take 4 ++ (cs.drop 19).take 4 ++
      cs.drop 24)
  else none

/-- The text that introduces the hyphenated form as a resource name. -/
def urnMark : List Char := "urn:uuid:".toList

/-- The digits of a written form. -/
def digits? (cs : List Char) : Option (List Char) :=
  if cs.length = 32 then some cs
  else if cs.length = 38 ∧ cs.head? = some '\x7b' ∧ cs.getLast? = some '\x7d' then
    unhyphenate? ((cs.drop 1).dropLast)
  else if cs.length = 45 ∧ (cs.take 9).map Char.toLower = urnMark then unhyphenate? (cs.drop 9)
  else unhyphenate? cs

/-- The identifier that a text spells. -/
def parse? (s : String) : Option Uuid :=
  (digits? s.toList).bind bytesOfHexChars? |>.bind ofBytes?

end Uuid

end QueryClient
