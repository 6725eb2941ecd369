/-
  Whole numbers as bytes, the most significant byte first, and text as UTF-8.
-/

namespace QueryClient.Bytes

/-- The lowest `width` bytes of a natural number. -/
def ofNat (width n : Nat) : List UInt8 :=
  match width with
  | 0 => []
  | w + 1 => ofNat w (n / 256) ++ [UInt8.ofNat n]

/-- The lowest `width` bytes of an integer, negative ones as two's complement. -/
def ofInt (width : Nat) (i : Int) : List UInt8 :=
  ofNat width (i % (Nat.pow 256 width : Nat)).toNat

/-- The natural number that some bytes spell. -/
def toNat (bytes : List UInt8) : Nat :=
  bytes.foldl (fun n b => 256 * n + b.toNat) 0

/-- The integer that some bytes spell as two's complement. -/
def toInt (bytes : List UInt8) : Int :=
  let n := toNat bytes
  if 2 * n < Nat.pow 256 bytes.length then n else n - (Nat.pow 256 bytes.length : Nat)

/-- The integer of exactly `width` bytes. -/
def int? (width : Nat) (bytes : List UInt8) : Option Int :=
  if bytes.length = width then some (toInt bytes) else none

/-- The natural number of exactly `width` bytes. -/
def nat? (width : Nat) (bytes : List UInt8) : Option Nat :=
  if bytes.length = width then some (toNat bytes) else none

/-- The first `width` bytes and the rest. -/
def split? (width : Nat) (bytes : List UInt8) : Option (List UInt8 × List UInt8) :=
  if width ≤ bytes.length then some (bytes.splitAt width) else none

/-- A text as UTF-8. -/
def ofText (s : String) : List UInt8 := s.toUTF8.toList

/-- The text that some bytes spell, if they are UTF-8. -/
def text? (bytes : List UInt8) : Option String :=
  String.fromUTF8? ⟨bytes.toArray⟩

end QueryClient.Bytes
