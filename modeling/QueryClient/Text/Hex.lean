/-
  Hexadecimal text: two lower-case digits for each byte, the high half first.
-/

namespace QueryClient.Text

/-- The lower-case hexadecimal digit of a value below sixteen. -/
def hexDigit (n : Nat) : Char :=
  if n < 10 then Char.ofNat (0x30 + n) else Char.ofNat (0x57 + n)

/-- The value of a hexadecimal digit of either case. -/
def hexValue? (c : Char) : Option Nat :=
  if '0' ≤ c ∧ c ≤ '9' then some (c.toNat - 0x30)
  else if 'a' ≤ c ∧ c ≤ 'f' then some (c.toNat - 0x57)
  else if 'A' ≤ c ∧ c ≤ 'F' then some (c.toNat - 0x37)
  else none

/-- The digits of some bytes. -/
def hexChars : List UInt8 → List Char
  | [] => []
  | b :: rest => hexDigit (b.toNat / 16) :: hexDigit (b.toNat % 16) :: hexChars rest

/-- Some bytes as hexadecimal text. -/
def hex (bytes : List UInt8) : String :=
  String.ofList (hexChars bytes)

/-- The bytes that hexadecimal digits of either case spell, if they come in pairs. -/
def bytesOfHexChars? : List Char → Option (List UInt8)
  | [] => some []
  | [_] => none
  | h :: l :: rest => do
    let high ← hexValue? h
    let low ← hexValue? l
    let bytes ← bytesOfHexChars? rest
    pure (UInt8.ofNat (16 * high + low) :: bytes)

/-- The bytes that a hexadecimal text spells. -/
def bytesOfHex? (s : String) : Option (List UInt8) :=
  bytesOfHexChars? s.toList

/-- A natural number below `16 ^ width` as exactly `width` hexadecimal digits. -/
def hexNat (width n : Nat) : List Char :=
  match width with
  | 0 => []
  | w + 1 => hexNat w (n / 16) ++ [hexDigit (n % 16)]

end QueryClient.Text
