/-
  Internet addresses as text.

  An address of the fourth version is four numbers below 256 with points between them, without
  leading zeros.  One of the sixth version is eight groups of one to four hexadecimal digits with
  colons between them; once, `::` stands for one or more groups of zeros, and the last two groups
  may be written as an address of the fourth version.
-/
import QueryClient.Number.Literal
import QueryClient.Text.Hex

namespace QueryClient.Pool

open QueryClient.Number QueryClient.Text

/-- The pieces of some characters between separators, at least one. -/
def splitAt (separator : Char) : List Char → List (List Char)
  | [] => [[]]
  | c :: rest =>
    match splitAt separator rest with
    | [] => [[c]]
    | piece :: pieces => if c = separator then [] :: piece :: pieces else (c :: piece) :: pieces

namespace Address

/-- A number below 256 without leading zeros. -/
def isOctet (cs : List Char) : Bool :=
  !cs.isEmpty && cs.all (fun c => (digitValue? c).isSome) && cs.length ≤ 3 &&
    (cs.length = 1 || cs.head? ≠ some '0') && natOfDigits 0 cs < 256

def isFourth (cs : List Char) : Bool :=
  let octets := splitAt '.' cs
  octets.length = 4 && octets.all isOctet

/-- One to four hexadecimal digits. -/
def isGroup (cs : List Char) : Bool :=
  !cs.isEmpty && cs.length ≤ 4 && cs.all fun c => (hexValue? c).isSome

/-- The number of groups that a row of groups with colons spells. -/
def groupCount? : List (List Char) → Option Nat
  | [] => some 0
  | [last] => if isFourth last then some 2 else if isGroup last then some 1 else none
  | group :: rest => if isGroup group then (groupCount? rest).map (· + 1) else none

/-- The number of groups in some characters, which may be empty. -/
def groupsIn? (cs : List Char) : Option Nat :=
  if cs.isEmpty then some 0 else groupCount? (splitAt ':' cs)

/-- What stands before and after the first `::`. -/
def splitGap? : List Char → Option (List Char × List Char)
  | ':' :: ':' :: rest => some ([], rest)
  | c :: rest => (splitGap? rest).map fun (front, back) => (c :: front, back)
  | [] => none

def isSixth (cs : List Char) : Bool :=
  match splitGap? cs with
  | none => groupsIn? cs = some 8
  | some (front, back) =>
    !front.contains '.' &&
      match groupsIn? front, groupsIn? back with
      | some m, some n => m + n ≤ 7
      | _, _ => false

end Address

/-- Whether some characters are an address of either version. -/
def isAddress (cs : List Char) : Bool := Address.isFourth cs || Address.isSixth cs

end QueryClient.Pool
