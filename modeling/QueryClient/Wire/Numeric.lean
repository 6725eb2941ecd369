/-
  Decimal numbers in binary form: groups of four digits with a weight.

  The number is the sum of the groups, where the group with index `i` counts
  `10000 ^ (weight - i)`.  A sign and the number of places to show stand beside it.
-/
import QueryClient.Bytes
import QueryClient.Number.Decimal

namespace QueryClient.Wire

open QueryClient.Number

/-- The parts of a binary decimal number. -/
structure Numeric where
  weight : Int
  /-- The bits that stand for the sign. -/
  sign : Nat
  /-- The number of places after the point. -/
  places : Nat
  groups : List Nat
  deriving DecidableEq, Repr

namespace Numeric

def positiveSign : Nat := 0

def negativeSign : Nat := 0x4000

/-! ## Bytes -/

def toBytes (n : Numeric) : List UInt8 :=
  Bytes.ofNat 2 n.groups.length ++ Bytes.ofInt 2 n.weight ++ Bytes.ofNat 2 n.sign ++
    Bytes.ofNat 2 n.places ++ n.groups.flatMap (Bytes.ofNat 2)

/-- A number of two bytes at the front. -/
def word? (bytes : List UInt8) : Option (Nat × List UInt8) :=
  (Bytes.split? 2 bytes).map fun (front, rest) => (Bytes.toNat front, rest)

/-- The next `count` groups. -/
def groups? : Nat → List UInt8 → Option (List Nat)
  | 0, _ => some []
  | count + 1, bytes => do
    let (group, rest) ← word? bytes
    let groups ← groups? count rest
    pure (group :: groups)

/-- The parts that some bytes spell; bytes after the last group do not matter. -/
def ofBytes? (bytes : List UInt8) : Option Numeric := do
  let (count, bytes) ← word? bytes
  let (weight, bytes) ← Bytes.split? 2 bytes
  let (sign, bytes) ← word? bytes
  let (places, bytes) ← word? bytes
  let groups ← groups? count bytes
  pure ⟨Bytes.toInt weight, sign, places, groups⟩

/-! ## From decimals -/

/-- The groups of four digits of a number, the last one first, at most `fuel` of them. -/
def reverseGroups : (fuel n : Nat) → List Nat
  | 0, _ => []
  | fuel + 1, n => if n = 0 then [] else n % 10000 :: reverseGroups fuel (n / 10000)

/-- The groups of four digits of a number. -/
def groupsOf (n : Nat) : List Nat := (reverseGroups (n.log2 + 1) n).reverse

/-- Drops groups of zeros at the end, but none of the first `keep` groups. -/
def dropZeroGroups (keep : Nat) (groups : List Nat) : List Nat :=
  groups.take keep ++ ((groups.drop keep).reverse.dropWhile (· = 0)).reverse

/-- The parts of a decimal.  Groups of zeros after the point are left out at the end of a
number that has groups before the point. -/
def ofDecimal (d : Decimal) : Numeric :=
  if d.coefficient = 0 then ⟨0, positiveSign, 0, []⟩
  else
    let fractionGroups := (d.scale + 3) / 4
    let groups := groupsOf (d.coefficient * Nat.pow 10 (4 * fractionGroups - d.scale))
    let weight : Int := (groups.length : Int) - fractionGroups - 1
    { weight
      sign := if d.negative then negativeSign else positiveSign
      places := d.scale
      groups := if 0 ≤ weight then dropZeroGroups (weight + 1).toNat groups else groups }

/-! ## To decimals -/

/-- The whole number that some groups spell, if it fits. -/
def whole? (groups : List Nat) : Option Nat :=
  groups.foldlM (fun n g =>
    let next := 10000 * n + g
    if next < Decimal.bound then some next else none) 0

/-- A fraction with the fewest places. -/
def fraction (group places : Nat) : Decimal :=
  let (c, s) := Decimal.dropZeros group places
  ⟨false, c, s⟩

/-- Adds the groups after the point, of which the first one ends at `place`.  Of what comes
after the last place that a decimal has, only the next group counts: from a half on it rounds
up. -/
def addFractions? (total : Decimal) (place : Nat) : List Nat → Option Decimal
  | [] => some total
  | group :: rest => do
    let total ←
      if place ≤ Decimal.maxScale then total.addMagnitudes? (fraction group place)
      else if place = Decimal.maxScale + 4 ∧ 5000 ≤ group then
        total.addMagnitudes? ⟨false, 1, Decimal.maxScale⟩
      else pure total
    addFractions? total (place + 4) rest

/-- The decimal with as many places as are shown, if the number is one and fits. -/
def toDecimal? (n : Numeric) : Option Decimal := do
  if n.sign ≠ positiveSign ∧ n.sign ≠ negativeSign then none
  else
    let count := (n.weight + 1).toNat
    let missing := count - n.groups.length
    let front ← whole? (n.groups.take count)
    if Decimal.maxScale < 4 * missing then none
    else
      let whole := front * Nat.pow 10 (4 * missing)
      if Decimal.bound ≤ whole then none
      else
        let skipped := (-n.weight - 1).toNat
        let d ← addFractions? ⟨false, whole, 0⟩ (4 * (skipped + 1)) (n.groups.drop count)
        pure ({ d with negative := n.sign = negativeSign }.rescale n.places)

end Numeric

end QueryClient.Wire
