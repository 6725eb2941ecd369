/-
  Floating point numbers of 64 and 32 bits, held as their bits, so that two numbers are equal
  as values exactly if their bits are.

  Conversions to a narrower type round to the nearest number, a tie going to the even one; the
  conversion from 32 to 64 bits is exact.
-/
import QueryClient.Number.Binary

namespace QueryClient.Number

/-- A 64-bit floating point number, as its bits. -/
structure Double where
  bits : UInt64
  deriving DecidableEq, Inhabited

/-- A 32-bit floating point number, as its bits. -/
structure Single where
  bits : UInt32
  deriving DecidableEq, Inhabited

namespace Double

/-- Whether the sign bit is set. -/
def isNegative (x : Double) : Bool := x.bits.toNat / Nat.pow 2 63 = 1

/-- The bits without the sign. -/
def magnitude (x : Double) : Nat := x.bits.toNat % Nat.pow 2 63

def isNaN (x : Double) : Bool := double.infinity < x.magnitude

def isInfinite (x : Double) : Bool := x.magnitude = double.infinity

def isFinite (x : Double) : Bool := x.magnitude < double.infinity

/-- The number with the given sign and unsigned bits. -/
def ofMagnitude (negative : Bool) (p : Nat) : Double :=
  ⟨UInt64.ofNat (p + if negative then Nat.pow 2 63 else 0)⟩

def neg (x : Double) : Double :=
  ofMagnitude (!x.isNegative) x.magnitude

/-- The number nearest to `± num / den`. -/
def ofRatio (negative : Bool) (num den : Nat) : Double :=
  ofMagnitude negative (double.roundRatio num den)

/-- The number nearest to an integer. -/
def ofInt (i : Int) : Double :=
  ofRatio (i < 0) i.natAbs 1

/-- The size of a finite number as a fraction. -/
def ratio (x : Double) : Nat × Nat :=
  let m := double.significand x.magnitude
  let q := double.scale x.magnitude
  (m * Nat.pow 2 q.toNat, Nat.pow 2 (-q).toNat)

/-- The integer nearest to a finite number, a half going away from zero. -/
def round (x : Double) : Int :=
  let (num, den) := x.ratio
  let n : Nat := (2 * num + den) / (2 * den)
  if x.isNegative then -(n : Int) else n

/-- The nearest number to the product of two finite numbers. -/
def mul (x y : Double) : Double :=
  ofRatio (x.isNegative != y.isNegative) (x.ratio.1 * y.ratio.1) (x.ratio.2 * y.ratio.2)

/-- The nearest number to the quotient of two finite numbers, the second not zero. -/
def div (x y : Double) : Double :=
  ofRatio (x.isNegative != y.isNegative) (x.ratio.1 * y.ratio.2) (x.ratio.2 * y.ratio.1)

/-- The number nearest to `10 ^ k`. -/
def tenPow (k : Nat) : Double := ofRatio false (Nat.pow 10 k) 1

/-- The nearest 32-bit number; not-a-number keeps its sign and the front of its payload. -/
def toSingle (x : Double) : Single :=
  let p :=
    if x.isNaN then single.infinity + Nat.pow 2 22 + x.magnitude % Nat.pow 2 51 / Nat.pow 2 29
    else if x.isInfinite then single.infinity
    else single.roundRatio x.ratio.1 x.ratio.2
  ⟨UInt32.ofNat (p + if x.isNegative then Nat.pow 2 31 else 0)⟩

end Double

namespace Single

def isNegative (x : Single) : Bool := x.bits.toNat / Nat.pow 2 31 = 1

/-- The bits without the sign. -/
def magnitude (x : Single) : Nat := x.bits.toNat % Nat.pow 2 31

/-- The 32-bit number nearest to an integer. -/
def ofInt (i : Int) : Single :=
  ⟨UInt32.ofNat (single.roundRatio i.natAbs 1 + if i < 0 then Nat.pow 2 31 else 0)⟩

/-- The same number with 64 bits. -/
def toDouble (x : Single) : Double :=
  let p := x.magnitude
  if single.infinity < p then
    .ofMagnitude x.isNegative (double.infinity + Nat.pow 2 51 + p % Nat.pow 2 22 * Nat.pow 2 29)
  else if p = single.infinity then .ofMagnitude x.isNegative double.infinity
  else
    let m := single.significand p
    let q := single.scale p
    .ofRatio x.isNegative (m * Nat.pow 2 q.toNat) (Nat.pow 2 (-q).toNat)

end Single

end QueryClient.Number
