/-
  Exact decimal numbers: an integer of at most 96 bits divided by a power of ten up to the
  28th, with a sign of its own.

  The scale is kept by reading and printing (`1.2300` stays `1.2300`).  What does not fit is
  rounded or refused:

  * `ofText?` reads plain text; the first digit beyond the 28th place or the 96th bit decides
    the rounding and ends the reading, and the point may not come after it;
  * `ofScientific?` reads a plain mantissa with an exponent;
  * `ofDouble?` keeps about the fifteen digits that a 64-bit floating point number warrants.
-/
import QueryClient.Number.Literal

namespace QueryClient.Number

/-- The number `± coefficient / 10 ^ scale`. -/
structure Decimal where
  negative : Bool
  coefficient : Nat
  scale : Nat
  deriving DecidableEq, Inhabited, Repr

namespace Decimal

/-- The largest scale. -/
def maxScale : Nat := 28

/-- One more than the largest coefficient. -/
def bound : Nat := Nat.pow 2 96

/-- The number of the given parts; zero is never negative. -/
def make (negative : Bool) (coefficient scale : Nat) : Decimal :=
  ⟨negative && coefficient != 0, coefficient, scale⟩

def ofInt (i : Int) : Decimal := make (i < 0) i.natAbs 0

/-! ## Text -/

/-- The digits of the coefficient, at least one more than the scale. -/
def paddedDigits (d : Decimal) : List Char :=
  let ds := Nat.toDigits 10 d.coefficient
  List.replicate (d.scale + 1 - ds.length) '0' ++ ds

/-- The number with as many places after the point as the scale says. -/
def toText (d : Decimal) : String :=
  let ds := d.paddedDigits
  let whole := ds.take (ds.length - d.scale)
  let body := if d.scale = 0 then whole else whole ++ '.' :: ds.drop (ds.length - d.scale)
  String.ofList (if d.negative then '-' :: body else body)

/-- What has been read of a plain number: the digits, how many of them stand after the point,
whether a point and whether a digit was seen. -/
structure Reading where
  coefficient : Nat := 0
  scale : Nat := 0
  point : Bool := false
  digit : Bool := false

/-- Ends the reading at a character that is past the last place that fits: from 5 on it rounds
up, and a coefficient that becomes too large by that gives up a place. -/
def Reading.roundAt (r : Reading) (negative : Bool) (c : Char) : Option Decimal :=
  let next? := match c with
    | '_' => some 0
    | '.' => if r.point then some 0 else none
    | c => digitValue? c
  next?.bind fun next =>
    if next < 5 then some (make negative r.coefficient r.scale)
    else if r.coefficient + 1 < bound then some (make negative (r.coefficient + 1) r.scale)
    else if r.scale = 0 then none
    else some (make negative ((r.coefficient + 5) / 10) (r.scale - 1))

/-- Reads digits, one point, and underscores after the first digit. -/
def Reading.run (negative : Bool) : Reading → List Char → Option Decimal
  | r, [] => if r.digit then some (make negative r.coefficient r.scale) else none
  | r, c :: rest =>
    if r.digit ∧ r.point ∧ maxScale ≤ r.scale then r.roundAt negative c
    else match c with
      | '.' => if r.point then none else Reading.run negative { r with point := true } rest
      | '_' => if r.digit then Reading.run negative r rest else none
      | c =>
        match digitValue? c with
        | none => none
        | some d =>
          let n := 10 * r.coefficient + d
          if n < bound then
            Reading.run negative
              { r with coefficient := n, scale := r.scale + (if r.point then 1 else 0),
                       digit := true } rest
          else if r.point then r.roundAt negative c
          else none

/-- The number that a plain text spells. -/
def ofText? (cs : List Char) : Option Decimal :=
  match cs with
  | '-' :: rest => Reading.run true {} rest
  | '+' :: rest | rest => Reading.run false {} rest

/-- A natural number of 32 bits with an optional plus sign. -/
def exponent? (cs : List Char) : Option Nat :=
  let ds := match cs with
    | '+' :: ds | ds => ds
  match ds with
  | [] => none
  | ds => (readDigits (unsignedMax 32) .tooLarge 0 ds).toOption

/-- The number times a power of ten that is greater than its scale: a whole number. -/
def scaleUp? (d : Decimal) (e : Nat) : Option Decimal :=
  let n := d.coefficient * Nat.pow 10 (e - d.scale)
  if e ≤ maxScale ∧ n < bound then some (make d.negative n 0) else none

/-- The number that a text with an exponent spells.  The exponent only moves the point while
it can. -/
def ofScientific? (cs : List Char) : Option Decimal :=
  let isMark := fun c : Char => c = 'e' ∨ c = 'E'
  match cs.dropWhile (!isMark ·) with
  | [] => none
  | _ :: tail => do
    let d ← ofText? (cs.takeWhile (!isMark ·))
    match tail with
    | '-' :: digits =>
      let e ← exponent? digits
      if d.scale + e ≤ maxScale then some { d with scale := d.scale + e } else none
    | digits =>
      let e ← exponent? digits
      if e ≤ d.scale then some { d with scale := d.scale - e } else d.scaleUp? e

/-- The number that a text spells, plain or with an exponent. -/
def parse? (s : String) : Option Decimal :=
  ofText? s.toList <|> ofScientific? s.toList

/-! ## From floating point

The coefficient `c` of `c * 5 ^ n * 10 ^ t` takes in the powers of five one by one while it
stays within 96 bits. -/

/-- Takes `n` divisions by two into a coefficient with exponent `t` of ten: an even one is
halved, another one is multiplied by five, or halved with loss if it would grow too large. -/
def absorbHalves : Nat → Nat → Int → Nat × Int
  | 0, c, t => (c, t)
  | n + 1, c, t =>
    if c % 2 = 0 then absorbHalves n (c / 2) (t + 1)
    else if 5 * c < bound then absorbHalves n (5 * c) t
    else absorbHalves n (c / 2) (t + 1)

/-- Takes `n` doublings into a coefficient with exponent `t` of ten: it is doubled while that
fits and divided by five with loss when it does not. -/
def absorbDoublings : Nat → Nat → Int → Nat × Int
  | 0, c, t => (c, t)
  | n + 1, c, t =>
    if 2 * c < bound then absorbDoublings n (2 * c) (t - 1) else absorbDoublings n (c / 5) t

/-- Drops the last digit, rounding a half up. -/
def dropDigit (c : Nat) : Nat := (c + 5) / 10

/-- Drops `n` digits one after the other; a coefficient that vanishes has scale zero. -/
def dropDigits : Nat → Nat → Int → Nat × Int
  | 0, c, t => (c, t)
  | n + 1, c, t => if c / 10 = 0 then (0, 0) else dropDigits n (dropDigit c) (t + 1)

/-- Drops digits after the point while the coefficient has more than 52 bits. -/
def dropExcess (c : Nat) : Nat → Nat × Nat
  | 0 => (c, 0)
  | s + 1 => if c < Nat.pow 2 52 then (c, s + 1) else dropExcess (dropDigit c) s

/-- Drops zeros after the point. -/
def dropZeros (c : Nat) : Nat → Nat × Nat
  | 0 => (c, 0)
  | s + 1 => if c % 10 = 0 then dropZeros (c / 10) s else (c, s + 1)

/-- The decimal for a floating point number, if it is finite and not too large. -/
def ofDouble? (x : Double) : Option Decimal :=
  if !x.isFinite then none
  else if x.magnitude = 0 then some ⟨x.isNegative, 0, 0⟩
  else
    let q := double.scale x.magnitude
    let m := double.significand x.magnitude
    let (c, t) := if q < 0 then absorbHalves q.natAbs m q else absorbDoublings q.natAbs m q
    if 0 < t then
      let n := c * Nat.pow 10 t.toNat
      if n < bound then some (make x.isNegative n 0) else none
    else
      let (c, t) := dropDigits (t.natAbs - maxScale) c t
      let (c, s) := dropExcess c t.natAbs
      let (c, s) := dropZeros c s
      some (make x.isNegative c s)

/-! ## Arithmetic for decoding -/

/-- The least number of digits, up to `s`, without which `n` is below the bound. -/
def excessDigits (n : Nat) : Nat → Option Nat
  | 0 => if n < bound then some 0 else none
  | s + 1 => if n < bound then some 0 else (excessDigits (n / 10) s).map (· + 1)

/-- The number `n / 10 ^ scale` with as many places as fit, a half going to the even
coefficient. -/
def fit? (n scale : Nat) : Option Decimal :=
  (excessDigits n scale).bind fun k =>
    let c := roundHalfEven n (Nat.pow 10 k)
    if c < bound then some ⟨false, c, scale - k⟩
    else if k < scale then some ⟨false, roundHalfEven n (Nat.pow 10 (k + 1)), scale - k - 1⟩
    else none

/-- The sum of two numbers without regard to their signs. -/
def addMagnitudes? (a b : Decimal) : Option Decimal :=
  let s := max a.scale b.scale
  fit? (a.coefficient * Nat.pow 10 (s - a.scale) + b.coefficient * Nat.pow 10 (s - b.scale)) s

/-- The greatest number of places, up to `k`, by which the coefficient can be extended. -/
def extend (c : Nat) : Nat → Nat → Nat × Nat
  | 0, s => (c, s)
  | k + 1, s => if 10 * c < bound then extend (10 * c) k (s + 1) else (c, s)

/-- The number with the scale `scale`, or with the nearest one at which it can be held; a half
goes away from zero. -/
def rescale (d : Decimal) (scale : Nat) : Decimal :=
  let scale := min scale maxScale
  if d.coefficient = 0 then { d with scale := scale }
  else if scale ≤ d.scale then
    let k := d.scale - scale
    let unit := Nat.pow 10 k
    { d with coefficient := (2 * d.coefficient + unit) / (2 * unit), scale := scale }
  else
    let (c, s) := extend d.coefficient (scale - d.scale) d.scale
    { d with coefficient := c, scale := s }

end Decimal

end QueryClient.Number
