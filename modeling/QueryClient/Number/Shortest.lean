/-
  The shortest decimal that reads back as a given floating point number.

  The numbers that round to `m * 2 ^ q` form an interval, whose ends belong to it if `m` is
  even.  For 1, 2, ... digits the two neighbours of the number on the decimal grid of that many
  digits are tried; the first grid with a neighbour inside the interval gives the digits, and
  of two neighbours inside the nearer one is taken.
-/
import QueryClient.Number.Double

namespace QueryClient.Number

/-- The number `digits * 10 ^ exponent`. -/
structure Digits where
  digits : Nat
  exponent : Int
  deriving DecidableEq, Repr

/-- The exponent of the greatest power of ten that is at most `num / den`, both positive. -/
def floorLog10 (num den : Nat) : Int :=
  let l : Int := ((Nat.toDigits 10 num).length : Int) - (Nat.toDigits 10 den).length
  if powLe 10 num den l then l else l - 1

/-- The numbers that round to one floating point number, in quarters of the distance `num / den`
between its neighbours: from `low` to `high` around `mid`. -/
structure Interval where
  low : Nat
  mid : Nat
  high : Nat
  num : Nat
  den : Nat
  closed : Bool

/-- The interval of a positive finite pattern.  Below a power of two the neighbours are only
half as far away. -/
def Format.interval (f : Format) (p : Nat) : Interval :=
  let m := f.significand p
  let q := f.scale p - 2
  let narrow := p % Nat.pow 2 f.fractionBits = 0 ∧ 1 < p / Nat.pow 2 f.fractionBits
  { low := 4 * m - if narrow then 1 else 2
    mid := 4 * m
    high := 4 * m + 2
    num := Nat.pow 2 q.toNat
    den := Nat.pow 2 (-q).toNat
    closed := m % 2 = 0 }

namespace Interval

/-- Whether `c * 10 ^ g` lies in the interval. -/
def holds (i : Interval) (c : Nat) (g : Int) : Bool :=
  let x := c * Nat.pow 10 g.toNat * i.den
  let unit := i.num * Nat.pow 10 (-g).toNat
  if i.closed then i.low * unit ≤ x ∧ x ≤ i.high * unit
  else i.low * unit < x ∧ x < i.high * unit

/-- The neighbour of the number on the grid of `10 ^ g` that lies in the interval, the nearer
one of two.  `up` says whether a tie goes to the greater. -/
def onGrid? (i : Interval) (up : Nat → Bool) (g : Int) : Option Nat :=
  let num := i.mid * i.num * Nat.pow 10 (-g).toNat
  let den := i.den * Nat.pow 10 g.toNat
  let c := num / den
  let r := num % den
  match i.holds c g, i.holds (c + 1) g with
  | false, false => none
  | true, false => some c
  | false, true => some (c + 1)
  | true, true =>
    some (if 2 * r < den then c else if den < 2 * r then c + 1 else if up c then c + 1 else c)

/-- The first grid from `n` digits on, `fuel` grids at most, that has a neighbour inside. -/
def search (i : Interval) (up : Nat → Bool) (top : Int) (n : Nat) : Nat → Digits
  | 0 => ⟨0, 0⟩
  | fuel + 1 =>
    let g := top - n + 1
    match i.onGrid? up g with
    | some c => ⟨c, g⟩
    | none => i.search up top (n + 1) fuel

end Interval

/-- Moves trailing zeros of the digits into the exponent, `fuel` of them at most. -/
def Digits.trimZeros (d : Digits) : Nat → Digits
  | 0 => d
  | fuel + 1 =>
    if d.digits ≠ 0 ∧ d.digits % 10 = 0 then
      Digits.trimZeros ⟨d.digits / 10, d.exponent + 1⟩ fuel
    else d

/-- The shortest decimal inside the interval of a positive finite pattern.  Twenty digits are
more than any of the formats needs. -/
def Format.shortest (f : Format) (up : Nat → Bool) (p : Nat) : Digits :=
  let i := f.interval p
  (i.search up (floorLog10 (i.mid * i.num) i.den) 1 20).trimZeros 20

/-! ## Decimal text -/

/-- How a floating point number is written. -/
structure DecimalText where
  /-- The last place before the point, counted from the first digit, that is written without
  an exponent. -/
  maxPoint : Option Int
  /-- The first such place that is written without an exponent. -/
  minPoint : Option Int
  /-- Whether a whole number is written with `.0`. -/
  keepPoint : Bool
  /-- The mark between the digits and an exponent that is not negative. -/
  exponentMark : String
  /-- Whether a tie between two shortest decimals goes up, given the lower one. -/
  tieUp : Nat → Bool

/-- Without an exponent, and without a point where none is needed. -/
def DecimalText.plain : DecimalText where
  maxPoint := none
  minPoint := none
  keepPoint := false
  exponentMark := "e"
  tieUp _ := true

/-- As JSON text: sixteen places before the point and four zeros after it are written out. -/
def DecimalText.json : DecimalText where
  maxPoint := some 16
  minPoint := some (-4)
  keepPoint := true
  exponentMark := "e+"
  tieUp c := c % 2 = 1

namespace DecimalText

/-- The digits with their point after the first `point` places. -/
def positional (t : DecimalText) (ds : List Char) (point : Int) : List Char :=
  if point ≤ 0 then '0' :: '.' :: (List.replicate (-point).toNat '0' ++ ds)
  else if ds.length ≤ point.toNat then
    ds ++ List.replicate (point.toNat - ds.length) '0' ++ if t.keepPoint then ['.', '0'] else []
  else ds.take point.toNat ++ '.' :: ds.drop point.toNat

/-- The digits with a point after the first of them, and an exponent. -/
def scientific (t : DecimalText) (ds : List Char) (point : Int) : List Char :=
  let e := point - 1
  let mantissa := match ds with
    | d :: d' :: rest => d :: '.' :: d' :: rest
    | ds => ds
  mantissa ++ if e < 0 then 'e' :: '-' :: Nat.toDigits 10 e.natAbs
    else t.exponentMark.toList ++ Nat.toDigits 10 e.natAbs

/-- A positive finite number or zero. -/
def magnitude (t : DecimalText) (f : Format) (p : Nat) : List Char :=
  if p = 0 then if t.keepPoint then ['0', '.', '0'] else ['0'] else
    let d := f.shortest t.tieUp p
    let ds := Nat.toDigits 10 d.digits
    let point := (ds.length : Int) + d.exponent
    if t.maxPoint.all (point ≤ ·) && t.minPoint.all (· ≤ point) then t.positional ds point
    else t.scientific ds point

/-- A number that is not finite has a name. -/
def render (t : DecimalText) (x : Double) : String :=
  if x.isNaN then "NaN"
  else if x.isInfinite then if x.isNegative then "-inf" else "inf"
  else
    let body := t.magnitude double x.magnitude
    String.ofList (if x.isNegative then '-' :: body else body)

end DecimalText

end QueryClient.Number
