/-
  Binary floating point numbers with a fixed number of bits, as bit patterns without a sign.

  A format has `fractionBits` and `exponentBits`.  A finite pattern stands for `m * 2 ^ q`
  (`significand`, `scale`); patterns are ordered as the numbers are, so the pattern of
  `m * 2 ^ q` is `m` plus the place of `q` above the smallest scale (`pattern`), and rounding
  carries into the exponent by itself.

  * `roundRatio num den` is the pattern nearest to `num / den`, a tie going to the even one,
    and the pattern of infinity beyond the largest finite number.
-/

namespace QueryClient.Number

/-- The widths of a binary format. -/
structure Format where
  fractionBits : Nat
  exponentBits : Nat

/-- The 64-bit format. -/
def double : Format := ⟨52, 11⟩

/-- The 32-bit format. -/
def single : Format := ⟨23, 8⟩

namespace Format

/-- The scale of the smallest numbers of the format. -/
def minScale (f : Format) : Int :=
  2 - (Nat.pow 2 (f.exponentBits - 1) : Nat) - f.fractionBits

/-- The pattern of infinity; every greater pattern is not a number. -/
def infinity (f : Format) : Nat :=
  (Nat.pow 2 f.exponentBits - 1) * Nat.pow 2 f.fractionBits

/-- The integer `m` of a finite pattern `m * 2 ^ q`. -/
def significand (f : Format) (p : Nat) : Nat :=
  let fraction := p % Nat.pow 2 f.fractionBits
  if p / Nat.pow 2 f.fractionBits = 0 then fraction else Nat.pow 2 f.fractionBits + fraction

/-- The scale `q` of a finite pattern `m * 2 ^ q`. -/
def scale (f : Format) (p : Nat) : Int :=
  let e := p / Nat.pow 2 f.fractionBits
  f.minScale + ((e - 1 : Nat) : Int)

/-- The pattern of `m * 2 ^ (minScale + k)`, or of infinity if that is too large. -/
def pattern (f : Format) (m k : Nat) : Nat :=
  min (k * Nat.pow 2 f.fractionBits + m) f.infinity

end Format

/-- The integer nearest to `num / den`, a tie going to the even one. -/
def roundHalfEven (num den : Nat) : Nat :=
  let q := num / den
  let r := num % den
  if 2 * r < den then q else if den < 2 * r then q + 1 else if q % 2 = 0 then q else q + 1

/-- Whether `base ^ k ≤ num / den`. -/
def powLe (base num den : Nat) (k : Int) : Bool :=
  den * Nat.pow base k.toNat ≤ num * Nat.pow base (-k).toNat

/-- The exponent of the greatest power of two that is at most `num / den`, both positive. -/
def floorLog2 (num den : Nat) : Int :=
  let l : Int := (num.log2 : Int) - den.log2
  if powLe 2 num den l then l else l - 1

/-- The pattern nearest to `num / den`, a tie going to the even pattern. -/
def Format.roundRatio (f : Format) (num den : Nat) : Nat :=
  if num = 0 then 0 else
    let k := (floorLog2 num den - f.fractionBits - f.minScale).toNat
    let q := f.minScale + k
    f.pattern (roundHalfEven (num * Nat.pow 2 (-q).toNat) (den * Nat.pow 2 q.toNat)) k

end QueryClient.Number
