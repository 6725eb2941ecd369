/-
  The numbers that floating point numbers stand for, and the nearest ones to them.

  * `Double.value` is the number that a finite floating point number stands for;
  * `IsNearest v n`: `n` is the integer nearest to `v`, of two that are as near the one that is
    further from zero;
  * `Double.isNearest_round`: that is what rounding gives, and nothing else is;
  * `Double.ofInt_nearest`: no floating point number is nearer to an integer than the one that it
    is made into.
-/
import QueryClient.Proofs.Number.Floats
import Mathlib.Algebra.Order.Field.Basic
import Mathlib.Algebra.Order.Field.Power
import Mathlib.Algebra.Order.Ring.Rat
import Mathlib.Tactic.Linarith
import Mathlib.Tactic.NormNum
import Mathlib.Tactic.Positivity
import Mathlib.Tactic.Ring
import Mathlib.Tactic.FieldSimp

namespace QueryClient.Number

/-! ## The nearest integer -/

/-- An integer is nearest to a number; of two that are as near, it is the one that is further from
zero. -/
structure IsNearest (v : ℚ) (n : ℤ) : Prop where
  near : |v - n| ≤ 1 / 2
  away : |v - n| = 1 / 2 → |v| < |(n : ℚ)|

/-- There is one such integer. -/
theorem IsNearest.unique {v : ℚ} {m n : ℤ} (hm : IsNearest v m) (hn : IsNearest v n) : m = n := by
  wlog hlt : m < n generalizing m n with hsymm
  · rcases lt_or_eq_of_le (not_lt.1 hlt) with hgt | heq
    · exact (hsymm hn hm hgt).symm
    · exact heq.symm
  exfalso
  have hstep : (m : ℚ) + 1 ≤ n := by exact_mod_cast hlt
  have hlow := abs_le.1 hm.near
  have hhigh := abs_le.1 hn.near
  have hbelow : v - m = 1 / 2 := by linarith [hlow.2, hhigh.1]
  have habove : v - n = -(1 / 2) := by linarith [hlow.2, hhigh.1]
  -- of the two integers half a unit away, one is no further from zero
  rcases le_or_gt 0 m with hnonneg | hneg
  · have hm0 : (0 : ℚ) ≤ m := by exact_mod_cast hnonneg
    have haway := hm.away (by rw [hbelow]; norm_num)
    rw [abs_of_nonneg hm0] at haway
    linarith [le_abs_self v]
  · have hn0 : (n : ℚ) ≤ 0 := by
      have hm1 : (m : ℚ) + 1 ≤ 0 := by exact_mod_cast hneg
      linarith
    have haway := hn.away (by rw [habove]; norm_num)
    rw [abs_of_nonpos hn0] at haway
    linarith [neg_abs_le v]

theorem IsNearest.neg {v : ℚ} {n : ℤ} (h : IsNearest v n) : IsNearest (-v) (-n) := by
  have heq : -v - ((-n : ℤ) : ℚ) = -(v - n) := by push_cast; ring
  constructor
  · rw [heq, abs_neg]
    exact h.near
  · rw [heq, abs_neg, Int.cast_neg, abs_neg, abs_neg]
    exact h.away

/-- Half a unit more, without what is behind the point. -/
theorem isNearest_div (num : ℕ) {den : ℕ} (hden : 0 < den) :
    IsNearest (num / den) ((2 * num + den) / (2 * den) : ℕ) := by
  have hpos : (0 : ℚ) < den := by exact_mod_cast hden
  generalize hn : (2 * num + den) / (2 * den) = n
  have hle : 2 * den * n ≤ 2 * num + den := by
    rw [← hn]
    exact Nat.mul_div_le _ _
  have hlt : 2 * num + den < 2 * den * (n + 1) := by
    rw [← hn]
    exact Nat.lt_mul_div_succ _ (by omega)
  have hleQ : (2 : ℚ) * den * n ≤ 2 * num + den := by exact_mod_cast hle
  have hltQ : (2 : ℚ) * num + den < 2 * den * (n + 1) := by exact_mod_cast hlt
  have hlow : (n : ℚ) - 1 / 2 ≤ num / den := by
    rw [le_div_iff₀ hpos]
    linarith
  have hhigh : (num / den : ℚ) < n + 1 / 2 := by
    rw [div_lt_iff₀ hpos]
    linarith
  have hnonneg : (0 : ℚ) ≤ num / den := by positivity
  constructor
  · rw [Int.cast_natCast, abs_le]
    constructor <;> linarith
  · intro hhalf
    rw [Int.cast_natCast] at hhalf ⊢
    rw [abs_of_nonneg hnonneg, abs_of_nonneg (Nat.cast_nonneg n)]
    rcases abs_cases ((num : ℚ) / den - n) with ⟨h, _⟩ | ⟨h, _⟩ <;> linarith

/-! ## Values -/

/-- A power of two as a fraction of powers of which one is one. -/
theorem two_zpow (q : ℤ) : (2 : ℚ) ^ q = 2 ^ q.toNat / 2 ^ (-q).toNat := by
  have hsplit : q = (q.toNat : ℤ) - ((-q).toNat : ℤ) := by omega
  conv_lhs => rw [hsplit]
  rw [zpow_sub₀ two_ne_zero, zpow_natCast, zpow_natCast]

/-- The number that a finite pattern stands for. -/
def Format.size (f : Format) (p : ℕ) : ℚ := f.significand p * 2 ^ f.scale p

namespace Double

/-- The number that a finite floating point number stands for. -/
def value (x : Double) : ℚ :=
  if x.isNegative then -double.size x.magnitude else double.size x.magnitude

theorem ratio_pos (x : Double) : 0 < x.ratio.2 := Nat.two_pow_pos _

theorem size_eq_ratio (x : Double) : double.size x.magnitude = x.ratio.1 / x.ratio.2 := by
  have hpow : ∀ n, Nat.pow 2 n = 2 ^ n := fun _ => rfl
  rw [Format.size, two_zpow, ratio]
  simp only [hpow]
  push_cast
  ring

/-- **Rounding gives the nearest integer**, a half going away from zero. -/
theorem isNearest_round (x : Double) : IsNearest x.value x.round := by
  have hnearest := isNearest_div x.ratio.1 x.ratio_pos
  rw [value, round, size_eq_ratio]
  dsimp only
  split_ifs
  · exact hnearest.neg
  · exact hnearest

end Double

/-! ## Integers as floating point numbers -/

theorem roundHalfEven_near (num : ℕ) {den : ℕ} (hden : 0 < den) :
    |(roundHalfEven num den : ℚ) - num / den| ≤ 1 / 2 := by
  have hpos : (0 : ℚ) < den := by exact_mod_cast hden
  have hdiv : den * (num / den) + num % den = num := Nat.div_add_mod num den
  have hmod : num % den < den := Nat.mod_lt num hden
  have hup : den * (num / den + 1) = den * (num / den) + den := Nat.mul_succ ..
  have hr : 2 * (den * roundHalfEven num den) ≤ 2 * num + den ∧
      2 * num ≤ 2 * (den * roundHalfEven num den) + den := by
    unfold roundHalfEven
    dsimp only
    split_ifs <;> omega
  generalize roundHalfEven num den = r at hr
  have hlow : (2 : ℚ) * (den * r) ≤ 2 * num + den := by exact_mod_cast hr.1
  have hhigh : (2 : ℚ) * num ≤ 2 * (den * r) + den := by exact_mod_cast hr.2
  have hle : (r : ℚ) - 1 / 2 ≤ num / den := by
    rw [le_div_iff₀ hpos]
    linarith
  have hge : (num / den : ℚ) ≤ r + 1 / 2 := by
    rw [div_le_iff₀ hpos]
    linarith
  rw [abs_le]
  constructor <;> linarith

/-- No integer is nearer to a number than one that is half a unit away from it. -/
theorem abs_sub_le_of_near {v : ℚ} {r : ℤ} (h : |(r : ℚ) - v| ≤ 1 / 2) (k : ℤ) :
    |(r : ℚ) - v| ≤ |(k : ℚ) - v| := by
  rcases eq_or_ne k r with rfl | hne
  · exact le_refl _
  · have hone : (1 : ℚ) ≤ |(k : ℚ) - r| := by exact_mod_cast Int.one_le_abs (sub_ne_zero.2 hne)
    have htriangle : |(k : ℚ) - r| ≤ |(k : ℚ) - v| + |(r : ℚ) - v| := by
      rw [abs_sub_comm (r : ℚ) v]
      exact abs_sub_le _ _ _
    linarith

namespace Format

variable {f : Format} {m k : ℕ}

theorem size_nonneg (f : Format) (p : ℕ) : 0 ≤ f.size p := by
  unfold size
  positivity

theorem Parts.size_pattern (h : f.Parts m k) :
    f.size (f.pattern m k) = m * 2 ^ (f.minScale + k) := by
  rw [size, h.significand_pattern, h.scale_pattern]

/-- Rounding up to a power of two carries into the scale. -/
theorem size_pattern_of_le (hlow : 2 ^ f.fractionBits ≤ m) (hhigh : m ≤ 2 ^ (f.fractionBits + 1))
    (hfinite : k * 2 ^ f.fractionBits + m < f.infinity) :
    f.size (f.pattern m k) = m * 2 ^ (f.minScale + k) := by
  rcases lt_or_eq_of_le hhigh with hlt | rfl
  · exact Parts.size_pattern ⟨hlt, Or.inr hlow, hfinite⟩
  · have hcarry : k * 2 ^ f.fractionBits + 2 ^ (f.fractionBits + 1) =
        (k + 1) * 2 ^ f.fractionBits + 2 ^ f.fractionBits := by ring
    have hparts : f.Parts (2 ^ f.fractionBits) (k + 1) :=
      ⟨Nat.pow_lt_pow_right (by decide) (Nat.lt_succ_self _), Or.inr (le_refl _),
        hcarry ▸ hfinite⟩
    have hpattern : f.pattern (2 ^ (f.fractionBits + 1)) k =
        f.pattern (2 ^ f.fractionBits) (k + 1) :=
      congrArg (min · f.infinity) hcarry
    rw [hpattern, hparts.size_pattern, pow_succ]
    push_cast
    rw [← add_assoc, zpow_add_one₀ two_ne_zero]
    ring

end Format

/-- How a whole number is rounded: to an integer times the power of two that leaves 53 bits. -/
theorem roundRatio_one {n : ℕ} (hn : 0 < n) :
    double.roundRatio n 1 = double.pattern
      (roundHalfEven (n * 2 ^ (52 - n.log2)) (2 ^ (n.log2 - 52))) (n.log2 + 1022) := by
  have hlog : floorLog2 n 1 = n.log2 := by
    have := floorLog2_two_pow hn 0 0
    simpa using this
  have hplace : ((n.log2 : ℤ) - (52 : ℕ) - -1074).toNat = n.log2 + 1022 := by omega
  have hup : (-(-1074 + ((n.log2 + 1022 : ℕ) : ℤ))).toNat = 52 - n.log2 := by omega
  have hdown : (-1074 + ((n.log2 + 1022 : ℕ) : ℤ)).toNat = n.log2 - 52 := by omega
  unfold Format.roundRatio
  dsimp only
  rw [if_neg (Nat.ne_of_gt hn), hlog, fractionBits_double, minScale_double, hplace, hup, hdown,
    Nat.one_mul]
  rfl

theorem abs_mul_zpow_sub (x v : ℚ) (s : ℤ) : |x * 2 ^ s - v| = 2 ^ s * |x - v / 2 ^ s| := by
  have hpos : (0 : ℚ) < 2 ^ s := by positivity
  have hsplit : x * 2 ^ s - v = 2 ^ s * (x - v / 2 ^ s) := by
    field_simp
  rw [hsplit, abs_mul, abs_of_pos hpos]

/-- From `2 ^ 52` units on, every number of the format is a whole number of units. -/
theorem size_eq_mul_or_le {p : ℕ} (hp : p < double.infinity) (s : ℤ) :
    (∃ k : ℤ, double.size p = k * 2 ^ s) ∨ double.size p ≤ 2 ^ 52 * 2 ^ s := by
  obtain ⟨m, k, hparts, rfl⟩ := Format.exists_parts hp
  rw [hparts.size_pattern]
  generalize double.minScale + (k : ℤ) = q
  rcases le_or_gt s q with hle | hlt
  · refine Or.inl ⟨m * 2 ^ (q - s).toNat, ?_⟩
    have hsplit : q = ((q - s).toNat : ℤ) + s := by omega
    conv_lhs => rw [hsplit, zpow_add₀ two_ne_zero, zpow_natCast, ← mul_assoc]
    push_cast
    rfl
  · refine Or.inr ?_
    have hm : (m : ℚ) ≤ 2 ^ 52 * 2 := by
      have hlt := hparts.lt
      rw [fractionBits_double] at hlt
      exact_mod_cast Nat.le_of_lt hlt
    calc (m : ℚ) * 2 ^ q ≤ 2 ^ 52 * 2 * 2 ^ q := by gcongr
      _ = 2 ^ 52 * 2 ^ (q + 1) := by rw [zpow_add_one₀ two_ne_zero]; ring
      _ ≤ 2 ^ 52 * 2 ^ s := by
        have hstep : (2 : ℚ) ^ (q + 1) ≤ 2 ^ s := zpow_le_zpow_right₀ (by norm_num) hlt
        gcongr

/-- A whole number has between `2 ^ 52` and `2 ^ 53` units of the last bit that is kept. -/
theorem units_bounds {n : ℕ} (hn : 0 < n) :
    (2 : ℚ) ^ 52 * 2 ^ ((n.log2 : ℤ) - 52) ≤ n ∧ (n : ℚ) < 2 ^ 53 * 2 ^ ((n.log2 : ℤ) - 52) := by
  have hlow : 2 ^ n.log2 ≤ n := Nat.log2_self_le (Nat.ne_of_gt hn)
  have hhigh : n < 2 ^ (n.log2 + 1) := Nat.lt_log2_self
  have hfull : (2 : ℚ) ^ 52 * 2 ^ ((n.log2 : ℤ) - 52) = 2 ^ n.log2 := by
    rw [zpow_sub₀ two_ne_zero, zpow_natCast]
    norm_cast
    field_simp
  constructor
  · rw [hfull]
    exact_mod_cast hlow
  · rw [pow_succ, mul_right_comm, hfull, ← pow_succ]
    exact_mod_cast hhigh

/-- How a whole number is rounded: to the pattern of an integer of 53 bits, or of the next one,
that is nearest to it in units of the last bit. -/
theorem exists_roundRatio_one {n : ℕ} (hn : 0 < n) :
    ∃ r : ℕ, double.roundRatio n 1 = double.pattern r (n.log2 + 1022) ∧
      (2 ^ 52 ≤ r ∧ r ≤ 2 ^ 53) ∧ |(r : ℚ) - n / 2 ^ ((n.log2 : ℤ) - 52)| ≤ 1 / 2 := by
  have hnear := roundHalfEven_near (n * 2 ^ (52 - n.log2)) (Nat.two_pow_pos (n.log2 - 52))
  have hunit : ((n * 2 ^ (52 - n.log2) : ℕ) : ℚ) / ((2 ^ (n.log2 - 52) : ℕ) : ℚ) =
      n / 2 ^ ((n.log2 : ℤ) - 52) := by
    have hup : (-((n.log2 : ℤ) - 52)).toNat = 52 - n.log2 := by omega
    have hdown : ((n.log2 : ℤ) - 52).toNat = n.log2 - 52 := by omega
    rw [two_zpow, hup, hdown]
    push_cast
    field_simp
  rw [hunit] at hnear
  refine ⟨_, roundRatio_one hn, ?_, hnear⟩
  have hpos : (0 : ℚ) < 2 ^ ((n.log2 : ℤ) - 52) := by positivity
  have hge := (le_div_iff₀ hpos).2 (units_bounds hn).1
  have hle := (div_lt_iff₀ hpos).2 (units_bounds hn).2
  have hbounds := abs_le.1 hnear
  generalize roundHalfEven _ _ = r at hbounds ⊢
  constructor
  · have hlt : (2 : ℚ) ^ 52 < (r + 1 : ℕ) := by
      push_cast
      linarith
    exact Nat.lt_succ_iff.1 (by exact_mod_cast hlt)
  · have hlt : (r : ℚ) < (2 ^ 53 + 1 : ℕ) := by
      push_cast
      linarith
    exact Nat.lt_succ_iff.1 (by exact_mod_cast hlt)

/-- The pattern that a whole number of 64 bits is rounded to: it is finite, and no finite pattern
stands for a number that is nearer. -/
theorem size_roundRatio_one {n : ℕ} (h : n < 2 ^ 64) :
    double.roundRatio n 1 < double.infinity ∧ ∀ p < double.infinity,
      |double.size (double.roundRatio n 1) - n| ≤ |double.size p - n| := by
  rcases Nat.eq_zero_or_pos n with rfl | hn
  · rw [Format.roundRatio_zero]
    refine ⟨by decide, fun p _ => ?_⟩
    have hzero : double.size 0 = 0 := by
      have hnone : double.significand 0 = 0 := rfl
      rw [Format.size, hnone, Nat.cast_zero, zero_mul]
    rw [hzero, Nat.cast_zero, sub_zero, abs_zero]
    exact abs_nonneg _
  obtain ⟨r, hround, hr, hnear⟩ := exists_roundRatio_one hn
  have hleast := (units_bounds hn).1
  have hlog : n.log2 < 64 := (Nat.log2_lt (Nat.ne_of_gt hn)).2 h
  have hfinite : (n.log2 + 1022) * 2 ^ double.fractionBits + r < double.infinity := by
    rw [fractionBits_double, infinity_double]
    omega
  have hsize : double.size (double.roundRatio n 1) = r * 2 ^ ((n.log2 : ℤ) - 52) := by
    have hscale : (-1074 : ℤ) + ((n.log2 + 1022 : ℕ) : ℤ) = n.log2 - 52 := by omega
    rw [hround, Format.size_pattern_of_le hr.1 hr.2 hfinite, minScale_double, hscale]
  rw [hsize]
  generalize (n.log2 : ℤ) - 52 = s at hleast hnear
  have hpos : (0 : ℚ) < 2 ^ s := by positivity
  have hgrid : ∀ k : ℤ, |(r : ℚ) * 2 ^ s - n| ≤ |(k : ℚ) * 2 ^ s - n| := by
    intro k
    rw [abs_mul_zpow_sub, abs_mul_zpow_sub]
    exact mul_le_mul_of_nonneg_left (abs_sub_le_of_near (r := r) hnear k) (le_of_lt hpos)
  refine ⟨hround ▸ (min_le_left _ _).trans_lt hfinite, fun p hp => ?_⟩
  rcases size_eq_mul_or_le hp s with ⟨k, hk⟩ | hle
  · rw [hk]
    exact hgrid k
  · -- a number that is no whole number of units is less than `2 ^ 52` units
    calc |(r : ℚ) * 2 ^ s - n| ≤ |((2 ^ 52 : ℤ) : ℚ) * 2 ^ s - n| := hgrid (2 ^ 52)
      _ = n - 2 ^ 52 * 2 ^ s := by
        rw [Int.cast_pow, Int.cast_ofNat, abs_of_nonpos (by linarith), neg_sub]
      _ ≤ |double.size p - n| := by
        rw [abs_sub_comm]
        exact (by linarith : (n : ℚ) - 2 ^ 52 * 2 ^ s ≤ n - double.size p).trans (le_abs_self _)

namespace Double

theorem abs_value (x : Double) : |x.value| = double.size x.magnitude := by
  have hnonneg := Format.size_nonneg double x.magnitude
  rw [value]
  split_ifs
  · rw [abs_neg, abs_of_nonneg hnonneg]
  · exact abs_of_nonneg hnonneg

/-- An integer of 64 bits with or without a sign is made into a finite number, **to which none is
nearer**. -/
theorem ofInt_nearest {i : ℤ} (h : i.natAbs < 2 ^ 64) :
    (ofInt i).isFinite ∧ ∀ y : Double, y.isFinite → |(ofInt i).value - i| ≤ |y.value - i| := by
  obtain ⟨hfinite, hnearest⟩ := size_roundRatio_one h
  have hlt : double.roundRatio i.natAbs 1 < 2 ^ 63 :=
    hfinite.trans (by rw [infinity_double]; decide)
  have hmagnitude : (ofInt i).magnitude = double.roundRatio i.natAbs 1 :=
    magnitude_ofMagnitude hlt _
  have hnegative : (ofInt i).isNegative = decide (i < 0) := isNegative_ofMagnitude hlt _
  refine ⟨by rw [isFinite, hmagnitude, decide_eq_true_eq]; exact hfinite, fun y hy => ?_⟩
  have hsize : |(i : ℚ)| = i.natAbs := by
    rw [← Int.cast_abs, Int.abs_eq_natAbs]
    rfl
  -- the number has the sign of the integer, so that they are as far apart as their sizes
  have hsame : |(ofInt i).value - i| = |double.size (double.roundRatio i.natAbs 1) - i.natAbs| := by
    rw [value, hnegative, hmagnitude, ← hsize]
    rcases lt_or_ge i 0 with hneg | hnonneg
    · have hi : (i : ℚ) < 0 := by exact_mod_cast hneg
      rw [if_pos (by exact decide_eq_true hneg), abs_of_neg hi, ← abs_neg]
      congr 1
      ring
    · have hi : (0 : ℚ) ≤ i := by exact_mod_cast hnonneg
      rw [if_neg (by simpa using hnonneg), abs_of_nonneg hi]
  calc |(ofInt i).value - i| = |double.size (double.roundRatio i.natAbs 1) - i.natAbs| := hsame
    _ ≤ |double.size y.magnitude - i.natAbs| := hnearest _ (by simpa [isFinite] using hy)
    _ = |(|y.value| - |(i : ℚ)|)| := by rw [abs_value, hsize]
    _ ≤ |y.value - i| := abs_abs_sub_abs_le _ _

end Double

end QueryClient.Number
