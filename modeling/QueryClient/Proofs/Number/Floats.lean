/-
  Floating point numbers that are kept by a change of width.

  * `Format.Parts f m k` holds of the significand and the place of the scale of a finite pattern;
  * `Format.roundRatio_exact`: a fraction that is such a number is rounded to its pattern;
  * `Single.toSingle_toDouble`: a number of 32 bits is kept by going to 64 bits and back.
-/
import QueryClient.Number.Double
import Mathlib.Algebra.Order.Ring.Nat
import Mathlib.Tactic.SplitIfs

namespace QueryClient.Number

/-! ## Rounding of what needs no rounding -/

theorem roundHalfEven_mul {m d : ℕ} (hd : 0 < d) : roundHalfEven (m * d) d = m := by
  unfold roundHalfEven
  dsimp only
  rw [Nat.mul_mod_left, Nat.mul_div_cancel _ hd, if_pos (by omega)]

theorem log2_mul_two_pow {m : ℕ} (hm : 0 < m) (a : ℕ) : (m * 2 ^ a).log2 = m.log2 + a := by
  have hpos : 0 < 2 ^ a := Nat.two_pow_pos a
  have hle : 2 ^ m.log2 ≤ m := Nat.log2_self_le (Nat.ne_of_gt hm)
  have hlt : m < 2 ^ (m.log2 + 1) := Nat.lt_log2_self
  refine (Nat.log2_eq_iff (Nat.ne_of_gt (Nat.mul_pos hm hpos))).2 ⟨?_, ?_⟩
  · rw [Nat.pow_add]
    exact Nat.mul_le_mul_right _ hle
  · rw [Nat.add_right_comm, Nat.pow_add]
    exact Nat.mul_lt_mul_of_pos_right hlt hpos

/-- Only the significand counts for the logarithm of a fraction of powers of two. -/
theorem floorLog2_two_pow {m : ℕ} (hm : 0 < m) (a b : ℕ) :
    floorLog2 (m * 2 ^ a) (2 ^ b) = m.log2 + a - b := by
  have hle : 2 ^ m.log2 ≤ m := Nat.log2_self_le (Nat.ne_of_gt hm)
  unfold floorLog2
  dsimp only
  rw [log2_mul_two_pow hm, Nat.log2_two_pow]
  push_cast
  refine if_pos ?_
  generalize hl : (m.log2 : ℤ) + a - b = l
  have hexp : b + l.toNat = m.log2 + (a + (-l).toNat) := by omega
  rw [powLe, decide_eq_true_eq]
  change 2 ^ b * 2 ^ l.toNat ≤ m * 2 ^ a * 2 ^ (-l).toNat
  calc 2 ^ b * 2 ^ l.toNat = 2 ^ m.log2 * 2 ^ (a + (-l).toNat) := by
        rw [← Nat.pow_add, hexp, Nat.pow_add]
    _ ≤ m * 2 ^ (a + (-l).toNat) := Nat.mul_le_mul_right _ hle
    _ = m * 2 ^ a * 2 ^ (-l).toNat := by rw [Nat.pow_add, Nat.mul_assoc]

namespace Format

variable {f : Format} {m k : ℕ}

/-- The significand and the place of the scale of a finite pattern: a number with the smallest
scale may have a short significand, every other one has a full one. -/
structure Parts (f : Format) (m k : ℕ) : Prop where
  lt : m < 2 ^ (f.fractionBits + 1)
  full : k = 0 ∨ 2 ^ f.fractionBits ≤ m
  finite : k * 2 ^ f.fractionBits + m < f.infinity

theorem Parts.pattern_eq (h : f.Parts m k) : f.pattern m k = k * 2 ^ f.fractionBits + m :=
  Nat.min_eq_left (Nat.le_of_lt h.finite)

theorem Parts.pattern_div (h : f.Parts m k) :
    f.pattern m k / 2 ^ f.fractionBits = if m < 2 ^ f.fractionBits then 0 else k + 1 := by
  have hpos : 0 < 2 ^ f.fractionBits := Nat.two_pow_pos _
  have hlt := h.lt
  rw [h.pattern_eq]
  rw [Nat.pow_succ] at hlt
  split_ifs with hm
  · obtain rfl : k = 0 := h.full.resolve_right (by omega)
    rw [Nat.zero_mul, Nat.zero_add, Nat.div_eq_of_lt hm]
  · rw [Nat.add_comm, Nat.add_mul_div_right _ _ hpos, Nat.div_eq_of_lt_le (k := 1)] <;> omega

theorem Parts.pattern_mod (h : f.Parts m k) :
    f.pattern m k % 2 ^ f.fractionBits = if m < 2 ^ f.fractionBits then m
      else m - 2 ^ f.fractionBits := by
  have hlt := h.lt
  rw [h.pattern_eq, Nat.add_comm, Nat.add_mul_mod_self_right]
  rw [Nat.pow_succ] at hlt
  split_ifs with hm
  · exact Nat.mod_eq_of_lt hm
  · rw [Nat.mod_eq_sub_mod (by omega), Nat.mod_eq_of_lt (by omega)]

theorem Parts.significand_pattern (h : f.Parts m k) : f.significand (f.pattern m k) = m := by
  have hpow : Nat.pow 2 f.fractionBits = 2 ^ f.fractionBits := rfl
  unfold significand
  dsimp only
  rw [hpow, h.pattern_div, h.pattern_mod]
  by_cases hm : m < 2 ^ f.fractionBits
  · rw [if_pos hm, if_pos hm, if_pos rfl]
  · rw [if_neg hm, if_neg hm, if_neg (Nat.succ_ne_zero k)]
    omega

theorem Parts.scale_pattern (h : f.Parts m k) : f.scale (f.pattern m k) = f.minScale + k := by
  have hpow : Nat.pow 2 f.fractionBits = 2 ^ f.fractionBits := rfl
  unfold scale
  dsimp only
  rw [hpow, h.pattern_div]
  split_ifs with hm
  · obtain rfl : k = 0 := h.full.resolve_right (by omega)
    rfl
  · rfl

/-- The parts of a finite pattern, of which it is the pattern. -/
theorem exists_parts {p : ℕ} (hp : p < f.infinity) :
    ∃ m k, f.Parts m k ∧ f.pattern m k = p := by
  have hsplit : 2 ^ f.fractionBits * (p / 2 ^ f.fractionBits) + p % 2 ^ f.fractionBits = p :=
    Nat.div_add_mod _ _
  have hmod : p % 2 ^ f.fractionBits < 2 ^ f.fractionBits := Nat.mod_lt _ (Nat.two_pow_pos _)
  have hpow : 2 ^ (f.fractionBits + 1) = 2 ^ f.fractionBits * 2 := Nat.pow_succ ..
  cases he : p / 2 ^ f.fractionBits with
  | zero =>
    rw [he, Nat.mul_zero, Nat.zero_add] at hsplit
    have hparts : f.Parts p 0 := ⟨by omega, Or.inl rfl, by omega⟩
    exact ⟨p, 0, hparts, hparts.pattern_eq.trans (by omega)⟩
  | succ e =>
    rw [he, Nat.mul_succ, Nat.mul_comm] at hsplit
    have hparts : f.Parts (2 ^ f.fractionBits + p % 2 ^ f.fractionBits) e :=
      ⟨by omega, Or.inr (by omega), by omega⟩
    exact ⟨_, e, hparts, hparts.pattern_eq.trans (by omega)⟩

/-- **A fraction that is a number of the format is rounded to its pattern.** -/
theorem roundRatio_exact (h : f.Parts m k) (hm : 0 < m) {n a b : ℕ}
    (heq : n * 2 ^ (a + (-(f.minScale + k)).toNat) = m * 2 ^ (b + (f.minScale + k).toNat)) :
    f.roundRatio (n * 2 ^ a) (2 ^ b) = f.pattern m k := by
  have hpos : 0 < m * 2 ^ (b + (f.minScale + k).toNat) := Nat.mul_pos hm (Nat.two_pow_pos _)
  have hn : 0 < n := by
    rcases Nat.eq_zero_or_pos n with rfl | hn
    · rw [Nat.zero_mul] at heq
      omega
    · exact hn
  have hnum : n * 2 ^ a ≠ 0 := Nat.ne_of_gt (Nat.mul_pos hn (Nat.two_pow_pos a))
  have hlog : (n.log2 : ℤ) + a - b = m.log2 + (f.minScale + k) := by
    have hlogs := congrArg Nat.log2 heq
    rw [log2_mul_two_pow hn, log2_mul_two_pow hm] at hlogs
    omega
  have hle : m.log2 < f.fractionBits + 1 := (Nat.log2_lt (Nat.ne_of_gt hm)).2 h.lt
  have hplace : ((m.log2 : ℤ) + (f.minScale + k) - f.fractionBits - f.minScale).toNat = k := by
    rcases h.full with rfl | hfull
    · omega
    · have hge : f.fractionBits ≤ m.log2 := (Nat.le_log2 (Nat.ne_of_gt hm)).2 hfull
      omega
  have hround : roundHalfEven (n * 2 ^ a * 2 ^ (-(f.minScale + k)).toNat)
      (2 ^ b * 2 ^ (f.minScale + k).toNat) = m := by
    rw [Nat.mul_assoc, ← Nat.pow_add, heq, Nat.pow_add]
    exact roundHalfEven_mul (Nat.mul_pos (Nat.two_pow_pos _) (Nat.two_pow_pos _))
  unfold roundRatio
  rw [if_neg hnum, floorLog2_two_pow hn, hlog]
  dsimp only
  rw [hplace]
  exact congrArg (f.pattern · k) hround

theorem roundRatio_zero (den : ℕ) : f.roundRatio 0 den = 0 := if_pos rfl

end Format

/-! ## Numbers of 32 bits as numbers of 64 bits -/

theorem fractionBits_double : double.fractionBits = 52 := rfl

theorem fractionBits_single : single.fractionBits = 23 := rfl

theorem infinity_double : double.infinity = 2047 * 2 ^ 52 := by decide

theorem infinity_single : single.infinity = 255 * 2 ^ 23 := by decide

theorem minScale_double : double.minScale = -1074 := by decide

theorem minScale_single : single.minScale = -149 := by decide

namespace Double

theorem bits_ofMagnitude {p : ℕ} (hp : p < 2 ^ 63) (negative : Bool) :
    (ofMagnitude negative p).bits.toNat = p + if negative then 2 ^ 63 else 0 := by
  have hpow : Nat.pow 2 63 = 2 ^ 63 := rfl
  rw [ofMagnitude, hpow, UInt64.toNat_ofNat', Nat.mod_eq_of_lt]
  cases negative <;> simp <;> omega

theorem magnitude_ofMagnitude {p : ℕ} (hp : p < 2 ^ 63) (negative : Bool) :
    (ofMagnitude negative p).magnitude = p := by
  have hpow : Nat.pow 2 63 = 2 ^ 63 := rfl
  rw [magnitude, bits_ofMagnitude hp, hpow]
  cases negative <;> simp <;> omega

theorem isNegative_ofMagnitude {p : ℕ} (hp : p < 2 ^ 63) (negative : Bool) :
    (ofMagnitude negative p).isNegative = negative := by
  have hpow : Nat.pow 2 63 = 2 ^ 63 := rfl
  rw [isNegative, bits_ofMagnitude hp, hpow]
  cases negative <;> simp <;> omega

end Double

namespace Single

theorem magnitude_lt (x : Single) : x.magnitude < 2 ^ 31 := Nat.mod_lt _ (by decide)

/-- A number is given by its sign and its other bits. -/
theorem eq_of_parts (x : Single) :
    (⟨UInt32.ofNat (x.magnitude + if x.isNegative then Nat.pow 2 31 else 0)⟩ : Single) = x := by
  have hpow : Nat.pow 2 31 = 2 ^ 31 := rfl
  have hlt : x.bits.toNat < 2 ^ 32 := x.bits.toNat_lt
  have hbits : (x.magnitude + if x.isNegative then Nat.pow 2 31 else 0) = x.bits.toNat := by
    simp only [magnitude, isNegative, hpow, decide_eq_true_eq]
    split_ifs <;> omega
  rw [hbits, UInt32.ofNat_toNat]

/-- The parts of a number that is not zero as a number of 64 bits: its significand is filled up
by moving the scale. -/
theorem double_parts {m k : ℕ} (h : single.Parts m k) (hm : 0 < m) :
    double.Parts (m * 2 ^ (52 - m.log2)) (k + 873 + m.log2) := by
  have hfinite := h.finite
  have hlt := h.lt
  rw [fractionBits_single, infinity_single] at hfinite
  rw [fractionBits_single] at hlt
  have hlog : m.log2 < 24 := (Nat.log2_lt (Nat.ne_of_gt hm)).2 hlt
  have hlow : 2 ^ 52 ≤ m * 2 ^ (52 - m.log2) := by
    calc 2 ^ 52 = 2 ^ m.log2 * 2 ^ (52 - m.log2) := by rw [← Nat.pow_add]; congr 1; omega
      _ ≤ m * 2 ^ (52 - m.log2) := Nat.mul_le_mul_right _ (Nat.log2_self_le (Nat.ne_of_gt hm))
  have hhigh : m * 2 ^ (52 - m.log2) < 2 ^ 53 := by
    calc m * 2 ^ (52 - m.log2) < 2 ^ (m.log2 + 1) * 2 ^ (52 - m.log2) :=
          Nat.mul_lt_mul_of_pos_right Nat.lt_log2_self (Nat.two_pow_pos _)
      _ = 2 ^ 53 := by rw [← Nat.pow_add]; congr 1; omega
  refine ⟨?_, Or.inr ?_, ?_⟩
  · rw [fractionBits_double]
    exact hhigh
  · rw [fractionBits_double]
    exact hlow
  · have hplace : k + 873 + m.log2 ≤ 2000 := by omega
    rw [fractionBits_double, infinity_double]
    calc (k + 873 + m.log2) * 2 ^ 52 + m * 2 ^ (52 - m.log2)
        < (k + 873 + m.log2) * 2 ^ 52 + 2 ^ 53 := Nat.add_lt_add_left hhigh _
      _ ≤ 2000 * 2 ^ 52 + 2 ^ 53 := Nat.add_le_add_right (Nat.mul_le_mul_right _ hplace) _
      _ < 2047 * 2 ^ 52 := by decide

theorem magnitude_lt_infinity {x : Single} (h : x.toDouble.isFinite) :
    x.magnitude < single.infinity := by
  have hmagnitude := x.magnitude_lt
  have hlt : double.infinity + 2 ^ 51 + x.magnitude % 2 ^ 22 * 2 ^ 29 < 2 ^ 63 := by
    have hfront : x.magnitude % 2 ^ 22 < 2 ^ 22 := Nat.mod_lt _ (by decide)
    rw [infinity_double]
    omega
  have hpow : ∀ n, Nat.pow 2 n = 2 ^ n := fun _ => rfl
  rw [Double.isFinite, decide_eq_true_eq] at h
  refine Nat.lt_of_not_le fun hinf => ?_
  unfold toDouble at h
  simp only [hpow] at h
  split_ifs at h with hnan hinf'
  · rw [Double.magnitude_ofMagnitude hlt] at h
    omega
  · rw [Double.magnitude_ofMagnitude (by omega)] at h
    exact Nat.lt_irrefl _ h
  · omega

theorem toDouble_of_parts {x : Single} {m k : ℕ} (h : single.Parts m k) (hm : 0 < m)
    (hx : x.magnitude = single.pattern m k) :
    x.toDouble = .ofMagnitude x.isNegative
      (double.pattern (m * 2 ^ (52 - m.log2)) (k + 873 + m.log2)) := by
  have hfinite : single.pattern m k < single.infinity := h.pattern_eq ▸ h.finite
  have hlt := h.lt
  rw [fractionBits_single] at hlt
  have hlog : m.log2 < 24 := (Nat.log2_lt (Nat.ne_of_gt hm)).2 hlt
  have hround : double.roundRatio (m * 2 ^ (single.minScale + k).toNat)
      (2 ^ (-(single.minScale + k)).toNat) =
        double.pattern (m * 2 ^ (52 - m.log2)) (k + 873 + m.log2) := by
    refine Format.roundRatio_exact (double_parts h hm) (Nat.mul_pos hm (Nat.two_pow_pos _)) ?_
    rw [Nat.mul_assoc, ← Nat.pow_add, minScale_single, minScale_double]
    congr 2
    omega
  unfold toDouble
  dsimp only
  rw [hx, if_neg (Nat.not_lt.2 (Nat.le_of_lt hfinite)), if_neg (Nat.ne_of_lt hfinite),
    h.significand_pattern, h.scale_pattern, Double.ofRatio]
  exact congrArg (Double.ofMagnitude x.isNegative) hround

theorem toSingle_of_parts {x : Double} {m k : ℕ} (h : single.Parts m k) (hm : 0 < m)
    (hx : x.magnitude = double.pattern (m * 2 ^ (52 - m.log2)) (k + 873 + m.log2)) :
    x.toSingle = ⟨UInt32.ofNat (single.pattern m k + if x.isNegative then Nat.pow 2 31 else 0)⟩ := by
  have hparts := double_parts h hm
  have hfinite : x.magnitude < double.infinity := by
    rw [hx, hparts.pattern_eq]
    exact hparts.finite
  have hlt := h.lt
  rw [fractionBits_single] at hlt
  have hlog : m.log2 < 24 := (Nat.log2_lt (Nat.ne_of_gt hm)).2 hlt
  have hround : single.roundRatio x.ratio.1 x.ratio.2 = single.pattern m k := by
    unfold Double.ratio
    dsimp only
    rw [hx, hparts.significand_pattern, hparts.scale_pattern]
    refine Format.roundRatio_exact h hm ?_
    rw [Nat.mul_assoc, ← Nat.pow_add, minScale_single, minScale_double]
    congr 2
    omega
  have hnan : x.isNaN = false := decide_eq_false (Nat.not_lt.2 (Nat.le_of_lt hfinite))
  have hinf : x.isInfinite = false := decide_eq_false (Nat.ne_of_lt hfinite)
  unfold Double.toSingle
  rw [hnan, hinf, if_neg Bool.false_ne_true, if_neg Bool.false_ne_true, hround]

/-- Zero is kept with its sign. -/
theorem toSingle_toDouble_zero {x : Single} (h : x.magnitude = 0) : x.toDouble.toSingle = x := by
  have hpos : 0 < single.infinity := by decide
  have hnone : single.significand 0 = 0 := rfl
  have hdouble : x.toDouble = .ofMagnitude x.isNegative 0 := by
    unfold toDouble
    dsimp only
    rw [h, if_neg (Nat.not_lt_zero _), if_neg (Nat.ne_of_lt hpos), hnone, Nat.zero_mul,
      Double.ofRatio, Format.roundRatio_zero]
  have hmagnitude : x.toDouble.magnitude = 0 := by
    rw [hdouble, Double.magnitude_ofMagnitude (by decide)]
  have hnegative : x.toDouble.isNegative = x.isNegative := by
    rw [hdouble, Double.isNegative_ofMagnitude (by decide)]
  have hratio : x.toDouble.ratio.1 = 0 := by
    have hnone' : double.significand 0 = 0 := rfl
    rw [Double.ratio, hmagnitude, hnone']
    exact Nat.zero_mul _
  have hnan : x.toDouble.isNaN = false := by
    rw [Double.isNaN, hmagnitude]
    exact decide_eq_false (Nat.not_lt_zero _)
  have hinf : x.toDouble.isInfinite = false := by
    rw [Double.isInfinite, hmagnitude]
    exact decide_eq_false (by decide)
  have hparts := x.eq_of_parts
  rw [h] at hparts
  unfold Double.toSingle
  rw [hnan, hinf, if_neg Bool.false_ne_true, if_neg Bool.false_ne_true, hratio,
    Format.roundRatio_zero, hnegative]
  exact hparts

/-- **A number of 32 bits is kept by going to 64 bits and back**, if it is finite. -/
theorem toSingle_toDouble {x : Single} (h : x.toDouble.isFinite) : x.toDouble.toSingle = x := by
  obtain ⟨m, k, hparts, hpattern⟩ := Format.exists_parts (magnitude_lt_infinity h)
  rcases Nat.eq_zero_or_pos m with rfl | hm
  · obtain rfl : k = 0 := hparts.full.resolve_right (Nat.not_le.2 (Nat.two_pow_pos _))
    rw [hparts.pattern_eq, Nat.zero_mul] at hpattern
    exact toSingle_toDouble_zero hpattern.symm
  · have hdouble := double_parts hparts hm
    have hlt : double.pattern (m * 2 ^ (52 - m.log2)) (k + 873 + m.log2) < 2 ^ 63 := by
      rw [hdouble.pattern_eq]
      exact Nat.lt_of_lt_of_le hdouble.finite (infinity_double ▸ by decide)
    rw [toDouble_of_parts hparts hm hpattern.symm,
      toSingle_of_parts hparts hm (Double.magnitude_ofMagnitude hlt _),
      Double.isNegative_ofMagnitude hlt, hpattern, eq_of_parts]

end Single

end QueryClient.Number
