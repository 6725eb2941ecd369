/-
  Sums of decimals.

  * `fit?_of_lt` and `fit?_lt`: what can be held is kept as it is, and nothing else is ever held;
  * `exists_addMagnitudes?`: a sum that can be held is exact;
  * `rescale_of_le` and `Fits.rescale`: a decimal takes a scale at which it can be held.
-/
import QueryClient.Proofs.Number.Decimals
import Mathlib.Algebra.Order.Ring.Nat
import Mathlib.Tactic.Ring

namespace QueryClient.Number.Decimal

/-! ## Numbers that can be held -/

theorem roundHalfEven_le (num den : ℕ) : roundHalfEven num den ≤ num / den + 1 := by
  unfold roundHalfEven
  dsimp only
  split_ifs <;> omega

theorem roundHalfEven_one (n : ℕ) : roundHalfEven n 1 = n := by
  unfold roundHalfEven
  dsimp only
  rw [Nat.mod_one, Nat.div_one, if_pos (by decide)]

theorem div_lt_of_excessDigits {n s k : ℕ} (h : excessDigits n s = some k) :
    n / 10 ^ k < bound := by
  induction s generalizing n k with
  | zero =>
    unfold excessDigits at h
    split_ifs at h with hlt
    cases h
    rwa [Nat.pow_zero, Nat.div_one]
  | succ s ih =>
    unfold excessDigits at h
    split_ifs at h with hlt
    · cases h
      rwa [Nat.pow_zero, Nat.div_one]
    · obtain ⟨k', hk', rfl⟩ := Option.map_eq_some_iff.1 h
      rw [Nat.pow_succ', ← Nat.div_div_eq_div_mul]
      exact ih hk'

/-- What can be held is kept as it is. -/
theorem fit?_of_lt {n : ℕ} (h : n < bound) (s : ℕ) : fit? n s = some ⟨false, n, s⟩ := by
  have hnone : excessDigits n s = some 0 := by
    cases s <;> exact if_pos h
  have hpow : Nat.pow 10 0 = 1 := rfl
  unfold fit?
  rw [hnone, Option.bind_some]
  dsimp only
  rw [hpow, roundHalfEven_one, if_pos h, Nat.sub_zero]

/-- What is held has no more than 96 bits. -/
theorem fit?_lt {n s : ℕ} {d : Decimal} (h : fit? n s = some d) : d.coefficient < bound := by
  obtain ⟨k, hk, h⟩ := Option.bind_eq_some_iff.1 h
  dsimp only at h
  split_ifs at h with hlt hscale
  · cases h
    exact hlt
  · cases h
    have hdiv := div_lt_of_excessDigits hk
    have hround := roundHalfEven_le n (Nat.pow 10 (k + 1))
    have hpow : n / Nat.pow 10 (k + 1) = n / 10 ^ k / 10 := by
      rw [Nat.div_div_eq_div_mul, ← Nat.pow_succ]
      rfl
    have hbound : bound = 2 ^ 96 := rfl
    rw [hpow] at hround
    dsimp only
    omega

/-! ## Zeros at the end -/

theorem dropZeros_spec (c s : ℕ) : (dropZeros c s).2 ≤ s ∧
    (dropZeros c s).1 * 10 ^ (s - (dropZeros c s).2) = c ∧
    ((dropZeros c s).2 = 0 ∨ (dropZeros c s).1 % 10 ≠ 0) := by
  induction s generalizing c with
  | zero => exact ⟨Nat.le_refl 0, Nat.mul_one c, Or.inl rfl⟩
  | succ s ih =>
    unfold dropZeros
    split_ifs with h
    · obtain ⟨hle, hvalue, hlast⟩ := ih (c / 10)
      refine ⟨by omega, ?_, hlast⟩
      rw [Nat.succ_sub hle, Nat.pow_succ, ← Nat.mul_assoc, hvalue]
      omega
    · refine ⟨Nat.le_refl _, ?_, Or.inr h⟩
      rw [Nat.sub_self, Nat.pow_zero, Nat.mul_one]

/-- All zeros are dropped that can be. -/
theorem dropZeros_le {c s k : ℕ} (h : 10 ^ (s - k) ∣ c) : (dropZeros c s).2 ≤ k := by
  obtain ⟨hle, hvalue, hlast⟩ := dropZeros_spec c s
  refine Nat.le_of_not_lt fun hgt => ?_
  have hsplit : 10 ^ (s - k) = 10 ^ ((dropZeros c s).2 - k) * 10 ^ (s - (dropZeros c s).2) := by
    rw [← Nat.pow_add]
    congr 1
    omega
  have hmul : 10 ^ ((dropZeros c s).2 - k) * 10 ^ (s - (dropZeros c s).2) ∣
      (dropZeros c s).1 * 10 ^ (s - (dropZeros c s).2) := by
    rw [← hsplit, hvalue]
    exact h
  have hdvd := Nat.dvd_of_mul_dvd_mul_right (Nat.pow_pos (by decide : 0 < 10)) hmul
  have hten : 10 ∣ (dropZeros c s).1 := (dvd_pow_self 10 (by omega)).trans hdvd
  omega

/-! ## Sums -/

/-- The size of a decimal in units of a place that is not before its last one. -/
def amount (d : Decimal) (place : ℕ) : ℕ := d.coefficient * 10 ^ (place - d.scale)

theorem amount_of_le {d : Decimal} {s place : ℕ} (hd : d.scale ≤ s) (hs : s ≤ place) :
    d.amount place = d.amount s * 10 ^ (place - s) := by
  rw [amount, amount, Nat.mul_assoc, ← Nat.pow_add]
  congr 2
  omega

/-- **A sum that can be held is exact.** -/
theorem exists_addMagnitudes? {a b : Decimal} {s c place : ℕ} (ha : a.scale ≤ s) (hb : b.scale ≤ s)
    (hs : s ≤ place) (hc : c < bound)
    (hle : a.amount place + b.amount place ≤ c * 10 ^ (place - s)) :
    ∃ t, a.addMagnitudes? b = some t ∧ t.negative = false ∧ t.scale ≤ s ∧
      t.amount place = a.amount place + b.amount place := by
  have hmax : max a.scale b.scale ≤ s := Nat.max_le.2 ⟨ha, hb⟩
  have hsum : a.addMagnitudes? b =
      fit? (a.amount (max a.scale b.scale) + b.amount (max a.scale b.scale))
        (max a.scale b.scale) := rfl
  have hamount : a.amount place + b.amount place =
      (a.amount (max a.scale b.scale) + b.amount (max a.scale b.scale)) *
        10 ^ (place - max a.scale b.scale) := by
    rw [Nat.add_mul, ← amount_of_le (Nat.le_max_left _ _) (hmax.trans hs),
      ← amount_of_le (Nat.le_max_right _ _) (hmax.trans hs)]
  generalize a.amount (max a.scale b.scale) + b.amount (max a.scale b.scale) = n at hsum hamount
  have hfits : n ≤ c := by
    have hpow : 10 ^ (place - s) ≤ 10 ^ (place - max a.scale b.scale) :=
      Nat.pow_le_pow_right (by decide) (by omega)
    rw [hamount] at hle
    exact Nat.le_of_mul_le_mul_right (hle.trans (Nat.mul_le_mul_left c hpow))
      (Nat.pow_pos (by decide))
  rw [hsum, fit?_of_lt (Nat.lt_of_le_of_lt hfits hc)]
  exact ⟨_, rfl, rfl, hmax, hamount.symm⟩

/-! ## Scales -/

theorem extend_of_lt {c k : ℕ} (h : c * 10 ^ k < bound) (s : ℕ) :
    extend c k s = (c * 10 ^ k, s + k) := by
  induction k generalizing c s with
  | zero => rw [extend, Nat.pow_zero, Nat.mul_one, Nat.add_zero]
  | succ k ih =>
    have hvalue : 10 * c * 10 ^ k = c * 10 ^ (k + 1) := by
      rw [Nat.pow_succ', Nat.mul_comm 10 c, Nat.mul_assoc]
    have hnext : 10 * c < bound := by
      have hle : 10 * c ≤ 10 * c * 10 ^ k :=
        Nat.le_mul_of_pos_right _ (Nat.pow_pos (by decide : 0 < 10))
      rw [← hvalue] at h
      exact Nat.lt_of_le_of_lt hle h
    rw [extend, if_pos hnext, ih (hvalue ▸ h), hvalue, Nat.add_assoc, Nat.add_comm 1]

theorem extend_fits {c : ℕ} (h : c < bound) (k s : ℕ) :
    (extend c k s).1 < bound ∧ (extend c k s).2 ≤ s + k := by
  induction k generalizing c s with
  | zero => exact ⟨h, Nat.le_refl _⟩
  | succ k ih =>
    unfold extend
    split_ifs with hnext
    · obtain ⟨hlt, hle⟩ := ih hnext (s + 1)
      exact ⟨hlt, by omega⟩
    · exact ⟨h, Nat.le_add_right _ _⟩

/-- A decimal takes a greater scale at which it can be held. -/
theorem rescale_of_le {d : Decimal} {s : ℕ} (hs : d.scale ≤ s) (hmax : s ≤ maxScale)
    (hfits : d.amount s < bound) : d.rescale s = { d with coefficient := d.amount s, scale := s } := by
  unfold rescale
  dsimp only
  rw [Nat.min_eq_left hmax]
  split_ifs with hzero hle
  · rw [amount, hzero, Nat.zero_mul, ← hzero]
  · obtain rfl : d.scale = s := Nat.le_antisymm hs hle
    have hunit : Nat.pow 10 (d.scale - d.scale) = 1 := congrArg (Nat.pow 10) (Nat.sub_self _)
    rw [hunit, amount, Nat.sub_self, Nat.pow_zero, Nat.mul_one]
    congr 1
    omega
  · rw [extend_of_lt hfits]
    dsimp only
    rw [Nat.add_sub_cancel' hs]
    rfl

/-- Whatever scale a decimal takes, it can be held. -/
theorem fits_rescale {d : Decimal} (h : d.coefficient < bound) (s : ℕ) : (d.rescale s).Fits := by
  unfold rescale
  dsimp only
  have hscale : min s maxScale ≤ maxScale := Nat.min_le_right _ _
  split_ifs with hzero hle
  · exact ⟨h, hscale⟩
  · refine ⟨?_, hscale⟩
    obtain ⟨u, hu⟩ : ∃ u, Nat.pow 10 (d.scale - min s maxScale) = u + 1 :=
      Nat.exists_eq_succ_of_ne_zero (Nat.ne_of_gt (Nat.pow_pos (by decide : 0 < 10)))
    have hexpand : bound * (2 * (u + 1)) = 2 * bound + 2 * (u * bound) := by ring
    have hmul : u ≤ u * bound := Nat.le_mul_of_pos_right u (by decide)
    dsimp only
    rw [hu, Nat.div_lt_iff_lt_mul (by omega), hexpand]
    omega
  · obtain ⟨hlt, hplaces⟩ := extend_fits h (min s maxScale - d.scale) d.scale
    exact ⟨hlt, by dsimp only; omega⟩

end QueryClient.Number.Decimal
