/-
  Letters and digits among the classes of characters.

  They are word characters and no blanks.  A character without regard to case is a letter or a
  digit only if it is one itself, but for two letters beyond ASCII.
-/
import QueryClient.Text.Secret
import Mathlib.Tactic.SplitIfs

namespace QueryClient.Text

variable {c w : Char}

theorem toNat_lt_of_isAlphanum (h : c.isAlphanum) : c.toNat < 128 := by
  have hranges : c.isAlphanum = ((decide (65 ≤ c.val ∧ c.val ≤ 90) ||
      decide (97 ≤ c.val) && decide (c.val ≤ 122)) ||
      decide (48 ≤ c.val) && decide (c.val ≤ 57)) := rfl
  simp only [hranges, Bool.or_eq_true, Bool.and_eq_true, decide_eq_true_eq,
    UInt32.le_iff_toNat_le] at h
  rcases h with (⟨-, h⟩ | ⟨-, h⟩) | ⟨-, h⟩
  iterate 3 exact Nat.lt_of_le_of_lt h (by decide)

theorem exists_ofNat_of_isAlphanum (h : c.isAlphanum) : ∃ n : Fin 128, Char.ofNat n = c :=
  ⟨⟨c.toNat, toNat_lt_of_isAlphanum h⟩, Char.ofNat_toNat c⟩

/-- Letters and digits are word characters, and neither blanks nor commas. -/
theorem isWord_of_isAlphanum (h : c.isAlphanum) : isWord c ∧ ¬ isBlank c ∧ c ≠ ',' := by
  have hascii : ∀ n : Fin 128, (Char.ofNat n).isAlphanum →
      isWord (Char.ofNat n) ∧ ¬ isBlank (Char.ofNat n) ∧ Char.ofNat n ≠ ',' := by decide +kernel
  obtain ⟨n, rfl⟩ := exists_ofNat_of_isAlphanum h
  exact hascii n h

theorem toLower_of_not_isUpper (h : ¬ c.isUpper) : c.toLower = c := by
  have hrange : ¬ (c.val ≥ 'A'.val ∧ c.val ≤ 'Z'.val) := fun hrange => h (decide_eq_true hrange)
  exact dif_neg hrange

theorem isAlphanum_of_isUpper (h : c.isUpper) : c.isAlphanum := by
  have hkinds : c.isAlphanum = (c.isUpper || c.isLower || c.isDigit) := rfl
  rw [hkinds, h, Bool.true_or, Bool.true_or]

theorem isLower_toLower (h : c.isUpper) : c.toLower.isLower := by
  have hascii : ∀ n : Fin 128, (Char.ofNat n).isUpper → (Char.ofNat n).toLower.isLower := by
    decide +kernel
  obtain ⟨n, rfl⟩ := exists_ofNat_of_isAlphanum (isAlphanum_of_isUpper h)
  exact hascii n h

theorem isAlphanum_of_foldCase (h : (foldCase c).isAlphanum) :
    c = 'ſ' ∨ c = '\u212A' ∨ c.isAlphanum := by
  unfold foldCase at h
  split_ifs at h with hs hk
  · exact Or.inl hs
  · exact Or.inr (Or.inl hk)
  · by_cases hupper : c.isUpper
    · exact Or.inr (Or.inr (isAlphanum_of_isUpper hupper))
    · exact Or.inr (Or.inr (toLower_of_not_isUpper hupper ▸ h))

theorem isWord_of_foldCase (h : (foldCase c).isAlphanum) : isWord c ∧ ¬ isBlank c := by
  rcases isAlphanum_of_foldCase h with rfl | rfl | h
  · decide +kernel
  · decide +kernel
  · exact ⟨(isWord_of_isAlphanum h).1, (isWord_of_isAlphanum h).2.1⟩

/-- Only a mark itself is taken for it. -/
theorem foldCase_eq_mark (hw : w ∈ ['_', '-']) : foldCase c = w ↔ c = w := by
  have hw : w = '_' ∨ w = '-' := by simpa using hw
  have hlower : ¬ w.isLower ∧ w ≠ 's' ∧ w ≠ 'k' := by rcases hw with rfl | rfl <;> decide
  constructor
  · rintro rfl
    unfold foldCase at hlower ⊢
    split_ifs at hlower ⊢ with hs hk
    · exact absurd rfl hlower.2.1
    · exact absurd rfl hlower.2.2
    · exact (toLower_of_not_isUpper fun hupper => hlower.1 (isLower_toLower hupper)).symm
  · rintro rfl
    rcases hw with rfl | rfl <;> decide

end QueryClient.Text
