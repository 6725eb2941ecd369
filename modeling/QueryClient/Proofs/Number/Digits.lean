/-
  Runs of decimal digits and what they spell.

  * `natOfDigits_toDigits` and `natOfDigits_padded`: the digits of a number spell it, also behind
    zeros;
  * `spanDigits_append`: digits are read up to where they stop;
  * `trimChars_eq_self`: nothing is trimmed of a text without blanks.
-/
import QueryClient.Calendar.Date
import QueryClient.Number.Literal
import QueryClient.Proofs.Statement.Characters
import QueryClient.Text.Blank
import Mathlib.Algebra.Order.Ring.Nat
import Mathlib.Data.List.TakeDrop

namespace QueryClient.Number

open QueryClient.Calendar QueryClient.Text

/-! ## Digits -/

theorem isDigit_iff {c : Char} : c.isDigit ↔ 48 ≤ c.toNat ∧ c.toNat ≤ 57 := by
  rw [Char.isDigit, Bool.and_eq_true, decide_eq_true_eq, decide_eq_true_eq, ge_iff_le,
    UInt32.le_iff_toNat_le, UInt32.le_iff_toNat_le]
  rfl

theorem digitValue?_of_isDigit {c : Char} (h : c.isDigit) :
    digitValue? c = some (c.toNat - 48) := by
  obtain ⟨hlow, hhigh⟩ := isDigit_iff.1 h
  have hrange : '0' ≤ c ∧ c ≤ '9' := by
    rw [Char.le_def, Char.le_def, UInt32.le_iff_toNat_le, UInt32.le_iff_toNat_le]
    exact ⟨hlow, hhigh⟩
  rw [digitValue?, if_pos hrange]

theorem digitValue?_of_not_isDigit {c : Char} (h : ¬ c.isDigit) : digitValue? c = none := by
  have hrange : ¬ ('0' ≤ c ∧ c ≤ '9') := by
    rw [Char.le_def, Char.le_def, UInt32.le_iff_toNat_le, UInt32.le_iff_toNat_le]
    exact fun hc => h (isDigit_iff.2 hc)
  rw [digitValue?, if_neg hrange]

theorem isSome_digitValue? (c : Char) : (digitValue? c).isSome = c.isDigit := by
  by_cases h : c.isDigit
  · rw [digitValue?_of_isDigit h, h]
    rfl
  · rw [digitValue?_of_not_isDigit h, Bool.eq_false_iff.2 h]
    rfl

theorem natOfDigits_append (n : ℕ) (front ds : List Char) :
    natOfDigits n (front ++ ds) = natOfDigits (natOfDigits n front) ds := List.foldl_append

theorem natOfDigits_toDigits (n : ℕ) : natOfDigits 0 (Nat.toDigits 10 n) = n :=
  Nat.ofDigitChars_ten_toDigits

theorem natOfDigits_replicate_zero (n k : ℕ) :
    natOfDigits n (List.replicate k '0') = 10 ^ k * n := Nat.ofDigitChars_replicate_zero

theorem isDigit_toDigits {n : ℕ} {c : Char} (h : c ∈ Nat.toDigits 10 n) : c.isDigit :=
  Nat.isDigit_of_mem_toDigits (by decide) (by decide) h

/-! ## Padded numbers -/

theorem natOfDigits_padded (width n : ℕ) : natOfDigits 0 (padded width n) = n := by
  rw [padded, natOfDigits_append, natOfDigits_replicate_zero, Nat.mul_zero, natOfDigits_toDigits]

theorem isDigit_of_mem_padded {width n : ℕ} {c : Char} (h : c ∈ padded width n) : c.isDigit := by
  rcases List.mem_append.1 h with h | h
  · rw [(List.mem_replicate.1 h).2]
    rfl
  · exact isDigit_toDigits h

theorem length_padded {width n : ℕ} (hwidth : 0 < width) (h : n < 10 ^ width) :
    (padded width n).length = width := by
  have hle : (Nat.toDigits 10 n).length ≤ width :=
    (Nat.length_toDigits_le_iff (by decide) hwidth).2 h
  rw [padded, List.length_append, List.length_replicate]
  omega

theorem length_padded_pos (width n : ℕ) : 0 < (padded width n).length := by
  have hpos : 0 < (Nat.toDigits 10 n).length := Nat.length_toDigits_pos
  rw [padded, List.length_append]
  omega

/-! ## Reading -/

/-- Digits are read up to where they stop. -/
theorem spanDigits_append {ds rest : List Char} (hds : ∀ c ∈ ds, c.isDigit)
    (hrest : ∀ c ∈ rest.head?, ¬ c.isDigit) : spanDigits (ds ++ rest) = (ds, rest) := by
  have hdigit : (fun c => (digitValue? c).isSome) = Char.isDigit := funext isSome_digitValue?
  rw [spanDigits, hdigit, List.span_eq_takeWhile_dropWhile, takeWhile_append_of_stop hds hrest,
    dropWhile_append_of_stop hds hrest]

/-! ## Blanks -/

theorem not_isBlank_of_isDigit {c : Char} (h : c.isDigit) : isBlank c = false := by
  obtain ⟨hlow, hhigh⟩ := isDigit_iff.1 h
  simp only [isBlank, Bool.or_eq_false_iff, Bool.and_eq_false_iff, decide_eq_false_iff_not,
    beq_eq_false_iff_ne]
  omega

theorem dropWhile_isBlank {cs : List Char} (h : ∀ c ∈ cs.head?, isBlank c = false) :
    cs.dropWhile isBlank = cs := by
  cases cs with
  | nil => rfl
  | cons c cs => rw [List.dropWhile_cons_of_neg (by rw [h c rfl]; exact Bool.false_ne_true)]

/-- Nothing is trimmed of a text without blanks. -/
theorem trim_ofList {cs : List Char} (h : ∀ c ∈ cs, isBlank c = false) :
    trim (String.ofList cs) = String.ofList cs := by
  rw [trim, String.toList_ofList, trimChars,
    dropWhile_isBlank fun c hc => h c (List.mem_of_mem_head? hc),
    dropWhile_isBlank fun c hc => h c (List.mem_reverse.1 (List.mem_of_mem_head? hc)),
    List.reverse_reverse]

end QueryClient.Number
