/-
  Universally unique identifiers read back from their texts.

  * `bytesOfHexChars?_hexChars`: bytes are read back from their hexadecimal digits;
  * `Uuid.parse?_toText`: an identifier is read back from its hyphenated form.
-/
import QueryClient.Proofs.Number.Digits
import QueryClient.Uuid
import Mathlib.Tactic.Tauto

namespace QueryClient

open QueryClient.Number QueryClient.Text

/-! ## Hexadecimal digits -/

theorem hexValue?_hexDigit {n : ℕ} (h : n < 16) : hexValue? (hexDigit n) = some n := by
  revert n
  decide

theorem isBlank_hexDigit {n : ℕ} (h : n < 16) : isBlank (hexDigit n) = false := by
  revert n
  decide

@[simp] theorem length_hexChars (bytes : List UInt8) :
    (hexChars bytes).length = 2 * bytes.length := by
  induction bytes with
  | nil => rfl
  | cons b bytes ih => rw [hexChars, List.length_cons, List.length_cons, List.length_cons, ih]; omega

/-- **Bytes are read back from their hexadecimal digits.** -/
theorem bytesOfHexChars?_hexChars (bytes : List UInt8) :
    bytesOfHexChars? (hexChars bytes) = some bytes := by
  induction bytes with
  | nil => rfl
  | cons b bytes ih =>
    have hb : b.toNat < 256 := b.toNat_lt
    have hbyte : 16 * (b.toNat / 16) + b.toNat % 16 = b.toNat := Nat.div_add_mod b.toNat 16
    rw [hexChars, bytesOfHexChars?, hexValue?_hexDigit (by omega), hexValue?_hexDigit (by omega), ih]
    simp only [bind, Option.bind, pure, hbyte, UInt8.ofNat_toNat]

theorem isBlank_of_mem_hexChars {bytes : List UInt8} {c : Char} (h : c ∈ hexChars bytes) :
    isBlank c = false := by
  induction bytes with
  | nil => cases h
  | cons b bytes ih =>
    have hb : b.toNat < 256 := b.toNat_lt
    rw [hexChars, List.mem_cons, List.mem_cons] at h
    rcases h with rfl | rfl | h
    · exact isBlank_hexDigit (by omega)
    · exact isBlank_hexDigit (by omega)
    · exact ih h

namespace Uuid

/-! ## Hyphens -/

/-- Five groups of digits with hyphens between them. -/
def hyphenated (a b c d e : List Char) : List Char :=
  a ++ '-' :: (b ++ '-' :: (c ++ '-' :: (d ++ '-' :: e)))

/-- The digits are found again between the hyphens. -/
theorem unhyphenate?_hyphenated {a b c d e : List Char} (ha : a.length = 8) (hb : b.length = 4)
    (hc : c.length = 4) (hd : d.length = 4) (he : e.length = 12) :
    unhyphenate? (hyphenated a b c d e) = some (a ++ b ++ c ++ d ++ e) := by
  have hlength : (hyphenated a b c d e).length = 36 := by
    simp only [hyphenated, List.length_append, List.length_cons]
    omega
  have hmarks : [8, 13, 18, 23].all fun i => (hyphenated a b c d e)[i]? = some '-' := by
    simp [hyphenated, List.getElem?_append, ha, hb, hc, hd]
  rw [unhyphenate?, if_pos ⟨hlength, hmarks⟩]
  simp (disch := omega) [hyphenated, List.drop_append, List.drop_eq_nil_of_le, ha, hb, hc, hd]

theorem toText_eq (u : Uuid) : ∃ a b c d e, u.toText = String.ofList (hyphenated a b c d e) ∧
    a ++ b ++ c ++ d ++ e = hexChars u.bytes ∧ a.length = 8 ∧ b.length = 4 ∧ c.length = 4 ∧
      d.length = 4 ∧ e.length = 12 := by
  have hlength : (hexChars u.bytes).length = 32 := by rw [length_hexChars, u.length_bytes]
  generalize hds : hexChars u.bytes = ds at hlength
  refine ⟨ds.take 8, (ds.drop 8).take 4, (ds.drop 12).take 4, (ds.drop 16).take 4, ds.drop 20,
    ?_, ?_, ?_, ?_, ?_, ?_, ?_⟩
  · rw [toText, hds]
    simp [groups, hyphenated, List.intercalate_cons_cons]
  · have hjoin : ∀ i k, (ds.drop i).take k ++ ds.drop (i + k) = ds.drop i := by
      intro i k
      rw [← List.drop_drop, List.take_append_drop]
    rw [List.append_assoc, hjoin 16 4, List.append_assoc, hjoin 12 4, List.append_assoc, hjoin 8 4,
      List.take_append_drop]
  all_goals
    simp only [List.length_take, List.length_drop]
    omega

/-- **An identifier is read back from its hyphenated form.** -/
theorem parse?_trim_toText (u : Uuid) : parse? (trim u.toText) = some u := by
  obtain ⟨a, b, c, d, e, htext, hdigits, ha, hb, hc, hd, he⟩ := u.toText_eq
  have hlength : (hyphenated a b c d e).length = 36 := by
    simp only [hyphenated, List.length_append, List.length_cons]
    omega
  have hblank : ∀ ch ∈ hyphenated a b c d e, isBlank ch = false := by
    intro ch hch
    have hmem : ch = '-' ∨ ch ∈ a ++ b ++ c ++ d ++ e := by
      simp only [hyphenated, List.mem_append, List.mem_cons] at hch
      simp only [List.mem_append]
      tauto
    rcases hmem with rfl | hmem
    · rfl
    · exact isBlank_of_mem_hexChars (hdigits ▸ hmem)
  have hread : digits? (hyphenated a b c d e) = some (hexChars u.bytes) := by
    rw [digits?, if_neg (by omega), if_neg (by omega), if_neg (by omega),
      unhyphenate?_hyphenated ha hb hc hd he, hdigits]
  rw [htext, trim_ofList hblank, parse?, String.toList_ofList, hread]
  simp only [Option.bind_some, bytesOfHexChars?_hexChars, ofBytes?, u.length_bytes, dite_true]

end Uuid

end QueryClient
