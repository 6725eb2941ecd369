/-
  The characters that pieces are written with.
-/
import QueryClient.Statement.Piece
import Mathlib.Data.Nat.Notation

namespace QueryClient

section
variable {α : Type} {p : α → Bool} {body rest : List α}

/-- What is taken is read up to where it stops. -/
theorem takeWhile_append_of_stop (hb : ∀ c ∈ body, p c) (hr : ∀ c ∈ rest.head?, ¬ p c) :
    (body ++ rest).takeWhile p = body := by
  rw [List.takeWhile_append_of_pos hb]
  cases rest with
  | nil => simp
  | cons c rest => rw [List.takeWhile_cons_of_neg (hr c rfl), List.append_nil]

theorem dropWhile_append_of_stop (hb : ∀ c ∈ body, p c) (hr : ∀ c ∈ rest.head?, ¬ p c) :
    (body ++ rest).dropWhile p = rest := by
  rw [List.dropWhile_append_of_pos hb]
  cases rest with
  | nil => simp
  | cons c rest => rw [List.dropWhile_cons_of_neg (hr c rfl)]

end

/-- A word is written with letters and underscores. -/
theorem Word.isFirst_of_mem {w : Word} {c : Char} (h : c ∈ w.text.toList) : Ident.isFirst c := by
  have hall : w.text.toList.all Ident.isFirst := by cases w <;> decide
  exact List.all_eq_true.1 hall c h

theorem Word.text_ne_nil (w : Word) : w.text.toList ≠ [] := by
  have hempty : w.text.toList.isEmpty = false := by cases w <;> decide
  exact List.isEmpty_eq_false_iff.1 hempty

namespace Ident

theorem isRest_of_isFirst {c : Char} (h : isFirst c) : isRest c := by
  simp only [isFirst, isRest, Char.isAlphanum, Bool.or_eq_true] at h ⊢
  rcases h with h | h
  · simp [h]
  · simp [h]

/-- A name is written with letters, digits and underscores. -/
theorem isRest_of_mem (i : Ident) {c : Char} (h : c ∈ i.name.toList) : isRest c := by
  have hi := i.isIdent
  unfold IsIdent at hi
  cases hn : i.name.toList with
  | nil => simp [hn] at h
  | cons d rest =>
    rw [hn] at h hi
    rcases List.mem_cons.1 h with rfl | hc
    · exact isRest_of_isFirst hi.2.1
    · exact hi.2.2 c hc

theorem isRest_of_isDigit {c : Char} (h : c.isDigit) : isRest c := by
  simp [isRest, Char.isAlphanum, h]

end Ident

namespace Piece

/-- The punctuation and the operators of statements, their quotes and the space. -/
def isMark (c : Char) : Bool :=
  c ∈ [' ', '"', '\'', '$', '(', ')', ',', '.', '*', '=', '<', '>', '@', '&']

theorem isMark_of_mem_symbol {s : Symbol} {c : Char} (h : c ∈ s.text.toList) :
    isMark c ∧ c ≠ '$' := by
  have hall : s.text.toList.all (fun c => isMark c && c != '$') := by cases s <;> decide
  simpa using List.all_eq_true.1 hall c h

/-- A digit is only a digit. -/
theorem isDigit_of_mem_toDigits {n : ℕ} {c : Char} (h : c ∈ Nat.toDigits 10 n) : c.isDigit :=
  Nat.isDigit_of_mem_toDigits (by decide) (by decide) h

/-- Statements are written with letters, digits, underscores and marks. -/
theorem plain_of_mem_text {p : Piece} {n : ℕ} {c : Char} (h : c ∈ p.text n) :
    Ident.isRest c ∨ isMark c := by
  cases p with
  | word w => exact Or.inl (Ident.isRest_of_isFirst (Word.isFirst_of_mem h))
  | symbol s => exact Or.inr (isMark_of_mem_symbol h).1
  | space => simp [text] at h; subst h; exact Or.inr rfl
  | name i =>
    simp only [text, Ident.quoted, List.mem_cons, List.mem_append, List.not_mem_nil, or_false] at h
    rcases h with rfl | h | rfl
    · exact Or.inr rfl
    · exact Or.inl (i.isRest_of_mem h)
    · exact Or.inr rfl
  | literal i =>
    simp only [text, List.mem_cons, List.mem_append, List.not_mem_nil, or_false] at h
    rcases h with rfl | h | rfl
    · exact Or.inr rfl
    · exact Or.inl (i.isRest_of_mem h)
    · exact Or.inr rfl
  | number k => exact Or.inl (Ident.isRest_of_isDigit (isDigit_of_mem_toDigits h))
  | bind v =>
    rcases List.mem_cons.1 h with rfl | h
    · exact Or.inr rfl
    · exact Or.inl (Ident.isRest_of_isDigit (isDigit_of_mem_toDigits h))

/-- Only places of bound values are written with a dollar sign. -/
theorem dollar_notMem_text {p : Piece} (hp : p.value? = none) (n : ℕ) : '$' ∉ p.text n := by
  intro h
  cases p with
  | word w => exact absurd (Word.isFirst_of_mem h) (by decide)
  | symbol s => exact (isMark_of_mem_symbol h).2 rfl
  | space => simp [text] at h
  | name i =>
    have hi : '$' ∈ i.name.toList := by simpa [text, Ident.quoted] using h
    exact absurd (i.isRest_of_mem hi) (by decide)
  | literal i =>
    have hi : '$' ∈ i.name.toList := by simpa [text] using h
    exact absurd (i.isRest_of_mem hi) (by decide)
  | number k => exact absurd (isDigit_of_mem_toDigits h) (by decide)
  | bind v => simp [value?] at hp

theorem plain_of_mem_textFrom {pieces : List Piece} {n : ℕ} {c : Char}
    (h : c ∈ textFrom n pieces) : Ident.isRest c ∨ isMark c := by
  induction pieces generalizing n with
  | nil => simp [textFrom] at h
  | cons p rest ih =>
    rcases List.mem_append.1 h with h | h
    · exact plain_of_mem_text h
    · exact ih h

end Piece

end QueryClient
