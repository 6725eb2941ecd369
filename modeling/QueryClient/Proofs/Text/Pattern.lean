/-
  Patterns of texts.

  A pattern asks for characters of some classes, one after the other or in one of several ways, and
  for places in a text: a word boundary, its start and its end.  It matches a part of a text, and
  whether it does can depend on what stands before and after that part.

  * `Pattern.Matches` and `Pattern.Occurs`: a pattern matches a part between two others, and some
    part of a text;
  * `Pattern.Leaves`: what a pattern leaves of some characters when it matches their front;
  * `Pattern.Occurs.surrounded`: what begins at a word boundary, asks for no other place and is
    never empty also occurs with anything after the text, and with anything before it that does not
    end with a word character.
-/
import QueryClient.Text.Word
import Mathlib.Data.Nat.Notation

namespace QueryClient.Text

inductive Pattern where
  | nothing
  /-- Characters of a class, as many as the bounds allow. -/
  | chars (p : Char → Bool) (least : ℕ) (most : Option ℕ)
  | seq (first second : Pattern)
  | either (first second : Pattern)
  | wordBoundary
  | textStart
  | textEnd

namespace Pattern

/-! ## Shapes of patterns -/

/-- One character of a class. -/
def one (p : Char → Bool) : Pattern := chars p 1 (some 1)

/-- Patterns one after the other. -/
def row : List Pattern → Pattern := List.foldr seq nothing

/-- One of some patterns. -/
def anyOf : List Pattern → Pattern := List.foldr either (one fun _ => false)

/-- A word, of which each character is taken for the same as the one in the text. -/
def spelled (same : Char → Char → Bool) : (word : List Char) → Pattern
  | [] => nothing
  | w :: word => seq (one fun c => same c w) (spelled same word)

/-- A pattern for a text from its start to its end. -/
def whole (p : Pattern) : Pattern := row [textStart, p, textEnd]

/-- A pattern asks for no place. -/
def isPlain : Pattern → Bool
  | nothing | chars _ _ _ => true
  | seq a b | either a b => a.isPlain && b.isPlain
  | wordBoundary | textStart | textEnd => false

@[simp] theorem isPlain_chars (p : Char → Bool) (n : ℕ) (most : Option ℕ) :
    (chars p n most).isPlain := rfl

@[simp] theorem isPlain_one (p : Char → Bool) : (one p).isPlain := rfl

@[simp] theorem isPlain_row (ps : List Pattern) : (row ps).isPlain = ps.all isPlain := by
  induction ps with
  | nil => rfl
  | cons p ps ih => exact congrArg (p.isPlain && ·) ih

@[simp] theorem isPlain_anyOf (ps : List Pattern) : (anyOf ps).isPlain = ps.all isPlain := by
  induction ps with
  | nil => rfl
  | cons p ps ih => exact congrArg (p.isPlain && ·) ih

@[simp] theorem isPlain_spelled (same : Char → Char → Bool) (word : List Char) :
    (spelled same word).isPlain := by
  induction word with
  | nil => rfl
  | cons w word ih => exact ih

/-- How many characters a pattern asks for. -/
def least : Pattern → ℕ
  | chars _ n _ => n
  | seq a b => a.least + b.least
  | either a b => min a.least b.least
  | nothing | wordBoundary | textStart | textEnd => 0

/-! ## Matches -/

/-- Whether a word ends where some characters end. -/
def endsWord (cs : List Char) : Bool := cs.getLast?.any isWord

/-- Whether a word starts where some characters start. -/
def startsWord (cs : List Char) : Bool := cs.head?.any isWord

/-- A pattern matches `found`, between what stands before it and after it. -/
def Matches : Pattern → (before found after : List Char) → Prop
  | nothing, _, found, _ => found = []
  | chars p least most, _, found, _ =>
    least ≤ found.length ∧ (∀ n ∈ most, found.length ≤ n) ∧ ∀ c ∈ found, p c
  | seq a b, before, found, after => ∃ front back, found = front ++ back ∧
    a.Matches before front (back ++ after) ∧ b.Matches (before ++ front) back after
  | either a b, before, found, after => a.Matches before found after ∨ b.Matches before found after
  | wordBoundary, before, found, after => found = [] ∧ endsWord before ≠ startsWord after
  | textStart, before, found, _ => found = [] ∧ before = []
  | textEnd, _, found, after => found = [] ∧ after = []

/-- A pattern matches some part of a text. -/
def Occurs (p : Pattern) (cs : List Char) : Prop :=
  ∃ before found after, cs = before ++ found ++ after ∧ p.Matches before found after

/-- A pattern matches the front of some characters and leaves the rest. -/
def Leaves (p : Pattern) (cs rest : List Char) : Prop :=
  ∃ found, cs = found ++ rest ∧ p.Matches [] found rest

/-- Each of some patterns matches the front of what the one before it leaves. -/
def LeaveInTurn : List Pattern → (cs rest : List Char) → Prop
  | [], cs, rest => cs = rest
  | p :: ps, cs, rest => ∃ mid, p.Leaves cs mid ∧ LeaveInTurn ps mid rest

section
variable {p a b : Pattern} {cs before found after rest : List Char}

theorem Matches.least_le (h : p.Matches before found after) : p.least ≤ found.length := by
  induction p generalizing before found after with
  | chars => exact h.1
  | seq a b iha ihb =>
    obtain ⟨front, back, rfl, ha, hb⟩ := h
    rw [List.length_append]
    exact Nat.add_le_add (iha ha) (ihb hb)
  | either a b iha ihb =>
    rcases h with h | h
    · exact Nat.le_trans (Nat.min_le_left _ _) (iha h)
    · exact Nat.le_trans (Nat.min_le_right _ _) (ihb h)
  | _ => exact Nat.zero_le _

/-- What asks for no place matches the same characters everywhere. -/
theorem Matches.elsewhere (hp : p.isPlain) (h : p.Matches before found after)
    (before' after' : List Char) : p.Matches before' found after' := by
  induction p generalizing before found after before' after' with
  | nothing | chars => exact h
  | seq a b iha ihb =>
    obtain ⟨ha, hb⟩ := Bool.and_eq_true_iff.1 hp
    obtain ⟨front, back, rfl, hfront, hback⟩ := h
    exact ⟨front, back, rfl, iha ha hfront _ _, ihb hb hback _ _⟩
  | either a b iha ihb =>
    obtain ⟨ha, hb⟩ := Bool.and_eq_true_iff.1 hp
    exact h.imp (iha ha · _ _) (ihb hb · _ _)
  | wordBoundary | textStart | textEnd => cases hp

/-! ## What is left -/

@[simp] theorem leaves_nothing : nothing.Leaves cs rest ↔ cs = rest := by
  simp [Leaves, Matches]

theorem leaves_chars {q : Char → Bool} {n : ℕ} {most : Option ℕ} :
    (chars q n most).Leaves cs rest ↔ ∃ found, cs = found ++ rest ∧ n ≤ found.length ∧
      (∀ m ∈ most, found.length ≤ m) ∧ ∀ c ∈ found, q c := Iff.rfl

theorem leaves_seq (ha : a.isPlain) (hb : b.isPlain) :
    (seq a b).Leaves cs rest ↔ ∃ mid, a.Leaves cs mid ∧ b.Leaves mid rest := by
  constructor
  · rintro ⟨_, rfl, front, back, rfl, hfront, hback⟩
    exact ⟨back ++ rest, ⟨front, List.append_assoc .., hfront⟩, back, rfl, hback.elsewhere hb _ _⟩
  · rintro ⟨_, ⟨front, rfl, hfront⟩, back, rfl, hback⟩
    exact ⟨front ++ back, (List.append_assoc ..).symm, front, back, rfl, hfront.elsewhere ha _ _,
      hback.elsewhere hb _ _⟩

theorem leaves_either :
    (either a b).Leaves cs rest ↔ a.Leaves cs rest ∨ b.Leaves cs rest := by
  simp only [Leaves, Matches, and_or_left, exists_or]

theorem leaves_one {q : Char → Bool} :
    (one q).Leaves cs rest ↔ ∃ c, q c ∧ cs = c :: rest := by
  rw [one, leaves_chars]
  constructor
  · rintro ⟨found, rfl, hleast, hmost, hq⟩
    obtain ⟨c, rfl⟩ := List.length_eq_one_iff.1 (Nat.le_antisymm (hmost 1 rfl) hleast)
    exact ⟨c, hq c (List.mem_singleton_self c), rfl⟩
  · rintro ⟨c, hc, rfl⟩
    refine ⟨[c], rfl, Nat.le_refl 1, fun m hm => ?_, fun d hd => List.mem_singleton.1 hd ▸ hc⟩
    exact Option.some.inj hm ▸ Nat.le_refl 1

theorem leaves_row {ps : List Pattern} (h : (row ps).isPlain) :
    (row ps).Leaves cs rest ↔ LeaveInTurn ps cs rest := by
  induction ps generalizing cs with
  | nil => exact leaves_nothing
  | cons p ps ih =>
    obtain ⟨hp, hps⟩ := Bool.and_eq_true_iff.1 h
    exact (leaves_seq hp hps).trans (exists_congr fun mid => and_congr_right fun _ => ih hps)

theorem leaves_anyOf {ps : List Pattern} :
    (anyOf ps).Leaves cs rest ↔ ∃ p ∈ ps, p.Leaves cs rest := by
  induction ps with
  | nil => simp [anyOf, leaves_one]
  | cons p ps ih =>
    simp only [List.mem_cons, exists_eq_or_imp, ← ih]
    exact leaves_either

/-! ## Occurrences -/

theorem occurs_whole : (whole p).Occurs cs ↔ p.Matches [] cs [] := by
  constructor
  · rintro ⟨_, _, after, rfl, _, _, rfl, ⟨rfl, rfl⟩, found, _, rfl, hfound, _, _, rfl,
      ⟨rfl, hafter⟩, rfl⟩
    obtain rfl : after = [] := hafter
    simpa using hfound
  · intro h
    refine ⟨[], cs, [], by simp, [], cs, rfl, ⟨rfl, rfl⟩, cs, [], by simp, ?_, [], [], rfl,
      ⟨rfl, rfl⟩, rfl⟩
    exact h

theorem occurs_seq_wordBoundary (hp : p.isPlain) : (seq wordBoundary p).Occurs cs ↔
    ∃ before rest after, cs = before ++ rest ∧ endsWord before ≠ startsWord rest ∧
      p.Leaves rest after := by
  constructor
  · rintro ⟨before, _, after, rfl, _, found, rfl, ⟨rfl, hboundary⟩, hfound⟩
    exact ⟨before, found ++ after, after, List.append_assoc .., hboundary, found, rfl,
      hfound.elsewhere hp _ _⟩
  · rintro ⟨before, _, after, rfl, hboundary, found, rfl, hfound⟩
    exact ⟨before, found, after, (List.append_assoc ..).symm, [], found, rfl, ⟨rfl, hboundary⟩,
      hfound.elsewhere hp _ _⟩

theorem endsWord_append {front : List Char} (hfront : endsWord front = false) :
    endsWord (front ++ cs) = endsWord cs := by
  cases cs with
  | nil => rw [List.append_nil, hfront]; rfl
  | cons c cs => rw [endsWord, endsWord, List.getLast?_append, List.getLast?_cons, Option.some_or]

/-- **What begins at a word boundary and asks for no other place** also occurs with anything after
the text, and with anything before it that does not end with a word character. -/
theorem Occurs.surrounded (hp : p.isPlain) (hpos : 0 < p.least)
    (h : (seq wordBoundary p).Occurs cs) {front : List Char} (hfront : endsWord front = false)
    (back : List Char) : (seq wordBoundary p).Occurs (front ++ cs ++ back) := by
  rw [occurs_seq_wordBoundary hp] at h ⊢
  obtain ⟨before, _, after, rfl, hboundary, found, rfl, hfound⟩ := h
  -- the boundary stands before a character of the match, which what comes after cannot change
  obtain ⟨c, found, rfl⟩ : ∃ c cs, found = c :: cs :=
    List.exists_cons_of_length_pos (Nat.lt_of_lt_of_le hpos hfound.least_le)
  refine ⟨front ++ before, c :: found ++ (after ++ back), after ++ back, ?_, ?_, c :: found, rfl,
    hfound.elsewhere hp _ _⟩
  · simp only [List.append_assoc]
  · rw [endsWord_append hfront]
    exact hboundary

end

end Pattern

end QueryClient.Text
