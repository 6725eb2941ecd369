/-
  The tokens of a text, read by the rules of SQL.

  The reader knows nothing of pieces.  A name stands between double quotes and a literal between
  single quotes, inside of which a doubled quote is one quote; a dollar sign is followed by the
  digits of a parameter; an operator is as long a row of operator characters as there is.  What
  has no such form, such as a quote that is left open, cannot be read.

  * `Token.lex` reads a text;
  * `Piece.lex_textFrom`: the text of spaced pieces is read as the tokens of the pieces.
-/
import QueryClient.Proofs.Statement.Characters
import QueryClient.Proofs.Statement.Spacing

namespace QueryClient

inductive Token where
  /-- A word without quotes. -/
  | word (cs : List Char)
  /-- An operator or a mark of punctuation. -/
  | symbol (cs : List Char)
  | parameter (digits : List Char)
  | integer (digits : List Char)
  /-- A name between double quotes. -/
  | name (cs : List Char)
  /-- A literal between single quotes. -/
  | literal (cs : List Char)
  deriving DecidableEq, Repr

namespace Token

/-! ## Reading a text -/

/-- A word begins with a letter, an underscore or a character beyond ASCII. -/
def isWordFirst (c : Char) : Bool := c = '_' || c.isAlpha || 128 ≤ c.toNat

def isWordRest (c : Char) : Bool := isWordFirst c || c.isDigit || c = '$'

/-- The characters of operators. -/
def operators : List Char :=
  ['+', '-', '*', '/', '<', '>', '=', '~', '!', '@', '#', '%', '^', '&', '|', '\x60', '?']

def isOperator (c : Char) : Bool := c ∈ operators

def isPunctuation (c : Char) : Bool := c ∈ ['(', ')', '[', ']', ',', '.', ';', ':']

/-- What stands before the closing quote, and what is left behind it. -/
def quoted (quote : Char) : List Char → Option (List Char × List Char)
  | [] => none
  | c :: rest =>
    if c ≠ quote then (quoted quote rest).map fun (body, rest) => (c :: body, rest)
    else match rest with
      | d :: rest' =>
        if d = quote then (quoted quote rest').map fun (body, rest) => (quote :: body, rest)
        else some ([], rest)
      | [] => some ([], [])

/-- Digits that no word follows on. -/
def numeral (make : List Char → Token) (cs : List Char) : Option (Token × List Char) :=
  let digits := cs.takeWhile Char.isDigit
  let rest := cs.dropWhile Char.isDigit
  if digits.isEmpty || rest.head?.any isWordRest then none else some (make digits, rest)

/-- The first token of a text that does not begin with white space, and what is left. -/
def next? : List Char → Option (Token × List Char)
  | [] => none
  | c :: rest =>
    if c = '"' then (quoted c rest).map fun (body, rest) => (.name body, rest)
    else if c = '\'' then (quoted c rest).map fun (body, rest) => (.literal body, rest)
    else if c = '$' then numeral .parameter rest
    else if c.isDigit then numeral .integer (c :: rest)
    else if isWordFirst c then
      some (.word ((c :: rest).takeWhile isWordRest), (c :: rest).dropWhile isWordRest)
    else if isOperator c then
      some (.symbol ((c :: rest).takeWhile isOperator), (c :: rest).dropWhile isOperator)
    else if isPunctuation c then some (.symbol [c], rest)
    else none

theorem length_dropWhile_le {α : Type} (p : α → Bool) (xs : List α) :
    (xs.dropWhile p).length ≤ xs.length := (List.dropWhile_sublist p).length_le

theorem length_dropWhile_lt {α : Type} {p : α → Bool} {x : α} (hx : p x) (xs : List α) :
    ((x :: xs).dropWhile p).length < (x :: xs).length := by
  rw [List.dropWhile_cons_of_pos hx]
  exact Nat.lt_succ_of_le (length_dropWhile_le p xs)

theorem length_of_quoted {quote : Char} {cs body rest : List Char}
    (h : quoted quote cs = some (body, rest)) : rest.length < cs.length := by
  fun_induction quoted quote cs generalizing body with
  | case1 => cases h
  | case2 c cs hc ih =>
    obtain ⟨⟨body', rest'⟩, hq, h⟩ := Option.map_eq_some_iff.1 h
    cases h
    exact Nat.lt_succ_of_lt (ih hq)
  | case3 cs hc hd ih =>
    obtain ⟨⟨body', rest'⟩, hq, h⟩ := Option.map_eq_some_iff.1 h
    cases h
    exact Nat.lt_succ_of_lt (Nat.lt_succ_of_lt (ih hq))
  | case4 c hc d cs hd =>
    cases h
    exact Nat.lt_succ_self _
  | case5 c hc =>
    cases h
    exact Nat.lt_succ_self _

theorem length_of_numeral {make : List Char → Token} {cs rest : List Char} {t : Token}
    (h : numeral make cs = some (t, rest)) : rest.length < cs.length := by
  unfold numeral at h
  dsimp only at h
  split_ifs at h with hempty
  cases h
  cases cs with
  | nil => simp at hempty
  | cons c cs =>
    by_cases hc : c.isDigit
    · exact length_dropWhile_lt hc cs
    · simp [List.takeWhile_cons_of_neg hc] at hempty

/-- A token takes something off the text. -/
theorem length_of_next? {cs rest : List Char} {t : Token} (h : next? cs = some (t, rest)) :
    rest.length < cs.length := by
  cases cs with
  | nil => cases h
  | cons c cs =>
    unfold next? at h
    dsimp only at h
    split_ifs at h with hdouble hsingle hdollar hdigit hword hoperator hpunctuation
    · obtain ⟨⟨body, rest'⟩, hq, h⟩ := Option.map_eq_some_iff.1 h
      cases h
      exact Nat.lt_succ_of_lt (length_of_quoted hq)
    · obtain ⟨⟨body, rest'⟩, hq, h⟩ := Option.map_eq_some_iff.1 h
      cases h
      exact Nat.lt_succ_of_lt (length_of_quoted hq)
    · exact Nat.lt_succ_of_lt (length_of_numeral h)
    · exact length_of_numeral h
    · cases h
      exact length_dropWhile_lt (by simp [isWordRest, hword]) cs
    · cases h
      exact length_dropWhile_lt hoperator cs
    · cases h
      exact Nat.lt_succ_self _

/-- The tokens of a text, between which there may be white space. -/
def lex (cs : List Char) : Option (List Token) :=
  match cs with
  | [] => some []
  | c :: rest =>
    if c.isWhitespace then lex rest
    else match _ : next? (c :: rest) with
      | some (t, rest') => (lex rest').map (t :: ·)
      | none => none
termination_by cs.length
decreasing_by
  · exact Nat.lt_succ_self _
  · exact length_of_next? ‹_›

theorem lex_nil : lex [] = some [] := by rw [lex]

theorem lex_space (rest : List Char) : lex (' ' :: rest) = lex rest := by
  rw [lex, if_pos (by decide)]

theorem not_isWhitespace_of_next? {c : Char} {cs rest : List Char} {t : Token}
    (h : next? (c :: cs) = some (t, rest)) : ¬ c.isWhitespace := by
  intro hc
  simp only [Char.isWhitespace, Bool.or_eq_true, decide_eq_true_eq] at hc
  rcases hc with ((rfl | rfl) | rfl) | rfl <;> cases h

theorem lex_of_next? {cs rest : List Char} {t : Token} (h : next? cs = some (t, rest)) :
    lex cs = (lex rest).map (t :: ·) := by
  cases cs with
  | nil => cases h
  | cons c cs =>
    rw [lex, if_neg (not_isWhitespace_of_next? h)]
    split
    · next t' rest' h' =>
      rw [h'] at h
      cases h
      rfl
    · next h' =>
      rw [h'] at h
      cases h

/-! ## First tokens -/

theorem quoted_append {quote : Char} {body rest : List Char} (hb : quote ∉ body)
    (hr : ∀ c ∈ rest.head?, c ≠ quote) :
    quoted quote (body ++ quote :: rest) = some (body, rest) := by
  induction body with
  | nil =>
    cases rest with
    | nil => simp [quoted]
    | cons c rest =>
      have hc : c ≠ quote := hr c rfl
      simp [quoted, hc]
  | cons c body ih =>
    rw [List.mem_cons, not_or] at hb
    have hc : c ≠ quote := Ne.symm hb.1
    unfold quoted
    dsimp only [List.cons_append]
    rw [if_pos hc, ih hb.2]
    rfl

theorem numeral_append {make : List Char → Token} {digits rest : List Char} (hne : digits ≠ [])
    (hd : ∀ c ∈ digits, c.isDigit) (hr : ∀ c ∈ rest.head?, ¬ isWordRest c) :
    numeral make (digits ++ rest) = some (make digits, rest) := by
  have hstop : ∀ c ∈ rest.head?, ¬ c.isDigit := fun c hc hdigit =>
    hr c hc (by simp [isWordRest, hdigit])
  have hrest : rest.head?.any isWordRest = false := by
    cases rest with
    | nil => rfl
    | cons c rest => simpa using hr c rfl
  unfold numeral
  dsimp only
  rw [takeWhile_append_of_stop hd hstop, dropWhile_append_of_stop hd hstop, hrest]
  simp [hne]

theorem not_isDigit_of_isWordFirst {c : Char} (h : isWordFirst c) : ¬ c.isDigit := by
  have hdigit : c.isDigit = (decide (48 ≤ c.val) && decide (c.val ≤ 57)) := rfl
  have halpha : c.isAlpha = (decide (65 ≤ c.val ∧ c.val ≤ 90) ||
      (decide (97 ≤ c.val) && decide (c.val ≤ 122))) := rfl
  simp only [isWordFirst, halpha, hdigit, Bool.or_eq_true, Bool.and_eq_true, decide_eq_true_eq,
    UInt32.le_iff_toNat_le] at h ⊢
  rcases h with (rfl | h) | h
  · decide
  · simp at h ⊢
    omega
  · simp
    omega

/-- A character with a property that the quotes and the dollar sign lack is none of them. -/
theorem ne_mark {p : Char → Bool} (hp : ['"', '\'', '$'].all fun c => !p c) {c : Char}
    (hc : p c) : c ≠ '"' ∧ c ≠ '\'' ∧ c ≠ '$' := by
  have hne : ∀ d ∈ ['"', '\'', '$'], c ≠ d := by
    rintro d hd rfl
    have hnot := List.all_eq_true.1 hp c hd
    simp [hc] at hnot
  refine ⟨?_, ?_, ?_⟩
  · exact hne _ (by simp)
  · exact hne _ (by simp)
  · exact hne _ (by simp)

theorem next?_name {body rest : List Char} (hb : '"' ∉ body) (hr : ∀ c ∈ rest.head?, c ≠ '"') :
    next? ('"' :: (body ++ '"' :: rest)) = some (.name body, rest) := by
  rw [next?, if_pos rfl, quoted_append hb hr]
  rfl

theorem next?_literal {body rest : List Char} (hb : '\'' ∉ body)
    (hr : ∀ c ∈ rest.head?, c ≠ '\'') :
    next? ('\'' :: (body ++ '\'' :: rest)) = some (.literal body, rest) := by
  rw [next?, if_neg (by decide), if_pos rfl, quoted_append hb hr]
  rfl

theorem next?_parameter {digits rest : List Char} (hne : digits ≠ [])
    (hd : ∀ c ∈ digits, c.isDigit) (hr : ∀ c ∈ rest.head?, ¬ isWordRest c) :
    next? ('$' :: (digits ++ rest)) = some (.parameter digits, rest) := by
  rw [next?, if_neg (by decide), if_neg (by decide), if_pos rfl, numeral_append hne hd hr]

theorem next?_integer {digits rest : List Char} (hne : digits ≠ [])
    (hd : ∀ c ∈ digits, c.isDigit) (hr : ∀ c ∈ rest.head?, ¬ isWordRest c) :
    next? (digits ++ rest) = some (.integer digits, rest) := by
  cases digits with
  | nil => exact absurd rfl hne
  | cons c digits =>
    have hc : c.isDigit := hd c List.mem_cons_self
    obtain ⟨hdouble, hsingle, hdollar⟩ := ne_mark (p := Char.isDigit) rfl hc
    rw [List.cons_append, next?, if_neg hdouble, if_neg hsingle, if_neg hdollar, if_pos hc,
      ← List.cons_append, numeral_append hne hd hr]

theorem next?_word {c : Char} {cs rest : List Char} (hc : Ident.isFirst c)
    (hcs : ∀ d ∈ cs, Ident.isFirst d) (hr : ∀ d ∈ rest.head?, ¬ isWordRest d) :
    next? (c :: cs ++ rest) = some (.word (c :: cs), rest) := by
  obtain ⟨hdouble, hsingle, hdollar⟩ := ne_mark (p := Ident.isFirst) rfl hc
  have hfirst : ∀ {d}, Ident.isFirst d → isWordFirst d := fun h => by
    simp only [Ident.isFirst] at h
    simp [isWordFirst, h]
  have hall : ∀ d ∈ c :: cs, isWordRest d := fun d hd => by
    have hd' : Ident.isFirst d := (List.mem_cons.1 hd).elim (fun e => e ▸ hc) (hcs d)
    simp [isWordRest, hfirst hd']
  rw [List.cons_append, next?, if_neg hdouble, if_neg hsingle, if_neg hdollar,
    if_neg (not_isDigit_of_isWordFirst (hfirst hc)), if_pos (hfirst hc), ← List.cons_append,
    takeWhile_append_of_stop hall hr, dropWhile_append_of_stop hall hr]

theorem next?_operator {c : Char} {cs rest : List Char} (hcs : ∀ d ∈ c :: cs, isOperator d)
    (hr : ∀ d ∈ rest.head?, ¬ isOperator d) :
    next? (c :: cs ++ rest) = some (.symbol (c :: cs), rest) := by
  have hc : isOperator c := hcs c List.mem_cons_self
  have hother : operators.all (fun c => c ≠ '"' ∧ c ≠ '\'' ∧ c ≠ '$' ∧ ¬ c.isDigit ∧
      ¬ isWordFirst c) := by decide
  have hother := List.all_eq_true.1 hother c (by simpa [isOperator] using hc)
  simp only [decide_eq_true_eq] at hother
  obtain ⟨hdouble, hsingle, hdollar, hdigit, hword⟩ := hother
  rw [List.cons_append, next?, if_neg hdouble, if_neg hsingle, if_neg hdollar, if_neg hdigit,
    if_neg hword, if_pos hc, ← List.cons_append, takeWhile_append_of_stop hcs hr,
    dropWhile_append_of_stop hcs hr]

end Token

/-! ## Tokens of pieces -/

namespace Piece

open Token

/-- The token of a piece when `n` values are bound before it; a space has none. -/
def token? (n : ℕ) : Piece → Option Token
  | .word w => some (.word w.text.toList)
  | .symbol s => some (.symbol s.text.toList)
  | .space => none
  | .name i => some (.name i.name.toList)
  | .literal i => some (.literal i.name.toList)
  | .number k => some (.integer (Nat.toDigits 10 k))
  | .bind _ => some (.parameter (Nat.toDigits 10 (n + 1)))

/-- The tokens of pieces when `n` values are bound before them. -/
def tokensFrom : ℕ → List Piece → List Token
  | _, [] => []
  | n, p :: rest => (p.token? n).toList ++ tokensFrom (if p.value?.isSome then n + 1 else n) rest

/-- A piece and those behind it bind as many values as all of them. -/
theorem length_boundValues_cons (p : Piece) (rest : List Piece) (n : ℕ) :
    (if p.value?.isSome then n + 1 else n) + (boundValues rest).length =
      n + (boundValues (p :: rest)).length := by
  cases hv : p.value? with
  | none => simp [boundValues, hv]
  | some v =>
    simp [boundValues, hv]
    omega

theorem tokensFrom_append (xs ys : List Piece) (n : ℕ) :
    tokensFrom n (xs ++ ys) =
      tokensFrom n xs ++ tokensFrom (n + (boundValues xs).length) ys := by
  induction xs generalizing n with
  | nil => rfl
  | cons p xs ih =>
    rw [List.cons_append, tokensFrom, tokensFrom, ih, length_boundValues_cons, List.append_assoc]

theorem not_isWordRest_of_isBreak {c : Char} (h : isBreak c) : ¬ isWordRest c :=
  not_of_isBreak rfl h

theorem not_isOperator_of_isBreak {c : Char} (h : isBreak c) : ¬ isOperator c :=
  not_of_isBreak rfl h

theorem next?_symbol {s : Symbol} {rest : List Char}
    (h : ¬ (symbol s).isDelimiter → ∀ c ∈ rest.head?, isBreak c) :
    next? (s.text.toList ++ rest) = some (.symbol s.text.toList, rest) := by
  by_cases hd : (symbol s).isDelimiter
  · cases s <;> first | rfl | cases hd
  · have hstop := fun c hc => not_isOperator_of_isBreak (h hd c hc)
    have hall : s.text.toList.all isOperator := by cases s <;> first | decide | exact absurd rfl hd
    cases ht : s.text.toList with
    | nil => cases s <;> cases ht
    | cons c cs => exact next?_operator (List.all_eq_true.1 (ht ▸ hall)) hstop

/-- A piece is read as its token where the text goes on with a delimiter. -/
theorem next?_text {p : Piece} {n : ℕ} {t : Token} (ht : p.token? n = some t) {rest : List Char}
    (h : ¬ p.isDelimiter → ∀ c ∈ rest.head?, isBreak c) :
    next? (p.text n ++ rest) = some (t, rest) := by
  cases p with
  | word w =>
    cases ht
    have hstop := fun c hc => not_isWordRest_of_isBreak (h (by simp [isDelimiter]) c hc)
    cases hw : w.text.toList with
    | nil => exact absurd hw w.text_ne_nil
    | cons c cs =>
      have hfirst : ∀ d ∈ c :: cs, Ident.isFirst d := fun d hd => Word.isFirst_of_mem (hw ▸ hd)
      rw [text, hw]
      exact next?_word (hfirst c List.mem_cons_self)
        (fun d hd => hfirst d (List.mem_cons_of_mem _ hd)) hstop
  | symbol s =>
    cases ht
    exact next?_symbol h
  | space => cases ht
  | name i =>
    cases ht
    have hquote : '"' ∉ i.name.toList := fun hq => absurd (i.isRest_of_mem hq) (by decide)
    have hstop : ∀ c ∈ rest.head?, c ≠ '"' := by
      rintro c hc rfl
      exact absurd (h (by simp [isDelimiter]) _ hc) (by decide)
    simpa [text, Ident.quoted] using next?_name hquote hstop
  | literal i =>
    cases ht
    have hquote : '\'' ∉ i.name.toList := fun hq => absurd (i.isRest_of_mem hq) (by decide)
    have hstop : ∀ c ∈ rest.head?, c ≠ '\'' := by
      rintro c hc rfl
      exact absurd (h (by simp [isDelimiter]) _ hc) (by decide)
    simpa [text] using next?_literal hquote hstop
  | number k =>
    cases ht
    have hstop := fun c hc => not_isWordRest_of_isBreak (h (by simp [isDelimiter]) c hc)
    exact next?_integer Nat.toDigits_ne_nil (fun c hc => isDigit_of_mem_toDigits hc) hstop
  | bind v =>
    cases ht
    have hstop := fun c hc => not_isWordRest_of_isBreak (h (by simp [isDelimiter]) c hc)
    exact next?_parameter Nat.toDigits_ne_nil (fun c hc => isDigit_of_mem_toDigits hc) hstop

/-- **The text of spaced pieces is read as their tokens.** -/
theorem lex_textFrom {pieces : List Piece} (h : Spaced pieces) (n : ℕ) :
    lex (textFrom n pieces) = some (tokensFrom n pieces) := by
  induction pieces generalizing n with
  | nil => exact lex_nil
  | cons p rest ih =>
    rw [textFrom, tokensFrom]
    cases ht : p.token? n with
    | none =>
      obtain rfl : p = space := by cases p <;> simp [token?] at ht; rfl
      exact (lex_space _).trans (ih h.tail n)
    | some t =>
      rw [lex_of_next? (next?_text ht fun hp => h.break_after hp _), ih h.tail]
      rfl

end Piece

end QueryClient
