/-
  The tokens of statements.

  * `Token.Known` holds of the tokens that may stand in a statement: the words and symbols of the
    vocabulary, the parameters that have a value, the numbers of the paging, and identifiers that
    the query gave;
  * `Statement.Harmless` holds of a statement all of whose tokens are known and in which nothing
    ends a statement or begins a comment;
  * `statements_harmless`: every statement is harmless, whatever the texts of its query are.
-/
import QueryClient.Proofs.Statement.Numbering
import QueryClient.Proofs.Statement.Parts
import QueryClient.Proofs.Statement.Token

namespace QueryClient

open Piece

/-- The tokens of a statement with `bound` values. -/
inductive Token.Known (names configs : List String) (numbers : List ℕ) (bound : ℕ) : Token → Prop
  | word (w : Word) : Known names configs numbers bound (.word w.text.toList)
  | symbol (s : Symbol) : Known names configs numbers bound (.symbol s.text.toList)
  | parameter {k : ℕ} : 1 ≤ k → k ≤ bound →
      Known names configs numbers bound (.parameter (Nat.toDigits 10 k))
  | integer {k : ℕ} : k ∈ numbers →
      Known names configs numbers bound (.integer (Nat.toDigits 10 k))
  | name {text : String} : text ∈ names → IsIdent text.toList →
      Known names configs numbers bound (.name text.toList)
  | literal {text : String} : text ∈ configs → IsIdent text.toList →
      Known names configs numbers bound (.literal text.toList)

/-- All tokens of the statement are known, and nothing ends it or begins a comment. -/
structure Statement.Harmless (names configs : List String) (numbers : List ℕ) (s : Statement) :
    Prop where
  known : ∃ tokens, Token.lex s.text.toList = some tokens ∧
    ∀ t ∈ tokens, t.Known names configs numbers s.values.length
  semicolon : ';' ∉ s.text.toList
  lineComment : ¬ ['-', '-'] <:+: s.text.toList
  blockComment : ¬ ['/', '*'] <:+: s.text.toList

/-- The numbers that a query states. -/
def Query.numbers (q : Query) : List ℕ := q.limit.toList ++ q.offset.toList

/-! ## Known pieces -/

/-- The pieces whose tokens are known. -/
def Piece.Allowed (names configs : List String) (numbers : List ℕ) : Piece → Prop
  | .name i => i.name ∈ names
  | .literal i => i.name ∈ configs
  | .number k => k ∈ numbers
  | .word _ | .symbol _ | .space | .bind _ => True

variable {names configs : List String} {numbers : List ℕ}

theorem Piece.fixed_allowed : Fixed (Allowed names configs numbers) where
  word _ _ := trivial
  symbol _ := trivial
  space := trivial
  bind _ := trivial

theorem Query.allowed_paging (q : Query) : Each (Allowed names configs q.numbers)
    (Statement.paging q) := by
  have hclause : ∀ w : Word, Each (Allowed names configs q.numbers) (clause [w]) := fun w => by
    simp [clause, phrase, Allowed]
  refine each_append.2 ⟨?_, ?_⟩
  · split
    · next n hn => exact each_append.2 ⟨hclause _, by simp [Allowed, Query.numbers, hn]⟩
    · split_ifs
      · exact each_nil
      · exact each_append.2 ⟨hclause _, by simp [Allowed]⟩
  · split
    · next n hn => exact each_append.2 ⟨hclause _, by simp [Allowed, Query.numbers, hn]⟩
    · exact each_nil

theorem Piece.known_of_allowed {p : Piece} {n bound : ℕ} {t : Token}
    (h : p.Allowed names configs numbers) (hb : p.value?.isSome → n + 1 ≤ bound)
    (ht : p.token? n = some t) : t.Known names configs numbers bound := by
  cases p with
  | word w => cases ht; exact .word w
  | symbol s => cases ht; exact .symbol s
  | space => cases ht
  | name i => cases ht; exact .name h i.isIdent
  | literal i => cases ht; exact .literal h i.isIdent
  | number k => cases ht; exact .integer h
  | bind v => cases ht; exact .parameter (Nat.le_add_left 1 n) (hb rfl)

/-- The tokens of allowed pieces are known where the statement binds all their values. -/
theorem Piece.known_of_mem_tokensFrom {pieces : List Piece} {n bound : ℕ}
    (h : Each (Allowed names configs numbers) pieces)
    (hb : n + (boundValues pieces).length ≤ bound) :
    ∀ t ∈ tokensFrom n pieces, t.Known names configs numbers bound := by
  induction pieces generalizing n with
  | nil => simp [tokensFrom]
  | cons p rest ih =>
    obtain ⟨hp, hrest⟩ := each_cons.1 h
    intro t ht
    have hcount := length_boundValues_cons p rest n
    rcases List.mem_append.1 ht with ht | ht
    · refine known_of_allowed hp (fun hv => ?_) (Option.mem_toList.1 ht)
      rw [if_pos hv] at hcount
      omega
    · exact ih hrest (by omega) t ht

theorem Statement.harmless_of_each {s : Statement} (hs : Spaced s.pieces)
    (h : Each (Allowed names configs numbers) s.pieces) : s.Harmless names configs numbers := by
  have hnot : ∀ c, (Ident.isRest c || isMark c) = false → c ∉ s.text.toList := by
    intro c hc hmem
    rw [Statement.text, String.toList_ofList] at hmem
    have hplain : Ident.isRest c || isMark c := by simpa using plain_of_mem_textFrom hmem
    rw [hc] at hplain
    cases hplain
  constructor
  case known =>
    refine ⟨tokensFrom 0 s.pieces, ?_, ?_⟩
    · rw [Statement.text, String.toList_ofList]
      exact lex_textFrom hs 0
    · exact known_of_mem_tokensFrom h (by simp [Statement.values])
  case semicolon => exact hnot ';' rfl
  case lineComment =>
    intro hd
    exact hnot '-' rfl (hd.subset List.mem_cons_self)
  case blockComment =>
    intro hd
    exact hnot '/' rfl (hd.subset List.mem_cons_self)

/-! ## All statements -/

/-- **Every statement is harmless**, whatever the texts of its query are. -/
theorem statements_harmless (safety : Safety) (q : Query) :
    (∀ s, Statement.compile safety q = .ok s → s.Harmless q.names q.configs q.numbers) ∧
    ∀ mode s, Statement.compileCount safety q mode = .ok s →
      s.Harmless ("count" :: q.names) q.configs [] := by
  constructor
  · intro s h
    have hs := compiled_of_compile h
    exact Statement.harmless_of_each hs.spaced
      (hs.each fixed_allowed (fun _ hi => hi) (fun _ hi => hi) q.allowed_paging)
  · intro mode s h
    have hs := counted_of_compileCount h
    exact Statement.harmless_of_each hs.spaced (hs.each fixed_allowed
      (fun _ hi => List.mem_cons_of_mem _ hi) (fun _ hi => hi) List.mem_cons_self)

theorem statements_harmless_of_lookup :
    (∃ s, Statement.compile {} Query.lookup = .ok s ∧
      s.Harmless Query.lookup.names Query.lookup.configs Query.lookup.numbers) ∧
    ∃ s, Statement.compileCount {} Query.lookup .exact = .ok s ∧
      s.Harmless ("count" :: Query.lookup.names) Query.lookup.configs [] := by
  obtain ⟨s, hs⟩ : ∃ s, Statement.compile {} Query.lookup = .ok s := ⟨_, rfl⟩
  obtain ⟨t, ht⟩ : ∃ t, Statement.compileCount {} Query.lookup .exact = .ok t := ⟨_, rfl⟩
  exact ⟨⟨s, hs, (statements_harmless {} Query.lookup).1 s hs⟩,
    t, ht, (statements_harmless {} Query.lookup).2 .exact t ht⟩

end QueryClient
