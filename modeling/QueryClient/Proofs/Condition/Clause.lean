/-
  The condition in the text of a statement.

  * `Piece.words` are the words that pieces write without quotes: `WHERE` is among those of a
    statement only where its condition begins, and no word of a condition begins another clause;
  * `Statement.ofText?_of_pieces`: the condition that a text states is that of its filters;
  * `condition_means_filters`: it means what the filters of the query stand for together, in every
    statement that has one.
-/
import QueryClient.Proofs.Condition.Filters

namespace QueryClient

open Token Condition

namespace Piece

/-! ## Words -/

def word? : Piece → Option Word
  | .word w => some w
  | _ => none

/-- The words of some pieces, in order. -/
def words (pieces : List Piece) : List Word := pieces.filterMap word?

@[simp] theorem words_nil : words [] = [] := rfl

@[simp] theorem words_append (xs ys : List Piece) : words (xs ++ ys) = words xs ++ words ys :=
  List.filterMap_append

@[simp] theorem words_word (w : Word) (xs : List Piece) : words (word w :: xs) = w :: words xs := rfl

@[simp] theorem words_symbol (s : Symbol) (xs : List Piece) :
    words (symbol s :: xs) = words xs := rfl

@[simp] theorem words_space (xs : List Piece) : words (space :: xs) = words xs := rfl

@[simp] theorem words_name (i : Ident) (xs : List Piece) : words (name i :: xs) = words xs := rfl

@[simp] theorem words_literal (i : Ident) (xs : List Piece) :
    words (literal i :: xs) = words xs := rfl

@[simp] theorem words_number (n : ℕ) (xs : List Piece) : words (number n :: xs) = words xs := rfl

@[simp] theorem words_bind (v : Value) (xs : List Piece) : words (bind v :: xs) = words xs := rfl

/-- The words of items in a row are those of the items and those between them. -/
theorem mem_words_intercalate {sep : List Piece} {w : Word} :
    ∀ {items : List (List Piece)}, w ∈ words (sep.intercalate items) →
      w ∈ words sep ∨ ∃ item ∈ items, w ∈ words item
  | [], h => by simp at h
  | [item], h => by
    rw [List.intercalate_singleton] at h
    exact Or.inr ⟨item, List.mem_cons_self, h⟩
  | item :: item' :: items, h => by
    rw [List.intercalate_cons_cons, words_append, words_append, List.mem_append,
      List.mem_append] at h
    rcases h with (h | h) | h
    · exact Or.inr ⟨item, List.mem_cons_self, h⟩
    · exact Or.inl h
    · rcases mem_words_intercalate h with h | ⟨i, hi, h⟩
      · exact Or.inl h
      · exact Or.inr ⟨i, List.mem_cons_of_mem _ hi, h⟩

/-- Items without words have none in a list either. -/
theorem words_commas {items : List (List Piece)} (h : ∀ item ∈ items, words item = []) :
    words (commas items) = [] := by
  rw [List.eq_nil_iff_forall_not_mem]
  intro w hw
  rcases mem_words_intercalate hw with hw | ⟨item, hi, hw⟩
  · cases hw
  · rw [h item hi] at hw
    cases hw

@[simp] theorem words_inParens (xs : List Piece) : words (inParens xs) = words xs := by
  simp [inParens]

@[simp] theorem words_phrase (ws : List Word) : words (phrase ws) = ws := by
  unfold phrase
  induction ws with
  | nil => rfl
  | cons w ws ih =>
    cases ws with
    | nil => rfl
    | cons w' ws => exact congrArg (w :: ·) ih

@[simp] theorem words_clause (ws : List Word) : words (clause ws) = ws := by simp [clause]

@[simp] theorem words_names (columns : List Ident) : words (names columns) = [] :=
  words_commas fun item hi => by
    obtain ⟨c, -, rfl⟩ := List.mem_map.1 hi
    rfl

@[simp] theorem words_binds (values : List Value) : words (binds values) = [] :=
  words_commas fun item hi => by
    obtain ⟨v, -, rfl⟩ := List.mem_map.1 hi
    rfl

@[simp] theorem words_compared (column : Ident) (op : List Piece) (v : Value) :
    words (compared column op v) = words op := by
  simp [compared]

@[simp] theorem words_columns (columns : ColumnList) : words columns.pieces = [] := by
  cases columns with
  | all => rfl
  | only columns => exact words_names columns

@[simp] theorem words_target (schema entity : Ident) : words (Statement.target schema entity) = [] :=
  rfl

@[simp] theorem words_application (schema function : Ident) (args : List Value) :
    words (Statement.application schema function args) = [] := by
  simp [Statement.application]

@[simp] theorem words_assignments (pairs : List (Ident × Value)) :
    words (Statement.assignments pairs) = [] :=
  words_commas fun item hi => by
    obtain ⟨pair, -, rfl⟩ := List.mem_map.1 hi
    simp

/-- A word is among the tokens only if it is among the words. -/
theorem mem_words_of_keyword_mem {text : String} {pieces : List Piece} {n : ℕ}
    (h : keyword text ∈ tokensFrom n pieces) : ∃ w ∈ words pieces, w.text = text := by
  induction pieces generalizing n with
  | nil => cases h
  | cons p rest ih =>
    rcases List.mem_append.1 h with h | h
    · cases p with
      | word w =>
        have htext : text.toList = w.text.toList := by
          simpa [token?, keyword] using h
        exact ⟨w, List.mem_cons_self, (String.toList_injective htext).symm⟩
      | _ => simp [token?, keyword] at h
    · obtain ⟨w, hw, htext⟩ := ih h
      refine ⟨w, ?_, htext⟩
      cases p with
      | word v => exact List.mem_cons_of_mem _ hw
      | _ => exact hw

end Piece

open Piece

/-! ## Words of conditions -/

/-- The words with which no further clause begins. -/
def Word.staysInside (w : Word) : Bool := .word w.text.toList ∉ clauseEnds

theorem Word.text_ne_where {w : Word} (h : w ≠ .whereWord) : w.text ≠ "WHERE" := by
  revert h
  cases w <;> decide

theorem Comparison.words_pieces (c : Comparison) : words c.pieces = [] := by
  simp [Comparison.pieces]

theorem Filter.staysInside_of_mem {f : Filter} : ∀ w ∈ words f.pieces, w.staysInside := by
  have hcompared : ∀ (column : Ident) (op : List Piece) (v : Value),
      (∀ w ∈ words op, w.staysInside) → ∀ w ∈ words (compared column op v), w.staysInside :=
    fun column op v h => by simpa using h
  have hjuncture : ∀ (v : Word) (items : List (List Piece)), v.staysInside →
      (∀ item ∈ items, words item = []) →
      ∀ w ∈ words (inParens ((clause [v]).intercalate items)), w.staysInside := by
    intro v items hv hitems w hw
    rw [words_inParens] at hw
    rcases mem_words_intercalate hw with hw | ⟨item, hi, hw⟩
    · rw [words_clause, List.mem_singleton] at hw
      exact hw ▸ hv
    · rw [hitems item hi] at hw
      cases hw
  cases f with
  | compare c => simp [Filter.pieces, c.words_pieces]
  | pattern column op v => cases op <;> exact hcompared _ _ _ (by decide)
  | is column v => exact hcompared _ _ _ (by decide)
  | member column vs negated =>
    cases vs with
    | nil =>
      have hwords : words (Filter.member column [] negated).pieces =
          [if negated then .trueWord else .falseWord] := rfl
      rw [hwords]
      cases negated <;> decide
    | cons v vs =>
      have hwords : words (Filter.member column (v :: vs) negated).pieces =
          if negated then [.not, .inWord] else [.inWord] := by simp [Filter.pieces]
      rw [hwords]
      cases negated <;> decide
  | distinct column v => exact hcompared _ _ _ (by decide)
  | contain column op v => exact hcompared _ _ _ (by simp)
  | not c =>
    have hwords : words (Filter.not c).pieces = [.not] := by
      simp [Filter.pieces, c.words_pieces]
    rw [hwords]
    decide
  | search column query config mode =>
    have hwords : words (Filter.search column query config mode).pieces =
        [.textVector, mode.word] := by
      cases config <;> simp [Filter.pieces, Filter.configPieces]
    rw [hwords]
    cases mode <;> decide
  | all pairs =>
    refine hjuncture .and _ (by decide) fun item hi => ?_
    obtain ⟨pair, -, rfl⟩ := List.mem_map.1 hi
    simp
  | any comparisons =>
    refine hjuncture .or _ (by decide) fun item hi => ?_
    obtain ⟨c, -, rfl⟩ := List.mem_map.1 hi
    exact c.words_pieces

theorem Filter.clauseEnds_notMem (filters : List Filter) (n : ℕ) :
    ∀ t ∈ tokensFrom n ((clause [.and]).intercalate (filters.map Filter.pieces)),
      t ∉ clauseEnds := by
  intro t ht hend
  have hkeyword : ∃ text, t = keyword text := by
    simp only [clauseEnds, List.mem_cons, List.not_mem_nil, or_false] at hend
    rcases hend with rfl | rfl | rfl | rfl <;> exact ⟨_, rfl⟩
  obtain ⟨text, rfl⟩ := hkeyword
  obtain ⟨w, hw, rfl⟩ := mem_words_of_keyword_mem ht
  have hinside : w.staysInside := by
    rcases mem_words_intercalate hw with hw | ⟨item, hi, hw⟩
    · rw [words_clause, List.mem_singleton] at hw
      exact hw ▸ rfl
    · obtain ⟨f, -, rfl⟩ := List.mem_map.1 hi
      exact Filter.staysInside_of_mem w hw
  simp only [Word.staysInside, decide_eq_true_eq] at hinside
  exact hinside hend

/-! ## The clause of a statement -/

/-- Pieces that begin a further clause, if there are any. -/
def Piece.Continues (pieces : List Piece) : Prop :=
  ∀ n, ∀ t ∈ (tokensFrom n pieces).head?, t ∈ clauseEnds

theorem Token.clause?_append {xs : List Token} (h : keyword "WHERE" ∉ xs) (ys : List Token) :
    clause? (xs ++ ys) = clause? ys := by
  induction xs with
  | nil => rfl
  | cons t xs ih =>
    rw [List.mem_cons, not_or] at h
    rw [List.cons_append, clause?, if_neg (Ne.symm h.1), ih h.2]

/-- The clause of pieces in which the condition of some filters stands. -/
theorem Piece.clause?_tokensFrom {front tail : List Piece} (f : Filter) (fs : List Filter)
    (hfront : Word.whereWord ∉ words front) (htail : Continues tail) :
    clause? (tokensFrom 0 (front ++ Filter.condition (f :: fs) ++ tail)) =
      some (tokensFrom (boundValues front).length
        ((clause [.and]).intercalate ((f :: fs).map Filter.pieces))) := by
  have hwhere : keyword "WHERE" ∉ tokensFrom 0 front := fun h => by
    obtain ⟨w, hw, htext⟩ := mem_words_of_keyword_mem h
    exact Word.text_ne_where (fun he => hfront (he ▸ hw)) htext
  have hcondition : ∀ n, tokensFrom n (Filter.condition (f :: fs)) = keyword "WHERE" ::
      tokensFrom n ((clause [.and]).intercalate ((f :: fs).map Filter.pieces)) := fun _ => rfl
  have hinside := Filter.clauseEnds_notMem (f :: fs) (boundValues front).length
  rw [List.append_assoc, tokensFrom_append, clause?_append hwhere, tokensFrom_append, hcondition,
    List.cons_append, clause?, if_pos rfl, Nat.zero_add]
  refine congrArg some (takeWhile_append_of_stop (fun t ht => ?_) fun t ht => ?_)
  · simpa using hinside t ht
  · simpa using htail _ t ht

/-- **The condition that a text states is that of its filters.** -/
theorem Statement.ofText?_of_pieces {s : Statement} (hs : Spaced s.pieces)
    {front tail : List Piece} {f : Filter} {fs : List Filter}
    (hpieces : s.pieces = front ++ Filter.condition (f :: fs) ++ tail)
    (hfront : Word.whereWord ∉ words front) (htail : Continues tail)
    (hf : ∀ g ∈ f :: fs, g.HasParts) :
    Condition.ofText? s.text s.values = some (Condition.chain .and f.tree (fs.map Filter.tree)) := by
  have hlex : lex s.text.toList = some (tokensFrom 0 s.pieces) := by
    rw [Statement.text, String.toList_ofList, lex_textFrom hs]
  have hsupplied : Supplied s.values (boundValues front).length
      ((clause [.and]).intercalate ((f :: fs).map Filter.pieces)) := by
    refine ⟨boundValues tail, ?_⟩
    rw [Statement.values, hpieces, boundValues_append, boundValues_append, List.append_assoc,
      List.drop_left, Filter.condition, boundValues_append, boundValues_clause, List.nil_append]
    exact List.cons_ne_nil _ _
  have hclause := Piece.clause?_tokensFrom f fs hfront htail
  rw [← hpieces] at hclause
  have hreads : ∀ depth, expression s.values (depth + 2) (tokensFrom (boundValues front).length
      ((clause [.and]).intercalate ((f :: fs).map Filter.pieces))) =
        some (Condition.chain .and f.tree (fs.map Filter.tree), []) := by
    intro depth
    have hall : Reads (expression s.values (depth + 2)) _ _ _ := Filter.reads_all hf hsupplied
    simpa using hall [] (by simp)
  -- There is a token to read, so that the depth allowed is that of a parenthesis at least.
  obtain ⟨t, tokens, htokens⟩ : ∃ t tokens, tokensFrom (boundValues front).length
      ((clause [.and]).intercalate ((f :: fs).map Filter.pieces)) = t :: tokens := by
    refine List.exists_cons_of_ne_nil fun hnil => ?_
    have hread := hreads 0
    have hnone : expression s.values 2 [] = none := rfl
    rw [hnil, hnone] at hread
    cases hread
  rw [htokens] at hclause hreads
  rw [Condition.ofText?, hlex]
  simp [hclause, hreads tokens.length]

/-! ## Statements with a condition -/

theorem Piece.continues_nil : Continues [] := fun _ _ h => nomatch h

theorem Piece.continues_clause {w : Word} (hw : w.staysInside = false) (ws : List Word)
    (xs : List Piece) : Continues (clause (w :: ws) ++ xs) := by
  intro n t ht
  have htokens : (tokensFrom n (clause (w :: ws) ++ xs)).head? = some (.word w.text.toList) := by
    cases ws <;> rfl
  rw [htokens] at ht
  cases ht
  simpa [Word.staysInside] using hw

theorem Piece.Continues.append {xs ys : List Piece} (hx : Continues xs) (hy : Continues ys) :
    Continues (xs ++ ys) := by
  intro n t ht
  rw [tokensFrom_append] at ht
  cases hxs : tokensFrom n xs with
  | nil =>
    rw [hxs] at ht
    exact hy _ t ht
  | cons u us =>
    rw [hxs] at ht
    exact hx n t (hxs ▸ ht)

theorem Statement.continues_paging (q : Query) : Continues (paging q) := by
  unfold paging
  refine Continues.append ?_ ?_
  · split
    · exact continues_clause (by decide) [] _
    · split_ifs
      · exact continues_nil
      · exact continues_clause (by decide) [] _
  · split
    · exact continues_clause (by decide) [] _
    · exact continues_nil

theorem Statement.continues_ordering (terms : List OrderTerm) : Continues (ordering terms) := by
  cases terms with
  | nil => exact continues_nil
  | cons t terms => exact continues_clause (by decide) [.by] _

theorem Statement.continues_giveBack (columns : Option ColumnList) :
    Continues (giveBack columns) := by
  cases columns with
  | none => exact continues_nil
  | some columns => exact continues_clause (by decide) [] _

/-- The pieces around the condition of some filters. -/
def Piece.Surrounds (filters : List Filter) (pieces : List Piece) : Prop :=
  ∃ front tail, pieces = front ++ Filter.condition filters ++ tail ∧
    Word.whereWord ∉ words front ∧ Continues tail

theorem Compiled.surrounds {safety : Safety} {q : Query} {pieces : List Piece}
    (h : Compiled safety q pieces) (hq : q.conditions ≠ []) : Surrounds q.conditions pieces := by
  cases h with
  | @select text schema table columns hop =>
    have hconditions : q.conditions = q.filters := by simp [Query.conditions, hop]
    rw [hconditions]
    refine ⟨_, Statement.ordering q.order ++ Statement.paging q, List.append_assoc _ _ _, ?_, ?_⟩
    · simp
    · exact (Statement.continues_ordering _).append (Statement.continues_paging q)
  | rpc hop | insert hop | upsert hop => exact absurd (by simp [Query.conditions, hop]) hq
  | @update texts schema table pairs returning hop =>
    have hconditions : q.conditions = q.filters := by simp [Query.conditions, hop]
    rw [hconditions]
    exact ⟨_, _, rfl, by simp, Statement.continues_giveBack returning⟩
  | @delete schema table returning hop =>
    have hconditions : q.conditions = q.filters := by simp [Query.conditions, hop]
    rw [hconditions]
    exact ⟨_, _, rfl, by simp, Statement.continues_giveBack returning⟩

theorem Counted.surrounds {q : Query} {mode : CountMode} {pieces : List Piece}
    (h : Counted q mode pieces) : Surrounds q.filters pieces := by
  have hfront : Word.whereWord ∉ words (Statement.countFront mode) := by cases mode <;> decide
  cases h with
  | select => exact ⟨_, [], (List.append_nil _).symm, by simp [hfront], continues_nil⟩
  | rpc => exact ⟨_, [], (List.append_nil _).symm, by simp [hfront], continues_nil⟩

/-- Where a condition stands in the pieces of a statement, its text states what the filters stand
for together. -/
theorem Statement.condition_of_surrounds {s : Statement} (hs : Spaced s.pieces)
    {filters : List Filter} (hne : filters ≠ []) (hf : ∀ f ∈ filters, f.Built)
    (h : Surrounds filters s.pieces) :
    ∃ c, Condition.ofText? s.text s.values = some c ∧
      ∀ I, c.truth I = Filter.meaningOfAll I filters := by
  obtain ⟨front, tail, hpieces, hfront, htail⟩ := h
  cases filters with
  | nil => exact absurd rfl hne
  | cons f fs =>
    refine ⟨_, ofText?_of_pieces hs hpieces hfront htail
      (fun g hg => Filter.hasParts_of_built (hf g hg)), fun I => ?_⟩
    rw [Condition.truth_chain_and, Filter.meaningOfAll, List.map_cons, List.map_cons,
      Filter.truth_tree, List.map_map]
    exact congrArg (fun ts => Truth.all (_ :: ts)) (List.map_congr_left fun g _ => g.truth_tree I)

/-- **The condition of a statement means what the filters of its query stand for together**,
however tests are interpreted: in every statement of the query that has a condition, and in every
one that counts its rows. -/
theorem condition_means_filters (safety : Safety) (q : Query) (hq : ∀ f ∈ q.filters, f.Built) :
    (∀ s, Statement.compile safety q = .ok s → q.conditions ≠ [] →
      ∃ c, Condition.ofText? s.text s.values = some c ∧
        ∀ I, c.truth I = Filter.meaningOfAll I q.conditions) ∧
    ∀ mode s, Statement.compileCount safety q mode = .ok s → q.filters ≠ [] →
      ∃ c, Condition.ofText? s.text s.values = some c ∧
        ∀ I, c.truth I = Filter.meaningOfAll I q.filters := by
  constructor
  · intro s h hne
    have hs := compiled_of_compile h
    have hconditions : ∀ f ∈ q.conditions, f.Built := by
      intro f hf
      refine hq f ?_
      unfold Query.conditions at hf
      split at hf
      · exact hf
      · exact hf
      · exact hf
      all_goals cases hf
    exact Statement.condition_of_surrounds hs.spaced hne hconditions (hs.surrounds hne)
  · intro mode s h hne
    have hs := counted_of_compileCount h
    exact Statement.condition_of_surrounds hs.spaced hne hq hs.surrounds

/-- A deletion under an alternative and a negation. -/
def Query.purge : Query :=
  { schema := "public", table := "users", operation := .delete,
    filters := [
      .any [⟨Statement.countColumn, .eq, .int 0⟩, ⟨Statement.countColumn, .gt, .int 9⟩],
      .not ⟨Statement.countColumn, .eq, .int 5⟩] }

/-- The alternative does not swallow the negation behind it. -/
theorem condition_means_filters_of_purge :
    ∃ s c, Statement.compile {} Query.purge = .ok s ∧ Condition.ofText? s.text s.values = some c ∧
      ∀ I, c.truth I = ((I (.compare .eq) "count" (.int 0)).or
        (I (.compare .gt) "count" (.int 9))).and (I (.compare .eq) "count" (.int 5)).not := by
  obtain ⟨s, hs⟩ : ∃ s, Statement.compile {} Query.purge = .ok s := ⟨_, rfl⟩
  have hbuilt : ∀ f ∈ Query.purge.filters, f.Built := by
    intro f hf
    simp only [Query.purge, List.mem_cons, List.not_mem_nil, or_false] at hf
    rcases hf with rfl | rfl
    · have hany : Filter.ofAlternatives [(.eq, "count", .int 0), (.gt, "count", .int 9)] =
          .ok (.any [⟨Statement.countColumn, .eq, .int 0⟩, ⟨Statement.countColumn, .gt, .int 9⟩]) :=
        rfl
      exact .alternatives hany
    · have hnot : Filter.ofNegation "count" .eq (.int 5) =
          .ok (.not ⟨Statement.countColumn, .eq, .int 5⟩) := rfl
      exact .negation hnot
  obtain ⟨c, hc, htruth⟩ := (condition_means_filters {} Query.purge hbuilt).1 s hs
    (List.cons_ne_nil _ _)
  refine ⟨s, c, hs, hc, fun I => ?_⟩
  rw [htruth]
  simp [Filter.meaningOfAll, Filter.meaning, Filter.outcome, Query.conditions, Query.purge,
    Truth.all, Truth.any, Statement.countColumn]

end QueryClient
