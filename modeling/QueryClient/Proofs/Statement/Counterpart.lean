/-
  The statement of a query beside the one that counts its rows.

  * `exists_compileCount_iff`: which queries have a counting statement;
  * `SameCondition` holds of the two statements of a selection that state the same condition with
    the same values;
  * `counted_iff_lists_fit`: a query that reads and has a statement has one that counts exactly if
    its lists are not too long, which only a selection says by having a statement.
-/
import QueryClient.Proofs.Condition.Clause
import QueryClient.Proofs.Statement.Acceptance

namespace QueryClient

open Piece Statement

variable {safety : Safety} {q : Query} {mode : CountMode}

/-! ## Counting statements -/

theorem checkError_eq_ok_iff : checkError q = .ok () ↔ q.error = none := by
  unfold checkError
  split
  · next e he => exact ⟨fun h => (nomatch h), fun h => (nomatch he.symm.trans h)⟩
  · next he => exact ⟨fun _ => he, fun _ => rfl⟩

/-- **The queries whose rows can be counted.** -/
theorem exists_compileCount_iff : (∃ n, compileCount safety q mode = .ok n) ↔
    q.error = none ∧ IsName q.schema ∧ (q.operation.isQuery ∧ IsName q.target) ∧
      ListsFit safety q.filters := by
  have herror : ∀ {α : Type} (e : Error), (∃ a : α, Except.error e = .ok a) ↔ False :=
    fun e => iff_false_intro fun ⟨_, h⟩ => nomatch h
  unfold compileCount Query.target
  cases q.operation <;>
    simp only [exists_bind_eq_ok, exists_pure_eq_ok, exists_and_right, exists_unit_eq_ok, herror,
      true_and, and_true, false_and, and_false, checkError_eq_ok_iff, Filter.checkAll_eq_ok_iff,
      Ident.exists_parse_iff, Operation.isQuery, Bool.false_eq_true, exists_false]

theorem validates_compileCount (h : q.error = none) : Validates (compileCount safety q mode) := by
  have hlists := Filter.validates_checkAll safety q.filters
  unfold compileCount
  rw [checkError_eq_ok_iff.2 h]
  refine (Ident.validates_parse .schema q.schema).bind fun schema _ => ?_
  cases q.operation with
  | select columns =>
    refine (Ident.validates_parse .table q.table).bind fun table _ => ?_
    exact hlists.bind fun _ _ => .ok _
  | rpc function args =>
    refine (Ident.validates_parse .function function).bind fun function _ => ?_
    exact hlists.bind fun _ _ => .ok _
  | _ => exact .error _

/-! ## Conditions in texts -/

theorem Piece.textFrom_append (xs ys : List Piece) (n : ℕ) :
    textFrom n (xs ++ ys) = textFrom n xs ++ textFrom (n + (boundValues xs).length) ys := by
  induction xs generalizing n with
  | nil => rfl
  | cons p xs ih =>
    rw [List.cons_append, textFrom, textFrom, ih, List.append_assoc]
    cases hp : p.value? with
    | none => simp [boundValues, hp]
    | some v => simp [boundValues, hp, Nat.add_comm, Nat.add_left_comm]

/-- The text of the condition of some filters where nothing before it is bound. -/
def Filter.conditionText (filters : List Filter) : List Char :=
  textFrom 0 (Filter.condition filters)

/-- The tokens of the condition that a text states, if it states one. -/
def Token.conditionOf? (text : String) : Option (List Token) :=
  (lex text.toList).bind clause?

theorem Piece.where_notMem_tokensFrom {pieces : List Piece} (h : Word.whereWord ∉ words pieces)
    (n : ℕ) : Token.keyword "WHERE" ∉ tokensFrom n pieces := by
  intro hmem
  obtain ⟨w, hw, htext⟩ := mem_words_of_keyword_mem hmem
  exact Word.text_ne_where (fun he => h (he ▸ hw)) htext

/-- What a text states is what stands in the place of the condition. -/
theorem Statement.conditionOf?_of_pieces {s : Statement} (hs : Spaced s.pieces)
    {filters : List Filter} {front tail : List Piece}
    (hpieces : s.pieces = front ++ Filter.condition filters ++ tail)
    (hfront : Word.whereWord ∉ words front) (hbinds : boundValues front = [])
    (htail : Continues tail) (hrest : Word.whereWord ∉ words tail) :
    Token.conditionOf? s.text = if filters = [] then none else
      some (tokensFrom 0 ((clause [.and]).intercalate (filters.map Filter.pieces))) := by
  have hlex : Token.lex s.text.toList = some (tokensFrom 0 s.pieces) := by
    rw [Statement.text, String.toList_ofList, lex_textFrom hs]
  rw [Token.conditionOf?, hlex, Option.bind_some, hpieces]
  cases filters with
  | nil =>
    have hnone : Word.whereWord ∉ words (front ++ Filter.condition [] ++ tail) := by
      simp [Filter.condition, hfront, hrest]
    rw [if_pos rfl, ← List.append_nil (tokensFrom _ _),
      Token.clause?_append (where_notMem_tokensFrom hnone 0)]
    rfl
  | cons f fs =>
    rw [if_neg (List.cons_ne_nil f fs), clause?_tokensFrom f fs hfront htail, hbinds]
    rfl

theorem Statement.where_notMem_ordering (terms : List OrderTerm) :
    Word.whereWord ∉ words (ordering terms) := by
  have hterm : ∀ o : Order, Word.whereWord ∉ words o.pieces := by
    rintro ⟨direction, nulls⟩
    cases direction <;> cases nulls <;> decide
  intro h
  cases terms with
  | nil => cases h
  | cons t terms =>
    have hordering : ordering (t :: terms) = clause [.order, .by] ++
      commas ((t :: terms).map fun t => name t.column :: space :: t.order.pieces) := rfl
    rw [hordering, words_append, words_clause, List.mem_append] at h
    rcases h with h | h
    · exact absurd h (by decide)
    · rcases mem_words_intercalate h with h | ⟨item, hitem, h⟩
      · cases h
      · obtain ⟨t, -, rfl⟩ := List.mem_map.1 hitem
        exact hterm t.order h

theorem Statement.where_notMem_paging (q : Query) : Word.whereWord ∉ words (paging q) := by
  unfold paging
  cases q.limit <;> cases q.offset <;> cases q.shape <;> simp

/-- The two statements of a selection have the same text as their condition and bind the same
values in it.  The selection may bind a limit after that. -/
structure SameCondition (q : Query) (s n : Statement) : Prop where
  text : ∃ front tail front', s.text.toList = front ++ Filter.conditionText q.filters ++ tail ∧
    n.text.toList = front' ++ Filter.conditionText q.filters
  stated : Token.conditionOf? s.text = Token.conditionOf? n.text
  values : s.values = q.filters.flatMap Filter.values ++ q.impliedLimit
  counted : n.values = q.filters.flatMap Filter.values

theorem sameCondition {columns : String} {s n : Statement} (hq : q.operation = .select columns)
    (hs : compile safety q = .ok s) (hn : compileCount safety q mode = .ok n) :
    SameCondition q s n := by
  have hcompiled := compiled_of_compile hs
  have hcounted := counted_of_compileCount hn
  have hinputs : q.operation.inputs = [] := by rw [hq]; rfl
  have hconditions : q.conditions = q.filters := by rw [Query.conditions, hq]
  have hvalues : s.values = q.filters.flatMap Filter.values ++ q.impliedLimit := by
    rw [Statement.values, hcompiled.boundValues_eq, hinputs, hconditions, List.nil_append]
  have hcountedValues : n.values = q.filters.flatMap Filter.values := by
    rw [Statement.values, hcounted.boundValues_eq, hinputs, List.nil_append]
  obtain ⟨front, tail, hpieces, hfront, hbinds, htail, hrest⟩ : ∃ front tail,
      s.pieces = front ++ Filter.condition q.filters ++ tail ∧ Word.whereWord ∉ words front ∧
      boundValues front = [] ∧ Continues tail ∧ Word.whereWord ∉ words tail := by
    generalize s.pieces = pieces at hcompiled
    cases hcompiled with
    | select =>
      refine ⟨_, ordering q.order ++ paging q, List.append_assoc _ _ _, by simp, by simp,
        (continues_ordering _).append (continues_paging q), ?_⟩
      rw [words_append, List.mem_append, not_or]
      exact ⟨where_notMem_ordering q.order, where_notMem_paging q⟩
    | rpc hop | insert hop | upsert hop | update hop | delete hop => cases hq.symm.trans hop
  obtain ⟨front', hpieces', hfront', hbinds'⟩ : ∃ front', n.pieces = front' ++
      Filter.condition q.filters ∧ Word.whereWord ∉ words front' ∧ boundValues front' = [] := by
    have hfront : Word.whereWord ∉ words (countFront mode) := by cases mode <;> decide
    generalize n.pieces = pieces at hcounted
    cases hcounted with
    | select => exact ⟨_, rfl, by simp [hfront], by simp⟩
    | rpc hop => cases hq.symm.trans hop
  refine ⟨⟨textFrom 0 front, textFrom (boundValues (front ++ Filter.condition q.filters)).length
    tail, textFrom 0 front', ?_, ?_⟩, ?_, hvalues, hcountedValues⟩
  · rw [Statement.text, String.toList_ofList, hpieces, textFrom_append, textFrom_append, hbinds,
      Nat.zero_add, Nat.zero_add]
    rfl
  · rw [Statement.text, String.toList_ofList, hpieces', textFrom_append, hbinds']
    rfl
  · have htailless : n.pieces = front' ++ Filter.condition q.filters ++ [] := by
      rw [List.append_nil, hpieces']
    rw [conditionOf?_of_pieces hcompiled.spaced hpieces hfront hbinds htail hrest,
      conditionOf?_of_pieces hcounted.spaced htailless hfront' hbinds' continues_nil
        List.not_mem_nil]

/-! ## Checked beforehand, or not -/

/-- **Where a query that reads has a statement, its rows can be counted exactly if no list of its
filters is too long**, and otherwise the counting statement is refused with an error of
validation.  A selection has no statement unless its lists fit, so that its rows can always be
counted, under the same condition; the filters of a call are only looked at for the counting. -/
theorem counted_iff_lists_fit {safety : Safety} {q : Query} {s : Statement}
    (hq : q.operation.isQuery) (hs : compile safety q = .ok s) (mode : CountMode) :
    ((∃ n, compileCount safety q mode = .ok n) ↔ ListsFit safety q.filters) ∧
    (∀ e, compileCount safety q mode = .error e → ∃ message, e = .validation message) ∧
    ∀ columns, q.operation = .select columns →
      ∃ n, compileCount safety q mode = .ok n ∧ SameCondition q s n := by
  have herror : q.error = none := by
    obtain ⟨⟨⟩, h, -⟩ := bind_eq_ok.1 hs
    exact checkError_eq_ok_iff.1 h
  have haccepted := (exists_compile_iff herror).1 ⟨s, hs⟩
  have hcounted : (∃ n, compileCount safety q mode = .ok n) ↔ ListsFit safety q.filters := by
    rw [exists_compileCount_iff]
    exact ⟨fun h => h.2.2.2, fun h => ⟨herror, haccepted.schema, ⟨hq, haccepted.target⟩, h⟩⟩
  refine ⟨hcounted, validates_compileCount herror, fun columns hop => ?_⟩
  have hconditions : q.conditions = q.filters := by rw [Query.conditions, hop]
  obtain ⟨n, hn⟩ := hcounted.2 (hconditions ▸ haccepted.lists)
  exact ⟨n, hn, sameCondition hop hs hn⟩

/-- One of the users with two numbers. -/
def Query.oneOfTwo : Query :=
  { schema := "public", table := "users", shape := .single,
    filters := [.member countColumn [.int 1, .int 2] false] }

theorem counted_of_oneOfTwo : ∃ s n, compile {} Query.oneOfTwo = .ok s ∧
    compileCount {} Query.oneOfTwo .planned = .ok n ∧ SameCondition Query.oneOfTwo s n := by
  obtain ⟨s, hs⟩ : ∃ s, compile {} Query.oneOfTwo = .ok s := ⟨_, rfl⟩
  obtain ⟨n, hn, hsame⟩ := (counted_iff_lists_fit rfl hs .planned).2.2 "*" rfl
  exact ⟨s, n, hs, hn, hsame⟩

/-- A function call with a list of two, for the counting of its rows. -/
def Query.topOfTwo : Query :=
  { Query.ofFunction "public" "top" [] with
    filters := [.member countColumn [.int 1, .int 2] false], count := some .exact }

/-- Its statement does not say that the list is too long; only the counting one does. -/
theorem oversized_list_of_call :
    (∃ s, compile { maxInElements := 1 } Query.topOfTwo = .ok s) ∧
      ∀ mode, ∃ message, compileCount { maxInElements := 1 } Query.topOfTwo mode =
        .error (.validation message) :=
  ⟨⟨_, rfl⟩, fun _ => ⟨_, rfl⟩⟩

end QueryClient
