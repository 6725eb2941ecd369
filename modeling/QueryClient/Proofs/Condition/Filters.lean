/-
  Filters are read back from the condition that is written for them.

  * `Condition.Reads` holds of a reader and of tokens that it reads in full, whatever stands behind
    them, if that does not go on with an operator that binds as strongly;
  * `Filter.tree` is the condition that is read for a filter, and `Filter.truth_tree` says that it
    means what the filter stands for;
  * `Filter.reads_pieces` and `Filter.reads_all`: this condition is read, for one filter and for
    all filters of a statement.
-/
import QueryClient.Proofs.Condition.Grammar
import QueryClient.Proofs.Statement.Numbering

namespace QueryClient

open Token Piece

/-! ## Places -/

/-- From place `n` on, the values begin with those that the pieces bind. -/
def Piece.Supplied (values : List Value) (n : ℕ) (pieces : List Piece) : Prop :=
  boundValues pieces <+: values.drop n

namespace Piece.Supplied

variable {values : List Value} {n : ℕ} {xs ys : List Piece}

theorem append (h : Supplied values n (xs ++ ys)) :
    Supplied values n xs ∧ Supplied values (n + (boundValues xs).length) ys := by
  unfold Supplied at h ⊢
  rw [boundValues_append] at h
  obtain ⟨more, hmore⟩ := h
  have hdrop : values.drop (n + (boundValues xs).length) = boundValues ys ++ more := by
    rw [← List.drop_drop, ← hmore, List.append_assoc, List.drop_left]
  exact ⟨⟨boundValues ys ++ more, by rw [← hmore, List.append_assoc]⟩, ⟨more, hdrop.symm⟩⟩

theorem place? {v : Value} (h : Supplied values n (bind v :: xs)) :
    Token.place? values (.parameter (Nat.toDigits 10 (n + 1))) = some v := by
  obtain ⟨more, hmore⟩ := h
  have hn : values[n]? = some v := by
    rw [← List.head?_drop, ← hmore]
    rfl
  simp [Token.place?, Nat.ofDigitChars_ten_toDigits, hn]

end Piece.Supplied

namespace Condition

/-! ## What is read in full -/

/-- The tokens are read as `a`, whatever stands behind them, unless it goes on with an operator. -/
def Reads {α : Type} (r : Reader α) (tokens : List Token) (a : α) (operators : List Token) : Prop :=
  ∀ rest, (∀ t ∈ rest.head?, t ∉ operators) → r (tokens ++ rest) = some (a, rest)

section
variable {operator : Token} {join : Condition → Condition → Condition}
  {operand : Reader Condition} {tokens tokens' rest : List Token} {c d : Condition}
  {operators : List Token} {fuel : ℕ}

theorem isPrefixOf?_singleton_eq_none (h : ∀ t ∈ rest.head?, t ≠ operator) :
    [operator].isPrefixOf? rest = none := by
  cases rest with
  | nil => rfl
  | cons t rest =>
    have ht : (operator == t) = false := by simpa using Ne.symm (h t rfl)
    simp [List.isPrefixOf?, ht]

theorem joinedWithin_last (h : Reads operand tokens c operators)
    (hrest : ∀ t ∈ rest.head?, t ∉ operator :: operators) :
    joinedWithin operator join operand (fuel + 1) (tokens ++ rest) = some (c, rest) := by
  have hoperand := h rest fun t ht hmem => hrest t ht (List.mem_cons_of_mem _ hmem)
  have hnone : [operator].isPrefixOf? rest = none :=
    isPrefixOf?_singleton_eq_none fun t ht he => hrest t ht (he ▸ List.mem_cons_self)
  rw [joinedWithin, hoperand]
  simp [hnone]

theorem joinedWithin_cons (h : Reads operand tokens c operators) (hop : operator ∉ operators)
    (htail : joinedWithin operator join operand fuel tokens' = some (d, rest)) :
    joinedWithin operator join operand (fuel + 1) (tokens ++ operator :: tokens') =
      some (join c d, rest) := by
  have hoperand := h (operator :: tokens') (by simpa using hop)
  rw [joinedWithin, hoperand]
  simp [List.isPrefixOf?, htail]

/-- What a reader reads in full stays so under negations that are not there. -/
theorem reads_negated {inner : Reader Condition} (h : Reads inner tokens c operators)
    (hne : ∀ t ∈ tokens.head?, t ≠ keyword "NOT") (hcons : tokens ≠ []) :
    Reads (negated inner) tokens c operators := by
  intro rest hrest
  cases tokens with
  | nil => exact absurd rfl hcons
  | cons t tokens =>
    rw [List.cons_append, negated, if_neg (hne t rfl)]
    exact h rest hrest

theorem reads_not {inner : Reader Condition} (h : Reads (negated inner) tokens c operators) :
    Reads (negated inner) (keyword "NOT" :: tokens) (.not c) operators := by
  intro rest hrest
  rw [List.cons_append, negated, if_pos rfl, h rest hrest]
  rfl

end

section
variable {values : List Value}

/-- Pieces that are read one by one are read in a row, with a word between them. -/
theorem reads_juncture {α : Type} (w : Word) (text : String)
    (tree : α → Condition) (hw : keyword text = .word w.text.toList)
    {join : Condition → Condition → Condition} {operand : Reader Condition}
    {operators : List Token} (hop : keyword text ∉ operators) {pieces : α → List Piece}
    {x : α} {xs : List α} {n : ℕ}
    (h : ∀ y ∈ x :: xs, ∀ k, Supplied values k (pieces y) →
      Reads operand (tokensFrom k (pieces y)) (tree y) operators)
    (hs : Supplied values n ((clause [w]).intercalate ((x :: xs).map pieces))) :
    Reads (joined (keyword text) join operand)
      (tokensFrom n ((clause [w]).intercalate ((x :: xs).map pieces)))
      (chain join (tree x) (xs.map tree)) (keyword text :: operators) := by
  intro rest hrest
  -- The fuel is the number of all tokens; what counts is that it covers those in front.
  suffices hfuel : ∀ fuel,
      (tokensFrom n ((clause [w]).intercalate ((x :: xs).map pieces))).length ≤ fuel →
      joinedWithin (keyword text) join operand (fuel + 1)
        (tokensFrom n ((clause [w]).intercalate ((x :: xs).map pieces)) ++ rest) =
          some (chain join (tree x) (xs.map tree), rest) by
    exact hfuel _ (by simp)
  induction xs generalizing x n with
  | nil =>
    intro fuel _
    rw [List.map_singleton, List.intercalate_singleton] at hs ⊢
    exact joinedWithin_last (h x List.mem_cons_self n hs) hrest
  | cons y ys ih =>
    intro fuel hfuel
    have hsplit : (clause [w]).intercalate ((x :: y :: ys).map pieces) =
        pieces x ++ (clause [w] ++ (clause [w]).intercalate ((y :: ys).map pieces)) := by
      rw [List.map_cons, List.map_cons, List.intercalate_cons_cons, List.append_assoc]
    have hword : ∀ (k : ℕ) (zs : List Piece),
        tokensFrom k (clause [w] ++ zs) = keyword text :: tokensFrom k zs := by
      intro k zs
      rw [hw]
      rfl
    rw [hsplit] at hs hfuel ⊢
    rw [tokensFrom_append, hword] at hfuel ⊢
    obtain ⟨hx, hys⟩ := hs.append
    have hys' : Supplied values (n + (boundValues (pieces x)).length)
        ((clause [w]).intercalate ((y :: ys).map pieces)) := by simpa using hys.append.2
    have hlength : 1 ≤ fuel := by
      simp only [List.length_append, List.length_cons] at hfuel
      omega
    obtain ⟨fuel, rfl⟩ := Nat.exists_eq_add_of_le' hlength
    have htail := ih (fun z hz => h z (List.mem_cons_of_mem _ hz)) hys' fuel (by
      simp only [List.length_append, List.length_cons] at hfuel
      omega)
    rw [List.append_assoc, List.cons_append]
    exact joinedWithin_cons (h x List.mem_cons_self n hx) hop htail

/-! ## Predicates -/

/-- A column compared with a value is read as the test that stands for the operator. -/
theorem reads_compared {column : Ident} {op : List Piece} {v : Value} {t : Test} {n : ℕ}
    (hb : boundValues op = [])
    (hop : ∀ rest, oneOf memberships (tokensFrom n op ++ rest) = none ∧
      oneOf tests (tokensFrom n op ++ rest) = some (t, rest))
    (hs : Supplied values n (compared column op v)) :
    Reads (predicate values) (tokensFrom n (compared column op v)) (.test t column.name v) [] := by
  intro rest _
  have htokens : tokensFrom n (compared column op v) =
      .name column.name.toList :: (tokensFrom n op ++ [.parameter (Nat.toDigits 10 (n + 1))]) := by
    have happend := tokensFrom_append op [space, bind v] n
    rw [hb] at happend
    exact congrArg _ happend
  have hplace : Supplied values n [bind v] := by
    simpa [Supplied, hb] using hs
  obtain ⟨hmember, htest⟩ := hop (.parameter (Nat.toDigits 10 (n + 1)) :: rest)
  rw [htokens, List.cons_append, List.append_assoc, List.singleton_append, predicate, ofColumn,
    hmember, htest]
  simp [value, hplace.place?]

theorem reads_comparison {c : Comparison} {n : ℕ} (hs : Supplied values n c.pieces) :
    Reads (predicate values) (tokensFrom n c.pieces)
      (.test (.compare c.op) c.column.name c.value) [] := by
  refine reads_compared rfl (fun rest => ?_) hs
  cases c.op <;> exact ⟨rfl, rfl⟩

theorem tokensFrom_inParens (xs : List Piece) (n : ℕ) :
    tokensFrom n (inParens xs) = mark "(" :: (tokensFrom n xs ++ [mark ")"]) :=
  congrArg _ (tokensFrom_append xs [symbol .closing] n)

theorem tokensFrom_clause_append (words : List Word) (xs : List Piece) (n : ℕ) :
    tokensFrom n (clause words ++ xs) = tokensFrom n (clause words) ++ tokensFrom n xs := by
  rw [tokensFrom_append, boundValues_clause, List.length_nil, Nat.add_zero]

theorem valueList_binds {v : Value} {vs : List Value} {n : ℕ} {rest : List Token}
    (hs : Supplied values n (binds (v :: vs))) :
    valueList values (tokensFrom n (binds (v :: vs)) ++ mark ")" :: rest) =
      some (v :: vs, rest) := by
  induction vs generalizing v n with
  | nil =>
    have htokens : tokensFrom n (binds [v]) = [.parameter (Nat.toDigits 10 (n + 1))] := rfl
    rw [htokens, List.singleton_append, valueList, Supplied.place? hs]
    rfl
  | cons w vs ih =>
    have hsplit : binds (v :: w :: vs) = [bind v, symbol .comma, space] ++ binds (w :: vs) := rfl
    rw [hsplit] at hs ⊢
    have htokens : tokensFrom n ([bind v, symbol .comma, space] ++ binds (w :: vs)) =
        .parameter (Nat.toDigits 10 (n + 1)) :: mark "," :: tokensFrom (n + 1) (binds (w :: vs)) :=
      rfl
    have htail : Supplied values (n + 1) (binds (w :: vs)) := hs.append.2
    rw [htokens, List.cons_append, List.cons_append, valueList, Supplied.place? hs,
      Option.bind_eq_bind, Option.bind_some, if_neg (by decide), if_pos rfl, ih htail]
    rfl

theorem reads_member {column : Ident} {v : Value} {vs : List Value} {negated : Bool} {n : ℕ}
    (hs : Supplied values n (Filter.member column (v :: vs) negated).pieces) :
    Reads (predicate values) (tokensFrom n (Filter.member column (v :: vs) negated).pieces)
      (.member column.name (v :: vs) negated) [] := by
  intro rest _
  have hbinds : Supplied values n (binds (v :: vs)) := by
    simpa [Supplied, Filter.values] using hs
  have htokens : tokensFrom n (Filter.member column (v :: vs) negated).pieces =
      .name column.name.toList ::
        (tokensFrom n (clause (if negated then [.not, .inWord] else [.inWord])) ++
          mark "(" :: (tokensFrom n (binds (v :: vs)) ++ [mark ")"])) := by
    rw [← tokensFrom_inParens, ← tokensFrom_clause_append]
    rfl
  have hin : ∀ tail, oneOf memberships
      (tokensFrom n (clause (if negated then [.not, .inWord] else [.inWord])) ++ mark "(" :: tail) =
        some (negated, tail) := by
    cases negated <;> exact fun _ => rfl
  rw [htokens, List.cons_append, List.append_assoc, List.cons_append, List.append_assoc,
    List.singleton_append, predicate, ofColumn, hin]
  simp [valueList_binds hbinds]

/-- A configuration is read where one is written. -/
theorem config_tokensFrom (i : Option Ident) (n : ℕ) {tokens : List Token}
    (h : ∀ t ∈ tokens.head?, ∀ cs, t ≠ .literal cs) :
    config (tokensFrom n (Filter.configPieces i) ++ tokens) = (i.map Ident.name, tokens) := by
  cases i with
  | none =>
    cases tokens with
    | nil => rfl
    | cons t tokens =>
      cases t with
      | literal cs => exact absurd rfl (h _ rfl cs)
      | _ => rfl
  | some i =>
    have htokens : tokensFrom n (Filter.configPieces (some i)) =
        [.literal i.name.toList, mark ","] := rfl
    simp [htokens, config]

theorem reads_search {column : Ident} {query : Value} {i : Option Ident} {mode : SearchMode} {n : ℕ}
    (hs : Supplied values n (Filter.search column query i mode).pieces) :
    Reads (predicate values) (tokensFrom n (Filter.search column query i mode).pieces)
      (.test (.search (i.map Ident.name) (i.map Ident.name) mode) column.name query) [] := by
  intro rest _
  have hplace : Supplied values n [bind query] := by simpa [Supplied, Filter.values] using hs
  have htokens : tokensFrom n (Filter.search column query i mode).pieces ++ rest =
      keyword "to_tsvector" :: mark "(" :: (tokensFrom n (Filter.configPieces i) ++
        .name column.name.toList :: mark ")" :: mark "@@" :: .word mode.word.text.toList ::
          mark "(" :: (tokensFrom n (Filter.configPieces i) ++
            .parameter (Nat.toDigits 10 (n + 1)) :: mark ")" :: rest)) := by
    cases i <;> rfl
  have hmode : ∀ tail, oneOf searches (.word mode.word.text.toList :: mark "(" :: tail) =
      some (mode, tail) := by
    cases mode <;> exact fun _ => rfl
  have hfront : ∀ tail, [keyword "to_tsvector", mark "("].isPrefixOf?
      (keyword "to_tsvector" :: mark "(" :: tail) = some tail := fun _ => rfl
  have hfound : ∀ tail, [mark ")", mark "@@"].isPrefixOf? (mark ")" :: mark "@@" :: tail) =
      some tail := fun _ => rfl
  have hclose : ∀ tail, [mark ")"].isPrefixOf? (mark ")" :: tail) = some tail := fun _ => rfl
  have hsearch : predicate values (tokensFrom n (Filter.search column query i mode).pieces ++ rest)
      = ofSearch values (tokensFrom n (Filter.configPieces i) ++
        .name column.name.toList :: mark ")" :: mark "@@" :: .word mode.word.text.toList ::
          mark "(" :: (tokensFrom n (Filter.configPieces i) ++
            .parameter (Nat.toDigits 10 (n + 1)) :: mark ")" :: rest)) := by
    rw [htokens]
    rfl
  rw [hsearch, ofSearch, config_tokensFrom i n (by simp)]
  dsimp only
  rw [hfound, Option.bind_eq_bind, Option.bind_some, hmode, Option.bind_eq_bind, Option.bind_some]
  dsimp only
  rw [config_tokensFrom i n (by simp)]
  simp [value, hplace.place?, hclose]

/-! ## Levels -/

/-- The tokens begin with one at which neither a parenthesis nor a negation is read. -/
def Plain (tokens : List Token) : Prop :=
  ∃ t rest, tokens = t :: rest ∧ t ≠ mark "(" ∧ t ≠ keyword "NOT"

variable {tokens : List Token} {c : Condition} {operators : List Token} {inner : Reader Condition}

theorem reads_operand (h : Reads (predicate values) tokens c []) (hp : Plain tokens) :
    Reads (negated (primary values inner)) tokens c [] := by
  obtain ⟨t, rest, rfl, hopen, hnot⟩ := hp
  refine reads_negated (fun tail htail => ?_) (by simpa using hnot) (List.cons_ne_nil _ _)
  rw [primary, isPrefixOf?_singleton_eq_none (by simpa using hopen)]
  exact h tail htail

theorem reads_group (h : Reads inner tokens c operators) (hclose : mark ")" ∉ operators) :
    Reads (negated (primary values inner)) (mark "(" :: (tokens ++ [mark ")"])) c [] := by
  refine reads_negated (fun tail _ => ?_) (by simp [mark, keyword]) (List.cons_ne_nil _ _)
  have hopen : [mark "("].isPrefixOf? (mark "(" :: (tokens ++ [mark ")"]) ++ tail) =
      some (tokens ++ mark ")" :: tail) := by simp [List.isPrefixOf?]
  have hend : [mark ")"].isPrefixOf? (mark ")" :: tail) = some tail := rfl
  rw [primary, hopen]
  simp [h (mark ")" :: tail) (by simpa using hclose), hend]

/-- An operand is a condition by itself. -/
theorem reads_alone {operator : Token} {join : Condition → Condition → Condition}
    {operand : Reader Condition} (h : Reads operand tokens c operators) :
    Reads (joined operator join operand) tokens c (operator :: operators) :=
  fun _ hrest => joinedWithin_last h hrest

end

end Condition

open Condition

/-! ## Filters -/

def Comparison.tree (c : Comparison) : Condition := .test (.compare c.op) c.column.name c.value

namespace Filter

/-- The condition that is read for a filter. -/
def tree : Filter → Condition
  | .compare c => c.tree
  | .pattern column op value => .test (.pattern op) column.name value
  | .is column value => .test .notDistinct column.name value
  | .member _ [] negated => .constant negated
  | .member column values negated => .member column.name values negated
  | .distinct column value => .test .distinct column.name value
  | .contain column op value => .test (.contain op) column.name value
  | .not c => .not c.tree
  | .search column query config mode =>
    .test (.search (config.map Ident.name) (config.map Ident.name) mode) column.name query
  | .all [] => .constant true
  | .all ((column, value) :: pairs) =>
    chain .and (Comparison.tree ⟨column, .eq, value⟩)
      (pairs.map fun (column, value) => Comparison.tree ⟨column, .eq, value⟩)
  | .any [] => .constant false
  | .any (c :: comparisons) => chain .or c.tree (comparisons.map Comparison.tree)

/-- **The condition of a filter means what the filter stands for.** -/
theorem truth_tree (I : Interpretation) (f : Filter) : f.tree.truth I = f.meaning I := by
  cases f with
  | member column values negated =>
    cases values with
    | nil => cases negated <;> rfl
    | cons v values => rfl
  | all pairs =>
    cases pairs with
    | nil => rfl
    | cons pair pairs =>
      rw [tree, truth_chain_and, meaning, List.map_cons, List.map_map]
      rfl
  | any comparisons =>
    cases comparisons with
    | nil => rfl
    | cons c comparisons =>
      rw [tree, truth_chain_or, meaning, List.map_cons, List.map_map]
      rfl
  | _ => rfl

theorem hasParts_of_map (make : Comparison → Filter) (hmake : ∀ c, (make c).HasParts)
    {parsed : Except Error Comparison} {f : Filter} (h : parsed.map make = .ok f) : f.HasParts := by
  cases parsed with
  | error e => cases h
  | ok c =>
    cases h
    exact hmake c

theorem hasParts_of_built {f : Filter} (h : f.Built) : f.HasParts := by
  cases h with
  | comparison h => exact hasParts_of_map .compare (fun _ => trivial) h
  | negation h => exact hasParts_of_map .not (fun _ => trivial) h
  | pattern h | list h | distinct h | containment h =>
    obtain ⟨column, -, h⟩ := bind_eq_ok.1 h
    cases h
    trivial
  | test h =>
    unfold ofTest at h
    split at h
    · obtain ⟨column, -, h⟩ := bind_eq_ok.1 h
      cases h
      trivial
    · obtain ⟨column, -, h⟩ := bind_eq_ok.1 h
      cases h
      trivial
    · cases h
  | search h =>
    obtain ⟨column, -, h⟩ := bind_eq_ok.1 h
    obtain ⟨config, -, h⟩ := bind_eq_ok.1 h
    cases h
    trivial
  | record h =>
    obtain ⟨pairs, -, h⟩ := bind_eq_ok.1 h
    split_ifs at h with hempty
    cases h
    simpa [HasParts] using hempty
  | alternatives h =>
    obtain ⟨comparisons, -, h⟩ := bind_eq_ok.1 h
    split_ifs at h with hempty
    cases h
    simpa [HasParts] using hempty

variable {values : List Value} {n depth : ℕ}

theorem plain_compared {column : Ident} {op : List Piece} {v : Value} :
    Plain (tokensFrom n (compared column op v)) :=
  ⟨_, _, rfl, Token.noConfusion, Token.noConfusion⟩

/-- A comparison is read back wherever an operand is. -/
theorem reads_compare {c : Comparison} (hs : Supplied values n c.pieces) :
    Reads (negated (primary values (expression values depth))) (tokensFrom n c.pieces) c.tree [] :=
  reads_operand (reads_comparison hs) plain_compared

theorem reads_negation {c : Comparison} (hs : Supplied values n (Filter.not c).pieces) :
    Reads (negated (primary values (expression values (depth + 1))))
      (tokensFrom n (Filter.not c).pieces) (.not c.tree) [] := by
  have hc : Supplied values n c.pieces := by simpa [Supplied, Filter.values] using hs
  have hinner : Reads (expression values (depth + 1)) (tokensFrom n c.pieces) c.tree
      [keyword "OR", keyword "AND"] := reads_alone (reads_alone (reads_compare hc))
  have htokens : tokensFrom n (Filter.not c).pieces =
      keyword "NOT" :: mark "(" :: (tokensFrom n c.pieces ++ [mark ")"]) := by
    rw [← tokensFrom_inParens]
    rfl
  rw [htokens]
  exact reads_not (reads_group hinner (by decide))

/-- A record is read back as the conjunction of its equalities. -/
theorem reads_record {pair : Ident × Value} {pairs : List (Ident × Value)}
    (hs : Supplied values n (Filter.all (pair :: pairs)).pieces) :
    Reads (negated (primary values (expression values (depth + 1))))
      (tokensFrom n (Filter.all (pair :: pairs)).pieces) (Filter.all (pair :: pairs)).tree [] := by
  have hparts : Supplied values n ((clause [.and]).intercalate ((pair :: pairs).map
      fun (column, value) => compared column [symbol .equal] value)) := by
    simpa [Supplied, pieces] using hs
  have hinner : Reads (expression values (depth + 1))
      (tokensFrom n ((clause [.and]).intercalate ((pair :: pairs).map
        fun (column, value) => compared column [symbol .equal] value)))
      (chain .and (Comparison.tree ⟨pair.1, .eq, pair.2⟩)
        (pairs.map fun (column, value) => Comparison.tree ⟨column, .eq, value⟩))
      [keyword "OR", keyword "AND"] :=
    reads_alone (reads_juncture .and "AND"
      (fun (column, value) => Comparison.tree ⟨column, .eq, value⟩) rfl List.not_mem_nil
      (fun y _ k hk => reads_compare (c := ⟨y.1, .eq, y.2⟩) hk) hparts)
  rw [pieces, tokensFrom_inParens]
  exact reads_group hinner (by decide)

/-- Alternatives are read back as their disjunction. -/
theorem reads_alternatives {c : Comparison} {comparisons : List Comparison}
    (hs : Supplied values n (Filter.any (c :: comparisons)).pieces) :
    Reads (negated (primary values (expression values (depth + 1))))
      (tokensFrom n (Filter.any (c :: comparisons)).pieces) (Filter.any (c :: comparisons)).tree
      [] := by
  have hparts : Supplied values n ((clause [.or]).intercalate
      ((c :: comparisons).map Comparison.pieces)) := by
    simpa [Supplied, pieces] using hs
  have hinner : Reads (expression values (depth + 1))
      (tokensFrom n ((clause [.or]).intercalate ((c :: comparisons).map Comparison.pieces)))
      (chain .or c.tree (comparisons.map Comparison.tree)) [keyword "OR", keyword "AND"] :=
    reads_juncture .or "OR" Comparison.tree rfl (by decide)
      (fun y _ k hk => reads_alone (reads_compare hk)) hparts
  rw [pieces, tokensFrom_inParens]
  exact reads_group hinner (by decide)

/-- **A filter is read back as its condition**, whatever stands behind it. -/
theorem reads_pieces {f : Filter} (hf : f.HasParts) (hs : Supplied values n f.pieces) :
    Reads (negated (primary values (expression values (depth + 1)))) (tokensFrom n f.pieces)
      f.tree [] := by
  cases f with
  | compare c => exact reads_compare hs
  | pattern column op v =>
    refine reads_operand (reads_compared rfl (fun rest => ?_) hs) plain_compared
    cases op <;> exact ⟨rfl, rfl⟩
  | is column v =>
    exact reads_operand (reads_compared (by simp) (fun _ => ⟨rfl, rfl⟩) hs) plain_compared
  | member column vs negated =>
    cases vs with
    | nil =>
      refine reads_operand (fun rest _ => ?_) ?_
      · cases negated <;> rfl
      · exact ⟨_, _, rfl, Token.noConfusion, by cases negated <;> decide⟩
    | cons v vs =>
      exact reads_operand (reads_member hs) ⟨_, _, rfl, Token.noConfusion, Token.noConfusion⟩
  | distinct column v =>
    exact reads_operand (reads_compared (by simp) (fun _ => ⟨rfl, rfl⟩) hs) plain_compared
  | contain column op v =>
    refine reads_operand (reads_compared rfl (fun rest => ?_) hs) plain_compared
    cases op <;> exact ⟨rfl, rfl⟩
  | not c => exact reads_negation hs
  | search column query config mode =>
    refine reads_operand (reads_search hs) ?_
    cases config <;> exact ⟨_, _, rfl, Token.noConfusion, by decide⟩
  | all pairs =>
    cases pairs with
    | nil => exact absurd rfl hf
    | cons pair pairs => exact reads_record hs
  | any comparisons =>
    cases comparisons with
    | nil => exact absurd rfl hf
    | cons c comparisons => exact reads_alternatives hs

/-- **Filters in a row are read back** as the conjunction of their conditions. -/
theorem reads_all {f : Filter} {fs : List Filter} (hf : ∀ g ∈ f :: fs, g.HasParts)
    (hs : Supplied values n ((clause [.and]).intercalate ((f :: fs).map pieces))) :
    Reads (expression values (depth + 2))
      (tokensFrom n ((clause [.and]).intercalate ((f :: fs).map pieces)))
      (chain .and f.tree (fs.map tree)) [keyword "OR", keyword "AND"] :=
  reads_alone (reads_juncture .and "AND" tree rfl List.not_mem_nil
    (fun g hg _ hk => reads_pieces (hf g hg) hk) hs)

end Filter

end QueryClient
