/-
  Pieces that do not run into each other.

  A delimiter is a space, a parenthesis, a comma or a dot, and every word, name or number ends
  where a delimiter begins.  `Spaced` holds of pieces of which one out of two neighbours is a
  delimiter.

  * `Compiled.spaced` and `Counted.spaced`: the pieces of all statements are spaced;
  * `Spaced.break_after`: the text behind a piece that is no delimiter begins with one.
-/
import QueryClient.Proofs.Statement.Compiled
import Mathlib.Data.List.Chain

namespace QueryClient

namespace Piece

/-- A piece at which any other one ends. -/
def isDelimiter : Piece → Bool
  | .space | .symbol .opening | .symbol .closing | .symbol .comma | .symbol .dot => true
  | _ => false

/-- Of two neighbours one is a delimiter. -/
def Spaced (pieces : List Piece) : Prop :=
  pieces.IsChain fun p r => p.isDelimiter ∨ r.isDelimiter

/-- The first piece, if there is one, is a delimiter. -/
def Opens (pieces : List Piece) : Prop := ∀ p ∈ pieces.head?, p.isDelimiter

/-- The last piece, if there is one, is a delimiter. -/
def Closes (pieces : List Piece) : Prop := ∀ p ∈ pieces.getLast?, p.isDelimiter

/-! ## Spaced pieces in a row -/

theorem spaced_nil : Spaced [] := List.isChain_nil

theorem spaced_singleton (p : Piece) : Spaced [p] := List.isChain_singleton p

variable {xs ys : List Piece}

theorem Spaced.append_opens (hx : Spaced xs) (hy : Spaced ys) (ho : Opens ys) :
    Spaced (xs ++ ys) :=
  List.isChain_append.2 ⟨hx, hy, fun _ _ r hr => Or.inr (ho r hr)⟩

theorem Spaced.append_closes (hx : Spaced xs) (hy : Spaced ys) (hc : Closes xs) :
    Spaced (xs ++ ys) :=
  List.isChain_append.2 ⟨hx, hy, fun p hp _ _ => Or.inl (hc p hp)⟩

theorem closes_singleton {d : Piece} (hd : d.isDelimiter) : Closes [d] := by
  simpa [Closes] using hd

theorem Spaced.cons {d : Piece} (hd : d.isDelimiter) (hx : Spaced xs) : Spaced (d :: xs) :=
  Spaced.append_closes (spaced_singleton d) hx (closes_singleton hd)

theorem Spaced.cons_opens (p : Piece) (hx : Spaced xs) (ho : Opens xs) : Spaced (p :: xs) :=
  Spaced.append_opens (spaced_singleton p) hx ho

theorem opens_nil : Opens [] := by simp [Opens]

theorem opens_cons {d : Piece} (hd : d.isDelimiter) : Opens (d :: xs) := by
  simpa [Opens] using hd

theorem Opens.append (hx : Opens xs) (hy : Opens ys) : Opens (xs ++ ys) := by
  cases xs with
  | nil => exact hy
  | cons p xs => exact hx

theorem Closes.append (hy : Closes ys) (hne : ys ≠ []) (xs : List Piece) : Closes (xs ++ ys) := by
  intro p hp
  rw [List.getLast?_append_of_ne_nil _ hne] at hp
  exact hy p hp

theorem spaced_intercalate {sep : List Piece} (hne : sep ≠ []) (hs : Spaced sep) (ho : Opens sep)
    (hc : Closes sep) : ∀ {items : List (List Piece)}, (∀ item ∈ items, Spaced item) →
      Spaced (sep.intercalate items)
  | [], _ => spaced_nil
  | [item], h => by
    rw [List.intercalate_singleton]
    exact h item List.mem_cons_self
  | item :: item' :: items, h => by
    have hrest : Spaced (sep.intercalate (item' :: items)) :=
      spaced_intercalate hne hs ho hc fun i hi => h i (List.mem_cons_of_mem _ hi)
    rw [List.intercalate_cons_cons]
    exact ((h item List.mem_cons_self).append_opens hs ho).append_closes hrest (hc.append hne _)

theorem spaced_commas {items : List (List Piece)} (h : ∀ item ∈ items, Spaced item) :
    Spaced (commas items) := by
  have hspace : Closes [space] := closes_singleton rfl
  exact spaced_intercalate (List.cons_ne_nil _ _) ((spaced_singleton space).cons rfl)
    (opens_cons rfl) (hspace.append (List.cons_ne_nil _ _) [symbol .comma]) h

theorem spaced_names (columns : List Ident) : Spaced (names columns) := by
  refine spaced_commas fun item hi => ?_
  obtain ⟨c, -, rfl⟩ := List.mem_map.1 hi
  exact spaced_singleton _

theorem spaced_binds (values : List Value) : Spaced (binds values) := by
  refine spaced_commas fun item hi => ?_
  obtain ⟨v, -, rfl⟩ := List.mem_map.1 hi
  exact spaced_singleton _

theorem opens_inParens : Opens (inParens xs) := opens_cons rfl

theorem spaced_inParens (hx : Spaced xs) : Spaced (inParens xs) :=
  (hx.append_opens (spaced_singleton _) (opens_cons rfl)).cons rfl

theorem spaced_phrase (words : List Word) : Spaced (phrase words) := by
  unfold phrase
  induction words with
  | nil => exact spaced_nil
  | cons w words ih =>
    cases words with
    | nil => exact spaced_singleton _
    | cons w' words => exact (ih.cons rfl).cons_opens _ (opens_cons rfl)

theorem opens_clause (words : List Word) : Opens (clause words) := opens_cons rfl

theorem closes_clause (words : List Word) : Closes (clause words) := by
  have hspace : Closes [space] := closes_singleton rfl
  exact hspace.append (List.cons_ne_nil _ _) (space :: phrase words)

theorem spaced_clause (words : List Word) : Spaced (clause words) :=
  ((spaced_phrase words).append_opens (spaced_singleton _) (opens_cons rfl)).cons rfl

theorem Spaced.append_clause (hx : Spaced xs) (words : List Word) (hy : Spaced ys) :
    Spaced (xs ++ clause words ++ ys) :=
  (hx.append_opens (spaced_clause words) (opens_clause words)).append_closes hy
    ((closes_clause words).append (List.cons_ne_nil _ _) _)

theorem spaced_clause_append (words : List Word) (hy : Spaced ys) : Spaced (clause words ++ ys) :=
  (spaced_clause words).append_closes hy (closes_clause words)

/-! ## Parts of statements -/

theorem spaced_compared (column : Ident) {op : List Piece} (value : Value) (h : Spaced op) :
    Spaced (compared column op value) := by
  have hop : Spaced (op ++ [space, bind value]) :=
    h.append_opens ((spaced_singleton _).cons rfl) (opens_cons rfl)
  exact (hop.cons rfl).cons_opens _ (opens_cons rfl)

theorem spaced_comparison (c : Comparison) : Spaced c.pieces :=
  spaced_compared _ _ (spaced_singleton _)

theorem spaced_juncture {w : Word} {items : List (List Piece)} (h : ∀ item ∈ items, Spaced item) :
    Spaced ((clause [w]).intercalate items) :=
  spaced_intercalate (List.cons_ne_nil _ _) (spaced_clause _) (opens_clause _) (closes_clause _) h

theorem spaced_config (config : Option Ident) {ys : List Piece} (hy : Spaced ys) :
    Spaced (Filter.configPieces config ++ ys) := by
  cases config with
  | none => exact hy
  | some c => exact ((hy.cons rfl).cons rfl).cons_opens _ (opens_cons rfl)

theorem spaced_filter (f : Filter) : Spaced f.pieces := by
  cases f with
  | compare c => exact spaced_comparison c
  | pattern column op value => exact spaced_compared _ _ (spaced_singleton _)
  | is column value => exact spaced_compared _ _ (spaced_phrase _)
  | member column values negated =>
    cases values with
    | nil => exact spaced_singleton _
    | cons v values =>
      exact (spaced_clause_append _ (spaced_inParens (spaced_binds _))).cons_opens _
        (opens_cons rfl)
  | distinct column value => exact spaced_compared _ _ (spaced_phrase _)
  | contain column op value => exact spaced_compared _ _ (spaced_singleton _)
  | not c => exact ((spaced_inParens (spaced_comparison c)).cons rfl).cons_opens _ (opens_cons rfl)
  | search column query config mode =>
    have hname := spaced_inParens (spaced_config config (spaced_singleton (name column)))
    have hquery := spaced_inParens (spaced_config config (spaced_singleton (bind query)))
    have hfound : Spaced [space, symbol .found, space] :=
      ((spaced_singleton space).cons_opens _ (opens_cons rfl)).cons rfl
    have hspace : Closes [space] := closes_singleton rfl
    exact ((hname.cons_opens _ opens_inParens).append_opens hfound (opens_cons rfl)).append_closes
      (hquery.cons_opens _ opens_inParens)
      ((hspace.append (List.cons_ne_nil _ _) [space, symbol .found]).append
        (List.cons_ne_nil _ _) _)
  | all pairs =>
    refine spaced_inParens (spaced_juncture fun item hi => ?_)
    obtain ⟨pair, -, rfl⟩ := List.mem_map.1 hi
    exact spaced_compared _ _ (spaced_singleton _)
  | any comparisons =>
    refine spaced_inParens (spaced_juncture fun item hi => ?_)
    obtain ⟨c, -, rfl⟩ := List.mem_map.1 hi
    exact spaced_comparison c

theorem opens_condition (filters : List Filter) : Opens (Filter.condition filters) := by
  cases filters with
  | nil => exact opens_nil
  | cons f filters => exact opens_cons rfl

theorem spaced_condition (filters : List Filter) : Spaced (Filter.condition filters) := by
  cases filters with
  | nil => exact spaced_nil
  | cons f filters =>
    refine spaced_clause_append _ (spaced_juncture fun item hi => ?_)
    obtain ⟨g, -, rfl⟩ := List.mem_map.1 hi
    exact spaced_filter g

theorem spaced_columns (columns : ColumnList) : Spaced columns.pieces := by
  cases columns with
  | all => exact spaced_singleton _
  | only columns => exact spaced_names columns

theorem spaced_target (schema entity : Ident) : Spaced (Statement.target schema entity) :=
  ((spaced_singleton _).cons rfl).cons_opens _ (opens_cons rfl)

theorem spaced_application (schema function : Ident) (args : List Value) :
    Spaced (Statement.application schema function args) :=
  (spaced_target schema function).append_opens (spaced_inParens (spaced_binds args)) opens_inParens

theorem opens_ordering (terms : List OrderTerm) : Opens (Statement.ordering terms) := by
  cases terms with
  | nil => exact opens_nil
  | cons t terms => exact opens_cons rfl

theorem spaced_ordering (terms : List OrderTerm) : Spaced (Statement.ordering terms) := by
  cases terms with
  | nil => exact spaced_nil
  | cons t terms =>
    refine spaced_clause_append _ (spaced_commas fun item hi => ?_)
    obtain ⟨t, -, rfl⟩ := List.mem_map.1 hi
    exact ((spaced_phrase _).cons rfl).cons_opens _ (opens_cons rfl)

theorem paging_spaced (q : Query) :
    Spaced (Statement.paging q) ∧ Opens (Statement.paging q) := by
  have hclause : ∀ (w : Word) (p : Piece), Spaced (clause [w] ++ [p]) ∧ Opens (clause [w] ++ [p]) :=
    fun w p => ⟨spaced_clause_append _ (spaced_singleton p), opens_cons rfl⟩
  have hnil : Spaced [] ∧ Opens [] := ⟨spaced_nil, opens_nil⟩
  have happend : ∀ {xs ys : List Piece}, Spaced xs ∧ Opens xs → Spaced ys ∧ Opens ys →
      Spaced (xs ++ ys) ∧ Opens (xs ++ ys) :=
    fun hx hy => ⟨hx.1.append_opens hy.1 hy.2, hx.2.append hy.2⟩
  unfold Statement.paging
  refine happend ?_ ?_
  · split
    · exact hclause _ _
    · split_ifs
      · exact hnil
      · exact hclause _ _
  · split
    · exact hclause _ _
    · exact hnil

theorem opens_giveBack (columns : Option ColumnList) : Opens (Statement.giveBack columns) := by
  cases columns with
  | none => exact opens_nil
  | some columns => exact opens_cons rfl

theorem spaced_giveBack (columns : Option ColumnList) : Spaced (Statement.giveBack columns) := by
  cases columns with
  | none => exact spaced_nil
  | some columns => exact spaced_clause_append _ (spaced_columns columns)

theorem spaced_rowPieces (schema table : Ident) (rows : Rows) :
    Spaced (Statement.rowPieces schema table rows) := by
  have hrows : Spaced (commas (rows.rows.map fun row => inParens (binds row))) := by
    refine spaced_commas fun item hi => ?_
    obtain ⟨row, -, rfl⟩ := List.mem_map.1 hi
    exact spaced_inParens (spaced_binds row)
  have hinto : Spaced (phrase [.insert, .into] ++ space :: Statement.target schema table) :=
    (spaced_phrase _).append_opens ((spaced_target schema table).cons rfl) (opens_cons rfl)
  have hcolumns : Spaced (space :: inParens (names rows.columns)) :=
    (spaced_inParens (spaced_names _)).cons rfl
  have h := (hinto.append_opens hcolumns (opens_cons rfl)).append_clause [.values] hrows
  simpa [Statement.rowPieces] using h

theorem spaced_resolution (columns conflict : List Ident) (ignoreDuplicates : Bool) :
    Spaced (Statement.resolution columns conflict ignoreDuplicates) := by
  have htarget : ∀ {ys : List Piece}, Spaced ys →
      Spaced ((if conflict.isEmpty then [] else inParens (names conflict) ++ [space]) ++ ys) := by
    intro ys hy
    split_ifs
    · exact hy
    · have hspace : Closes [space] := closes_singleton rfl
      exact ((spaced_inParens (spaced_names conflict)).append_opens (spaced_singleton _)
        (opens_cons rfl)).append_closes hy (hspace.append (List.cons_ne_nil _ _) _)
  have hassignments : Spaced (commas ((columns.filter (· ∉ conflict)).map fun c =>
      [name c, space, symbol .equal, space, word .excluded, symbol .dot, name c])) := by
    refine spaced_commas fun item hi => ?_
    obtain ⟨c, -, rfl⟩ := List.mem_map.1 hi
    exact (((((spaced_singleton (name c)).cons rfl).cons_opens _ (opens_cons rfl)).cons
      rfl).cons_opens _ (opens_cons rfl)).cons rfl |>.cons_opens _ (opens_cons rfl)
  have haction : Spaced (if ignoreDuplicates || (columns.filter (· ∉ conflict)).isEmpty
      then phrase [.doWord, .nothing]
      else phrase [.doWord, .update, .setWord] ++ space ::
        commas ((columns.filter (· ∉ conflict)).map fun c =>
          [name c, space, symbol .equal, space, word .excluded, symbol .dot, name c])) := by
    split_ifs
    · exact spaced_phrase _
    · exact (spaced_phrase _).append_opens (hassignments.cons rfl) (opens_cons rfl)
  have h := spaced_clause_append [.on, .conflict] (htarget haction)
  rw [← List.append_assoc] at h
  exact h

theorem spaced_assignments (pairs : List (Ident × Value)) :
    Spaced (Statement.assignments pairs) := by
  refine spaced_commas fun item hi => ?_
  obtain ⟨pair, -, rfl⟩ := List.mem_map.1 hi
  exact spaced_compared _ _ (spaced_singleton _)

theorem opens_resolution (columns conflict : List Ident) (ignoreDuplicates : Bool) :
    Opens (Statement.resolution columns conflict ignoreDuplicates) := opens_cons rfl

theorem spaced_countFront (mode : CountMode) {ys : List Piece} (hy : Spaced ys) :
    Spaced (Statement.countFront mode ++ ys) := by
  have hfrom := spaced_clause_append [.fromWord] hy
  cases mode with
  | exact =>
    have hname := hfrom.cons_opens (name Statement.countColumn) (opens_cons rfl)
    have has := spaced_clause_append [.asWord] hname
    have hclosing := has.cons (d := symbol .closing) rfl
    have hstar := hclosing.cons_opens (symbol .star) (opens_cons rfl)
    have hopening := hstar.cons (d := symbol .opening) rfl
    have hcount := hopening.cons_opens (word .count) (opens_cons rfl)
    exact (hcount.cons rfl).cons_opens (word .select) (opens_cons rfl)
  | planned | estimated =>
    have hstar := hfrom.cons_opens (symbol .star) (opens_cons rfl)
    have hselect := (hstar.cons (d := space) rfl).cons_opens (word .select) (opens_cons rfl)
    have hclosing := (hselect.cons (d := space) rfl).cons (d := symbol .closing) rfl
    have hformat := (spaced_phrase [.format, .json]).append_opens hclosing (opens_cons rfl)
    have hopening := hformat.cons (d := symbol .opening) rfl
    have h := (hopening.cons (d := space) rfl).cons_opens (word .explain) (opens_cons rfl)
    simpa [Statement.countFront] using h

end Piece

open Piece Statement

/-! ## All statements -/

/-- **The pieces of every statement are spaced.** -/
theorem Compiled.spaced {safety : Safety} {q : Query} {pieces : List Piece}
    (h : Compiled safety q pieces) : Spaced pieces := by
  have hpaging := paging_spaced q
  cases h with
  | @select text schema table columns =>
    have hcolumns : Spaced (word .select :: space :: columns.pieces) :=
      ((spaced_columns columns).cons rfl).cons_opens _ (opens_cons rfl)
    have htarget := hcolumns.append_clause [.fromWord] (spaced_target schema table)
    have hcondition := htarget.append_opens (spaced_condition q.filters) (opens_condition _)
    exact (hcondition.append_opens (spaced_ordering q.order) (opens_ordering _)).append_opens
      hpaging.1 hpaging.2
  | @rpc text args schema function =>
    have hstar : Spaced [word .select, space, symbol .star] :=
      ((spaced_singleton _).cons rfl).cons_opens _ (opens_cons rfl)
    have hsource := hstar.append_clause [.fromWord]
      (spaced_application schema function args)
    exact (hsource.append_opens (spaced_ordering q.order) (opens_ordering _)).append_opens
      hpaging.1 hpaging.2
  | @insert payload schema table rows returning =>
    exact (spaced_rowPieces schema table rows).append_opens (spaced_giveBack returning)
      (opens_giveBack _)
  | @upsert payload onConflict ignoreDuplicates schema table rows conflict returning =>
    exact ((spaced_rowPieces schema table rows).append_opens (spaced_resolution _ _ _)
      (opens_resolution _ _ _)).append_opens (spaced_giveBack returning) (opens_giveBack _)
  | @update texts schema table pairs returning =>
    have htarget : Spaced (word .update :: space :: target schema table) :=
      ((spaced_target schema table).cons rfl).cons_opens _ (opens_cons rfl)
    have hset := htarget.append_clause [.setWord] (spaced_assignments pairs)
    exact (hset.append_opens (spaced_condition q.filters) (opens_condition _)).append_opens
      (spaced_giveBack returning) (opens_giveBack _)
  | @delete schema table returning =>
    have htarget : Spaced (phrase [.delete, .fromWord] ++ space :: target schema table) :=
      (spaced_phrase _).append_opens ((spaced_target schema table).cons rfl) (opens_cons rfl)
    exact (htarget.append_opens (spaced_condition q.filters) (opens_condition _)).append_opens
      (spaced_giveBack returning) (opens_giveBack _)

theorem Counted.spaced {q : Query} {mode : CountMode} {pieces : List Piece}
    (h : Counted q mode pieces) : Spaced pieces := by
  cases h with
  | @select text schema table =>
    exact (spaced_countFront mode (spaced_target schema table)).append_opens
      (spaced_condition q.filters) (opens_condition _)
  | @rpc text args schema function =>
    exact (spaced_countFront mode (spaced_application schema function args)).append_opens
      (spaced_condition q.filters) (opens_condition _)

/-! ## Where pieces end -/

namespace Piece

/-- The characters of delimiters. -/
def isBreak (c : Char) : Bool := c = ' ' || c = '(' || c = ')' || c = ',' || c = '.'

theorem text_of_isDelimiter {p : Piece} (h : p.isDelimiter) (n : ℕ) :
    ∃ c, isBreak c ∧ p.text n = [c] := by
  unfold isDelimiter at h
  split at h
  · exact ⟨' ', rfl, rfl⟩
  · exact ⟨'(', rfl, rfl⟩
  · exact ⟨')', rfl, rfl⟩
  · exact ⟨',', rfl, rfl⟩
  · exact ⟨'.', rfl, rfl⟩
  · cases h

/-- A property that no delimiter has does not hold of a break. -/
theorem not_of_isBreak {p : Char → Bool} (hp : [' ', '(', ')', ',', '.'].all fun c => !p c)
    {c : Char} (h : isBreak c) : ¬ p c := by
  have hmem : c ∈ [' ', '(', ')', ',', '.'] := by simpa [isBreak, or_assoc] using h
  have hc := List.all_eq_true.1 hp c hmem
  simpa using hc

theorem Spaced.tail {p : Piece} {rest : List Piece} (h : Spaced (p :: rest)) : Spaced rest :=
  List.IsChain.tail h

theorem Spaced.break_after {p : Piece} {rest : List Piece} (h : Spaced (p :: rest))
    (hp : ¬ p.isDelimiter) (n : ℕ) : ∀ c ∈ (textFrom n rest).head?, isBreak c := by
  cases rest with
  | nil => simp [textFrom]
  | cons r rest =>
    have hr : r.isDelimiter := (List.isChain_cons_cons.1 h).1.resolve_left hp
    obtain ⟨c, hc, ht⟩ := text_of_isDelimiter hr n
    intro d hd
    simp only [textFrom, ht, List.cons_append, List.head?_cons, Option.mem_def,
      Option.some.injEq] at hd
    exact hd ▸ hc

end Piece

end QueryClient
