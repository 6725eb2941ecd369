/-
  What holds of every piece of a statement.

  The words but those of paging, the symbols, the spaces and the places for values come with the
  form of a statement; the names, the literals and the paging come from its query.

  * `Each P` holds of pieces that all have the property `P`;
  * `Compiled.each` and `Counted.each`: what holds of the former and of the latter holds of
    every piece.
-/
import QueryClient.Proofs.Statement.Compiled
import Mathlib.Data.List.Basic

namespace QueryClient

/-! ## Names of queries -/

namespace Filter

/-- The columns that a filter names. -/
def columns : Filter → List Ident
  | .compare c | .not c => [c.column]
  | .pattern column _ _ | .is column _ | .member column _ _ | .distinct column _
  | .contain column _ _ | .search column _ _ _ => [column]
  | .all pairs => pairs.map Prod.fst
  | .any comparisons => comparisons.map Comparison.column

/-- The configuration of a search. -/
def config? : Filter → Option Ident
  | .search _ _ config _ => config
  | _ => none

end Filter

namespace ColumnList

/-- The parts of a column list, without the blanks around them. -/
def parts (list : String) : List String :=
  (splitCommas (Text.trimChars list.toList)).map fun part => String.ofList (Text.trimChars part)

def columns : ColumnList → List Ident
  | .all => []
  | .only columns => columns

theorem parse_ok {list : String} {columns : ColumnList} (h : parse list = .ok columns) :
    ∀ c ∈ columns.columns, c.name ∈ parts list := by
  unfold parse at h
  split at h
  · cases h
    simp [ColumnList.columns]
  · cases h
  · obtain ⟨is, his, h⟩ := bind_eq_ok.1 h
    cases h
    intro c hc
    obtain ⟨part, hpart, hp⟩ := forall₂_mem_right (mapM_forall₂ his) c hc
    exact List.mem_map.2 ⟨part, hpart, (Ident.parse_ok hp).symm⟩

end ColumnList

/-- The names that an operation gives. -/
def Operation.names : Operation → List String
  | .select columns => ColumnList.parts columns
  | .rpc function _ => [function]
  | .insert payload => payload.columns
  | .upsert payload onConflict _ => payload.columns ++ onConflict.map Text.trim
  | .update pairs => pairs.map Prod.fst
  | .delete => []

namespace Query

/-- The names that a query gives.  Those in column lists and those of conflict columns are
trimmed. -/
def names (q : Query) : List String :=
  [q.schema, q.table] ++ q.operation.names ++ q.returning.toList.flatMap ColumnList.parts ++
    (q.filters.flatMap Filter.columns).map Ident.name ++ q.order.map fun t => t.column.name

/-- The configurations of text searches that a query names. -/
def configs (q : Query) : List String := (q.filters.filterMap Filter.config?).map Ident.name

end Query

/-! ## Pieces that all have a property -/

/-- The words of paging. -/
def Word.isPaging : Word → Bool
  | .limit | .offset => true
  | _ => false

namespace Piece

/-- Every piece has the property. -/
def Each (P : Piece → Prop) (pieces : List Piece) : Prop := ∀ p ∈ pieces, P p

/-- A property of all pieces but names, literals, numbers and the words of paging. -/
structure Fixed (P : Piece → Prop) : Prop where
  word : ∀ w, w.isPaging = false → P (.word w)
  symbol : ∀ s, P (.symbol s)
  space : P .space
  bind : ∀ v, P (.bind v)

variable {P : Piece → Prop} {xs ys : List Piece}

@[simp] theorem each_nil : Each P [] := by simp [Each]

@[simp] theorem each_cons {p : Piece} : Each P (p :: xs) ↔ P p ∧ Each P xs := by simp [Each]

@[simp] theorem each_append : Each P (xs ++ ys) ↔ Each P xs ∧ Each P ys :=
  List.forall_mem_append

theorem each_intercalate {sep : List Piece} (hs : Each P sep) :
    ∀ {items : List (List Piece)}, (∀ item ∈ items, Each P item) → Each P (sep.intercalate items)
  | [], _ => each_nil
  | [item], h => by
    rw [List.intercalate_singleton]
    exact h item List.mem_cons_self
  | item :: item' :: items, h => by
    have hrest : Each P (sep.intercalate (item' :: items)) :=
      each_intercalate hs fun i hi => h i (List.mem_cons_of_mem _ hi)
    rw [List.intercalate_cons_cons, each_append, each_append]
    exact ⟨⟨h item List.mem_cons_self, hs⟩, hrest⟩

section
variable (hP : Fixed P)
include hP

theorem each_phrase {words : List Word} (h : words.any Word.isPaging = false) :
    Each P (phrase words) := by
  unfold Piece.phrase
  induction words with
  | nil => exact each_nil
  | cons w words ih =>
    rw [List.any_cons, Bool.or_eq_false_iff] at h
    have hw : P (.word w) := hP.word w h.1
    cases words with
    | nil => exact each_cons.2 ⟨hw, each_nil⟩
    | cons w' words => exact each_cons.2 ⟨hw, each_cons.2 ⟨hP.space, ih h.2⟩⟩

theorem each_clause {words : List Word} (h : words.any Word.isPaging = false) :
    Each P (clause words) := by
  simp [clause, hP.space, each_phrase hP h]

theorem each_commas {items : List (List Piece)} (h : ∀ item ∈ items, Each P item) :
    Each P (commas items) :=
  each_intercalate (by simp [hP.symbol, hP.space]) h

theorem each_names {columns : List Ident} (h : ∀ c ∈ columns, P (name c)) : Each P (names columns) := by
  refine each_commas hP fun item hi => ?_
  obtain ⟨c, hc, rfl⟩ := List.mem_map.1 hi
  simp [h c hc]

theorem each_binds (values : List Value) : Each P (binds values) := by
  refine each_commas hP fun item hi => ?_
  obtain ⟨v, -, rfl⟩ := List.mem_map.1 hi
  simp [hP.bind]

theorem each_inParens (h : Each P xs) : Each P (inParens xs) := by
  simp [inParens, hP.symbol, h]

theorem each_compared {column : Ident} {op : List Piece} (value : Value) (hc : P (name column))
    (h : Each P op) : Each P (compared column op value) := by
  simp [compared, hc, h, hP.space, hP.bind]

theorem each_comparison (c : Comparison) (hc : P (name c.column)) : Each P c.pieces :=
  each_compared hP _ hc (by simp [hP.symbol])

theorem each_config {config : Option Ident} (h : ∀ i ∈ config, P (literal i)) :
    Each P (Filter.configPieces config) := by
  cases config with
  | none => exact each_nil
  | some i => simp [Filter.configPieces, h i rfl, hP.symbol, hP.space]

theorem each_filter {f : Filter} (hn : ∀ c ∈ f.columns, P (name c))
    (hl : ∀ i ∈ f.config?, P (literal i)) : Each P f.pieces := by
  cases f with
  | compare c => exact each_comparison hP c (hn _ List.mem_cons_self)
  | pattern column op value =>
    refine each_compared hP _ (hn _ List.mem_cons_self) (each_cons.2 ⟨?_, each_nil⟩)
    cases op <;> exact hP.word _ rfl
  | is column value =>
    exact each_compared hP _ (hn _ List.mem_cons_self) (each_phrase hP rfl)
  | member column values negated =>
    cases values with
    | nil =>
      refine each_cons.2 ⟨?_, each_nil⟩
      cases negated <;> exact hP.word _ rfl
    | cons v values =>
      have hin : Each P (clause (if negated then [.not, .inWord] else [.inWord])) := by
        cases negated <;> exact each_clause hP rfl
      exact each_cons.2
        ⟨hn _ List.mem_cons_self, each_append.2 ⟨hin, each_inParens hP (each_binds hP _)⟩⟩
  | distinct column value =>
    exact each_compared hP _ (hn _ List.mem_cons_self) (each_phrase hP rfl)
  | contain column op value =>
    exact each_compared hP _ (hn _ List.mem_cons_self) (by simp [hP.symbol])
  | not c =>
    exact each_cons.2 ⟨hP.word _ rfl, each_cons.2
      ⟨hP.space, each_inParens hP (each_comparison hP c (hn _ List.mem_cons_self))⟩⟩
  | search column query config mode =>
    have hconfig : Each P (Filter.configPieces config) := each_config hP hl
    have hvector : P (word .textVector) := hP.word _ rfl
    have hmode : P (word mode.word) := by cases mode <;> exact hP.word _ rfl
    have hcolumn : P (name column) := hn _ List.mem_cons_self
    simp [Filter.pieces, inParens, hvector, hmode, hcolumn, hconfig, hP.symbol, hP.space,
      hP.bind]
  | all pairs =>
    refine each_inParens hP (each_intercalate (each_clause hP rfl) fun item hi => ?_)
    obtain ⟨pair, hpair, rfl⟩ := List.mem_map.1 hi
    exact each_compared hP _ (hn _ (List.mem_map_of_mem hpair)) (by simp [hP.symbol])
  | any comparisons =>
    refine each_inParens hP (each_intercalate (each_clause hP rfl) fun item hi => ?_)
    obtain ⟨c, hc, rfl⟩ := List.mem_map.1 hi
    exact each_comparison hP c (hn _ (List.mem_map_of_mem hc))

theorem each_condition {filters : List Filter} (hn : ∀ f ∈ filters, ∀ c ∈ f.columns, P (name c))
    (hl : ∀ f ∈ filters, ∀ i ∈ f.config?, P (literal i)) : Each P (Filter.condition filters) := by
  cases filters with
  | nil => exact each_nil
  | cons f filters =>
    refine each_append.2 ⟨each_clause hP rfl,
      each_intercalate (each_clause hP rfl) fun item hi => ?_⟩
    obtain ⟨g, hg, rfl⟩ := List.mem_map.1 hi
    exact each_filter hP (hn g hg) (hl g hg)

theorem each_columnList {columns : ColumnList} (h : ∀ c ∈ columns.columns, P (name c)) :
    Each P columns.pieces := by
  cases columns with
  | all => simp [ColumnList.pieces, hP.symbol]
  | only columns => exact each_names hP h

theorem each_target {schema entity : Ident} (hs : P (name schema)) (he : P (name entity)) :
    Each P (Statement.target schema entity) := by
  simp [Statement.target, hs, he, hP.symbol]

theorem each_application {schema function : Ident} (hs : P (name schema)) (hf : P (name function))
    (args : List Value) : Each P (Statement.application schema function args) :=
  each_append.2 ⟨each_target hP hs hf, each_inParens hP (each_binds hP args)⟩

theorem each_ordering {terms : List OrderTerm} (h : ∀ t ∈ terms, P (name t.column)) :
    Each P (Statement.ordering terms) := by
  have horder : ∀ o : Order, Each P o.pieces := fun ⟨direction, nulls⟩ => by
    cases direction <;> cases nulls <;> exact each_phrase hP rfl
  cases terms with
  | nil => exact each_nil
  | cons t terms =>
    refine each_append.2 ⟨each_clause hP rfl, each_commas hP fun item hi => ?_⟩
    obtain ⟨t, ht, rfl⟩ := List.mem_map.1 hi
    exact each_cons.2 ⟨h t ht, each_cons.2 ⟨hP.space, horder t.order⟩⟩

theorem each_giveBack {columns : Option ColumnList}
    (h : ∀ list ∈ columns, ∀ c ∈ list.columns, P (name c)) :
    Each P (Statement.giveBack columns) := by
  cases columns with
  | none => exact each_nil
  | some list => exact each_append.2 ⟨each_clause hP rfl, each_columnList hP (h list rfl)⟩

theorem each_rowPieces {schema table : Ident} {rows : Rows} (hs : P (name schema))
    (ht : P (name table)) (hc : ∀ c ∈ rows.columns, P (name c)) :
    Each P (Statement.rowPieces schema table rows) := by
  have hrows : Each P (commas (rows.rows.map fun row =>
      inParens (binds row))) := by
    refine each_commas hP fun item hi => ?_
    obtain ⟨row, -, rfl⟩ := List.mem_map.1 hi
    exact each_inParens hP (each_binds hP row)
  have hinto : Each P (phrase [.insert, .into]) := each_phrase hP rfl
  have hvalues : Each P (clause [.values]) := each_clause hP rfl
  have hcolumns : Each P (inParens (names rows.columns)) := each_inParens hP (each_names hP hc)
  simp [Statement.rowPieces, hinto, hP.space, each_target hP hs ht, hcolumns, hvalues, hrows]

theorem each_resolution {columns conflict : List Ident} (hc : ∀ c ∈ columns, P (name c))
    (hf : ∀ c ∈ conflict, P (name c)) (ignoreDuplicates : Bool) :
    Each P (Statement.resolution columns conflict ignoreDuplicates) := by
  have hupdated : Each P (commas ((columns.filter (· ∉ conflict)).map fun c =>
      [name c, space, symbol .equal, space, word .excluded, symbol .dot, name c])) := by
    refine each_commas hP fun item hi => ?_
    obtain ⟨c, hmem, rfl⟩ := List.mem_map.1 hi
    have hname : P (name c) := hc c (List.mem_filter.1 hmem).1
    have hexcluded : P (word .excluded) := hP.word _ rfl
    simp [hname, hexcluded, hP.space, hP.symbol]
  have hnothing : Each P (phrase [.doWord, .nothing]) := each_phrase hP rfl
  have hset : Each P (phrase [.doWord, .update, .setWord]) := each_phrase hP rfl
  unfold Statement.resolution
  refine each_append.2 ⟨each_append.2 ⟨each_clause hP rfl, ?_⟩, ?_⟩
  · split_ifs
    · exact each_nil
    · simp [each_inParens hP (each_names hP hf), hP.space]
  · split_ifs
    · exact hnothing
    · exact each_append.2 ⟨hset, each_cons.2 ⟨hP.space, hupdated⟩⟩

theorem each_assignments {pairs : List (Ident × Value)} (h : ∀ pair ∈ pairs, P (name pair.1)) :
    Each P (Statement.assignments pairs) := by
  refine each_commas hP fun item hi => ?_
  obtain ⟨pair, hpair, rfl⟩ := List.mem_map.1 hi
  exact each_compared hP _ (h pair hpair) (by simp [hP.symbol])

theorem each_countFront (mode : CountMode) (h : P (name Statement.countColumn)) :
    Each P (Statement.countFront mode) := by
  have hselect : P (word .select) := hP.word _ rfl
  have hfrom : Each P (clause [.fromWord]) := each_clause hP rfl
  have hexplain : P (word .explain) ∧ Each P (phrase [.format, .json]) :=
    ⟨hP.word _ rfl, each_phrase hP rfl⟩
  cases mode with
  | exact =>
    have hcount : P (word .count) ∧ Each P (clause [.asWord]) :=
      ⟨hP.word _ rfl, each_clause hP rfl⟩
    simp [Statement.countFront, hselect, hfrom, hcount, h, hP.space, hP.symbol]
  | planned | estimated =>
    simp [Statement.countFront, hselect, hfrom, hexplain, hP.space, hP.symbol]

end
end Piece

/-! ## Statements -/

open Piece

namespace Query
variable {q : Query}

theorem schema_mem_names : q.schema ∈ q.names := by simp [names]

theorem table_mem_names : q.table ∈ q.names := by simp [names]

theorem mem_names_of_operation {text : String} (h : text ∈ q.operation.names) :
    text ∈ q.names := by
  simp [names, h]

theorem mem_names_of_returning {list text : String} (hl : q.returning = some list)
    (h : text ∈ ColumnList.parts list) : text ∈ q.names := by
  simp [names, hl, h]

theorem mem_names_of_filter {f : Filter} (hf : f ∈ q.filters) {c : Ident}
    (hc : c ∈ f.columns) : c.name ∈ q.names := by
  have hmem : c.name ∈ (q.filters.flatMap Filter.columns).map Ident.name :=
    List.mem_map_of_mem (List.mem_flatMap.2 ⟨f, hf, hc⟩)
  simp only [names, List.mem_append]
  exact Or.inl (Or.inr hmem)

theorem mem_names_of_order {t : OrderTerm} (h : t ∈ q.order) : t.column.name ∈ q.names :=
  List.mem_append_right _ (List.mem_map_of_mem h)

theorem mem_configs {f : Filter} (hf : f ∈ q.filters) {i : Ident} (hi : i ∈ f.config?) :
    i.name ∈ q.configs :=
  List.mem_map_of_mem (List.mem_filterMap.2 ⟨f, hf, hi⟩)

end Query

theorem conflictColumns_ok {onConflict : List String} {ignoreDuplicates : Bool}
    {conflict : List Ident}
    (h : Statement.conflictColumns onConflict ignoreDuplicates = .ok conflict) :
    ∀ c ∈ conflict, c.name ∈ onConflict.map Text.trim := by
  unfold Statement.conflictColumns at h
  obtain ⟨columns, hcolumns, h⟩ := bind_eq_ok.1 h
  split_ifs at h
  cases h
  intro c hc
  obtain ⟨text, htext, hp⟩ := forall₂_mem_right (mapM_forall₂ hcolumns) c hc
  exact List.mem_map.2 ⟨text, htext, (Ident.parse_ok hp).symm⟩

theorem Rows.columns_of_ofPayload {safety : Safety} {what : String} {payload : Json} {rows : Rows}
    (h : Rows.ofPayload safety what payload = .ok rows) :
    ∀ c ∈ rows.columns, c.name ∈ payload.columns := by
  intro c hc
  obtain ⟨key, hkey, hp⟩ := forall₂_mem_right (Rows.ofPayload_ok h).1 c hc
  rwa [Ident.parse_ok hp]

section
variable {P : Piece → Prop} {q : Query} (hP : Fixed P)
  (hn : ∀ i : Ident, i.name ∈ q.names → P (name i))
  (hl : ∀ i : Ident, i.name ∈ q.configs → P (literal i))
include hP hn

theorem each_queryCondition (hl : ∀ i : Ident, i.name ∈ q.configs → P (literal i)) :
    Each P (Filter.condition q.filters) :=
  each_condition hP (fun _ hf c hc => hn c (Query.mem_names_of_filter hf hc))
    fun _ hf i hi => hl i (Query.mem_configs hf hi)

theorem each_queryGiveBack {returning : Option ColumnList}
    (h : q.returning.mapM ColumnList.parse = .ok returning) :
    Each P (Statement.giveBack returning) := by
  refine each_giveBack hP fun list hlist c hc => ?_
  cases hr : q.returning with
  | none =>
    rw [hr] at h
    cases h
    cases hlist
  | some text =>
    rw [hr] at h
    obtain ⟨columns, hcolumns, h⟩ := bind_eq_ok.1 h
    cases h
    cases hlist
    exact hn c (Query.mem_names_of_returning hr (ColumnList.parse_ok hcolumns c hc))

include hl

/-- What holds of the fixed pieces, of the names and the configurations of a query and of its
paging holds of every piece of its statement. -/
theorem Compiled.each {safety : Safety} {pieces : List Piece} (h : Compiled safety q pieces)
    (hpaging : Each P (Statement.paging q)) : Each P pieces := by
  have hcondition := each_queryCondition hP hn hl
  have hordering : Each P (Statement.ordering q.order) :=
    each_ordering hP fun t ht => hn _ (Query.mem_names_of_order ht)
  have hname : ∀ {kind : IdentKind} {text : String} {i : Ident}, Ident.parse kind text = .ok i →
      text ∈ q.names → P (name i) := fun hi htext => hn _ (by rwa [Ident.parse_ok hi])
  have hschema : ∀ {i : Ident}, Ident.parse .schema q.schema = .ok i → P (name i) :=
    fun hi => hname hi Query.schema_mem_names
  have htable : ∀ {i : Ident}, Ident.parse .table q.table = .ok i → P (name i) :=
    fun hi => hname hi Query.table_mem_names
  have hoperation : ∀ {i : Ident}, i.name ∈ q.operation.names → P (name i) :=
    fun hi => hn _ (Query.mem_names_of_operation hi)
  cases h with
  | @select text schema table columns hop hs ht hc =>
    have hcolumns : Each P columns.pieces := each_columnList hP fun c hmem =>
      hoperation (by rw [hop]; exact ColumnList.parse_ok hc c hmem)
    have hselect : P (word .select) := hP.word _ rfl
    have hfrom : Each P (clause [.fromWord]) := each_clause hP rfl
    have htarget := each_target hP (hschema hs) (htable ht)
    simp [hselect, hP.space, hcolumns, hfrom, htarget, hcondition, hordering, hpaging]
  | @rpc text args schema function hop hs hf =>
    have hselect : P (word .select) := hP.word _ rfl
    have hfrom : Each P (clause [.fromWord]) := each_clause hP rfl
    have happlication := each_application hP (hschema hs)
      (hname hf (Query.mem_names_of_operation (by rw [hop]; exact List.mem_cons_self))) args
    simp [hselect, hP.space, hP.symbol, hfrom, happlication, hordering, hpaging]
  | @insert payload schema table rows returning hop hs ht hr hret =>
    have hrows := each_rowPieces hP (hschema hs) (htable ht) fun c hc =>
      hoperation (by rw [hop]; exact Rows.columns_of_ofPayload hr c hc)
    exact each_append.2 ⟨hrows, each_queryGiveBack hP hn hret⟩
  | @upsert payload onConflict ignoreDuplicates schema table rows conflict returning hop hs ht hr
      hc hret =>
    have hcolumns : ∀ c ∈ rows.columns, P (name c) := fun c hmem => hoperation
      (by rw [hop]; exact List.mem_append_left _ (Rows.columns_of_ofPayload hr c hmem))
    have hconflict : ∀ c ∈ conflict, P (name c) := fun c hmem => hoperation
      (by rw [hop]; exact List.mem_append_right _ (conflictColumns_ok hc c hmem))
    exact each_append.2 ⟨each_append.2 ⟨each_rowPieces hP (hschema hs) (htable ht) hcolumns,
      each_resolution hP hcolumns hconflict _⟩, each_queryGiveBack hP hn hret⟩
  | @update texts schema table pairs returning hop hs ht hp hret =>
    have hpairs : ∀ pair ∈ pairs, P (name pair.1) := fun pair hmem => by
      obtain ⟨text, htext, hparse, -⟩ := forall₂_mem_right (updateColumns_ok hp) pair hmem
      exact hname hparse
        (Query.mem_names_of_operation (by rw [hop]; exact List.mem_map_of_mem htext))
    have hupdate : P (word .update) := hP.word _ rfl
    have hset : Each P (clause [.setWord]) := each_clause hP rfl
    have htarget := each_target hP (hschema hs) (htable ht)
    simp [hupdate, hP.space, htarget, hset, each_assignments hP hpairs, hcondition,
      each_queryGiveBack hP hn hret]
  | @delete schema table returning hop hs ht hret =>
    have hdelete : Each P (phrase [.delete, .fromWord]) := each_phrase hP rfl
    have htarget := each_target hP (hschema hs) (htable ht)
    simp [hdelete, hP.space, htarget, hcondition, each_queryGiveBack hP hn hret]

theorem Counted.each {mode : CountMode} {pieces : List Piece} (h : Counted q mode pieces)
    (hcount : P (name Statement.countColumn)) : Each P pieces := by
  have hcondition := each_queryCondition hP hn hl
  have hfront := each_countFront hP mode hcount
  have hname : ∀ {kind : IdentKind} {text : String} {i : Ident}, Ident.parse kind text = .ok i →
      text ∈ q.names → P (name i) := fun hi htext => hn _ (by rwa [Ident.parse_ok hi])
  cases h with
  | select hop hs ht =>
    have htarget := each_target hP (hname hs Query.schema_mem_names)
      (hname ht Query.table_mem_names)
    exact each_append.2 ⟨each_append.2 ⟨hfront, htarget⟩, hcondition⟩
  | @rpc text args schema function hop hs hf =>
    have happlication := each_application hP (hname hs Query.schema_mem_names)
      (hname hf (Query.mem_names_of_operation (by rw [hop]; exact List.mem_cons_self))) args
    exact each_append.2 ⟨each_append.2 ⟨hfront, happlication⟩, hcondition⟩

end

end QueryClient
