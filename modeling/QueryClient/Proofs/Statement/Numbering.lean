/-
  The numbers of bound values.

  * `places` reads the places of bound values off a text, from left to right;
  * `places_textFrom`: spaced pieces number the values they bind one after the other;
  * `Compiled.boundValues_eq` and `Counted.boundValues_eq` are the values that statements bind;
  * `values_numbered_in_order`: every statement has one place for each of these values, in order.
-/
import QueryClient.Proofs.Statement.Characters
import QueryClient.Proofs.Statement.Spacing

namespace QueryClient

/-- The digits behind every dollar sign of a text, from left to right. -/
def places : List Char → List (List Char)
  | [] => []
  | c :: rest => if c = '$' then rest.takeWhile Char.isDigit :: places rest else places rest

/-- The numbers from one to `n` in digits. -/
def numerals (n : ℕ) : List (List Char) := (List.range' 1 n).map (Nat.toDigits 10)

/-! ## Places of a text -/

theorem places_append_of_notMem {xs : List Char} (h : '$' ∉ xs) (ys : List Char) :
    places (xs ++ ys) = places ys := by
  induction xs with
  | nil => rfl
  | cons c xs ih =>
    rw [List.mem_cons, not_or] at h
    rw [List.cons_append, places, if_neg (Ne.symm h.1), ih h.2]

theorem dollar_notMem_toDigits (n : ℕ) : '$' ∉ Nat.toDigits 10 n :=
  fun h => absurd (Piece.isDigit_of_mem_toDigits h) (by decide)

open Piece

/-- **Spaced pieces number the values they bind one after the other.** -/
theorem places_textFrom {pieces : List Piece} (h : Spaced pieces) (n : ℕ) :
    places (textFrom n pieces) =
      (List.range' (n + 1) (boundValues pieces).length).map (Nat.toDigits 10) := by
  induction pieces generalizing n with
  | nil => rfl
  | cons p rest ih =>
    cases hv : p.value? with
    | none =>
      rw [textFrom, places_append_of_notMem (dollar_notMem_text hv n), ih h.tail]
      simp [boundValues, hv]
    | some v =>
      obtain rfl : p = bind v := by
        cases p <;> simp [value?] at hv
        rw [hv]
      have hstop : ∀ c ∈ (textFrom (n + 1) rest).head?, ¬ c.isDigit := by
        intro c hc
        have hbreak : isBreak c := h.break_after (by simp [isDelimiter]) _ c hc
        exact not_of_isBreak rfl hbreak
      have htext : textFrom n (bind v :: rest) =
          '$' :: (Nat.toDigits 10 (n + 1) ++ textFrom (n + 1) rest) := rfl
      have hvalues : boundValues (bind v :: rest) = v :: boundValues rest := rfl
      rw [htext, hvalues, places, if_pos rfl,
        takeWhile_append_of_stop (fun c hc => isDigit_of_mem_toDigits hc) hstop,
        places_append_of_notMem (dollar_notMem_toDigits _), ih h.tail, List.length_cons,
        List.range'_succ, List.map_cons]

theorem Statement.places_text {s : Statement} (h : Spaced s.pieces) :
    places s.text.toList = numerals s.values.length := by
  rw [Statement.text, String.toList_ofList, places_textFrom h]
  rfl

/-! ## Values of fragments -/

namespace Piece

@[simp] theorem boundValues_nil : boundValues [] = [] := rfl

@[simp] theorem boundValues_append (xs ys : List Piece) :
    boundValues (xs ++ ys) = boundValues xs ++ boundValues ys := List.filterMap_append

@[simp] theorem boundValues_bind (v : Value) (xs : List Piece) :
    boundValues (bind v :: xs) = v :: boundValues xs := rfl

@[simp] theorem boundValues_word (w : Word) (xs : List Piece) :
    boundValues (word w :: xs) = boundValues xs := rfl

@[simp] theorem boundValues_symbol (s : Symbol) (xs : List Piece) :
    boundValues (symbol s :: xs) = boundValues xs := rfl

@[simp] theorem boundValues_space (xs : List Piece) :
    boundValues (space :: xs) = boundValues xs := rfl

@[simp] theorem boundValues_name (i : Ident) (xs : List Piece) :
    boundValues (name i :: xs) = boundValues xs := rfl

@[simp] theorem boundValues_literal (i : Ident) (xs : List Piece) :
    boundValues (literal i :: xs) = boundValues xs := rfl

@[simp] theorem boundValues_number (n : ℕ) (xs : List Piece) :
    boundValues (number n :: xs) = boundValues xs := rfl

theorem boundValues_intercalate {sep : List Piece} (hs : boundValues sep = []) :
    ∀ items : List (List Piece), boundValues (sep.intercalate items) = items.flatMap boundValues
  | [] => rfl
  | [item] => by simp
  | item :: item' :: items => by
    rw [List.intercalate_cons_cons, boundValues_append, boundValues_append, hs,
      boundValues_intercalate hs (item' :: items), List.append_nil]
    rfl

@[simp] theorem boundValues_commas (items : List (List Piece)) :
    boundValues (commas items) = items.flatMap boundValues := boundValues_intercalate rfl items

@[simp] theorem boundValues_inParens (xs : List Piece) :
    boundValues (inParens xs) = boundValues xs := by simp [inParens]

@[simp] theorem boundValues_phrase (words : List Word) : boundValues (phrase words) = [] := by
  unfold phrase
  induction words with
  | nil => rfl
  | cons w words ih =>
    cases words with
    | nil => rfl
    | cons w' words => exact ih

@[simp] theorem boundValues_clause (words : List Word) : boundValues (clause words) = [] := by
  simp [clause]

@[simp] theorem boundValues_names (columns : List Ident) : boundValues (names columns) = [] := by
  simp [names, List.flatMap_map]

@[simp] theorem boundValues_binds (values : List Value) : boundValues (binds values) = values := by
  simp [binds, List.flatMap_map]

/-! ## Values of statements -/

@[simp] theorem boundValues_compared (column : Ident) (op : List Piece) (v : Value) :
    boundValues (compared column op v) = boundValues op ++ [v] := by
  simp [compared]

@[simp] theorem boundValues_comparison (c : Comparison) : boundValues c.pieces = [c.value] := by
  simp [Comparison.pieces]

@[simp] theorem boundValues_config (config : Option Ident) :
    boundValues (Filter.configPieces config) = [] := by
  cases config <;> rfl

/-- A filter binds its own values. -/
@[simp] theorem boundValues_filter (f : Filter) : boundValues f.pieces = f.values := by
  cases f with
  | compare c => exact boundValues_comparison c
  | pattern column op value => simp [Filter.pieces, Filter.values]
  | is column value => simp [Filter.pieces, Filter.values]
  | member column values negated => cases values <;> simp [Filter.pieces, Filter.values]
  | distinct column value => simp [Filter.pieces, Filter.values]
  | contain column op value => simp [Filter.pieces, Filter.values]
  | not c => simp [Filter.pieces, Filter.values]
  | search column query config mode => simp [Filter.pieces, Filter.values]
  | all pairs =>
    rw [Filter.pieces, boundValues_inParens, boundValues_intercalate (boundValues_clause _),
      List.flatMap_map, Filter.values, List.map_eq_flatMap]
    simp
  | any comparisons =>
    rw [Filter.pieces, boundValues_inParens, boundValues_intercalate (boundValues_clause _),
      List.flatMap_map, Filter.values, List.map_eq_flatMap]
    simp

@[simp] theorem boundValues_condition (filters : List Filter) :
    boundValues (Filter.condition filters) = filters.flatMap Filter.values := by
  cases filters with
  | nil => rfl
  | cons f filters =>
    have happend : Filter.condition (f :: filters) = clause [.whereWord] ++
      (clause [.and]).intercalate ((f :: filters).map Filter.pieces) := rfl
    rw [happend, boundValues_append, boundValues_clause,
      boundValues_intercalate (boundValues_clause _), List.flatMap_map, List.nil_append]
    simp

@[simp] theorem boundValues_columns (columns : ColumnList) : boundValues columns.pieces = [] := by
  cases columns with
  | all => rfl
  | only columns => exact boundValues_names columns

@[simp] theorem boundValues_target (schema entity : Ident) :
    boundValues (Statement.target schema entity) = [] := rfl

@[simp] theorem boundValues_application (schema function : Ident) (args : List Value) :
    boundValues (Statement.application schema function args) = args := by
  simp [Statement.application]

@[simp] theorem boundValues_ordering (terms : List OrderTerm) :
    boundValues (Statement.ordering terms) = [] := by
  cases terms <;> simp [Statement.ordering, List.flatMap_map, Order.pieces]

@[simp] theorem boundValues_giveBack (columns : Option ColumnList) :
    boundValues (Statement.giveBack columns) = [] := by
  cases columns <;> simp [Statement.giveBack]

@[simp] theorem boundValues_rowPieces (schema table : Ident) (rows : Rows) :
    boundValues (Statement.rowPieces schema table rows) = rows.rows.flatten := by
  simp only [Statement.rowPieces, boundValues_append, boundValues_phrase, boundValues_space,
    boundValues_target, boundValues_inParens, boundValues_names, boundValues_clause,
    boundValues_commas, List.flatMap_map, boundValues_binds, List.nil_append]
  exact List.flatMap_id'

@[simp] theorem boundValues_resolution (columns conflict : List Ident) (ignoreDuplicates : Bool) :
    boundValues (Statement.resolution columns conflict ignoreDuplicates) = [] := by
  unfold Statement.resolution
  dsimp only
  split_ifs <;> simp [List.flatMap_map]

@[simp] theorem boundValues_assignments (pairs : List (Ident × Value)) :
    boundValues (Statement.assignments pairs) = pairs.map Prod.snd := by
  rw [Statement.assignments, boundValues_commas, List.flatMap_map, List.map_eq_flatMap]
  simp

@[simp] theorem boundValues_countFront (mode : CountMode) :
    boundValues (Statement.countFront mode) = [] := by
  cases mode <;> simp [Statement.countFront]

end Piece

/-- The values that an operation itself binds: those it sets, the cells of its rows one row
after the other, or its arguments. -/
def Operation.inputs : Operation → List Value
  | .select _ | .delete => []
  | .rpc _ args => args
  | .insert payload | .upsert payload _ _ =>
    payload.rows.flatMap fun row => payload.columns.map (Rows.cell row)
  | .update pairs => pairs.map Prod.snd

namespace Query

/-- The filters that are the condition of the statement. -/
def conditions (q : Query) : List Filter :=
  match q.operation with
  | .select _ | .update _ | .delete => q.filters
  | .rpc _ _ | .insert _ | .upsert _ _ _ => []

/-- The limit of a query that expects at most one row and states no limit. -/
def impliedLimit (q : Query) : List Value :=
  if q.operation.isQuery ∧ q.limit = none ∧ q.shape ≠ .many then [.int 1] else []

theorem impliedLimit_eq_nil {q : Query} (h : q.operation.isQuery = false) :
    q.impliedLimit = [] := by
  simp [impliedLimit, h]

theorem boundValues_paging {q : Query} (h : q.operation.isQuery) :
    boundValues (Statement.paging q) = q.impliedLimit := by
  unfold Statement.paging impliedLimit
  rw [boundValues_append]
  cases hl : q.limit with
  | some n => cases q.offset <;> simp
  | none =>
    by_cases hs : q.shape = .many
    · cases q.offset <;> simp [hs]
    · cases q.offset <;> simp [hs, h]

end Query

/-- **The values of a statement** are those of its operation, then those of its filters, and
last the limit it implies. -/
theorem Compiled.boundValues_eq {safety : Safety} {q : Query} {pieces : List Piece}
    (h : Compiled safety q pieces) : boundValues pieces =
      q.operation.inputs ++ q.conditions.flatMap Filter.values ++ q.impliedLimit := by
  cases h with
  | @select text schema table columns hop =>
    have hpaging := Query.boundValues_paging (q := q) (by rw [hop]; rfl)
    simp [hpaging, hop, Operation.inputs, Query.conditions]
  | @rpc text args schema function hop =>
    have hpaging := Query.boundValues_paging (q := q) (by rw [hop]; rfl)
    simp [hpaging, hop, Operation.inputs, Query.conditions]
  | @insert payload schema table rows returning hop _ _ hr =>
    have himplied := Query.impliedLimit_eq_nil (q := q) (by rw [hop]; rfl)
    simp [himplied, hop, Operation.inputs, Query.conditions, (Rows.ofPayload_ok hr).2,
      List.flatMap_def]
  | @upsert payload onConflict ignoreDuplicates schema table rows conflict returning hop _ _ hr =>
    have himplied := Query.impliedLimit_eq_nil (q := q) (by rw [hop]; rfl)
    simp [himplied, hop, Operation.inputs, Query.conditions, (Rows.ofPayload_ok hr).2,
      List.flatMap_def]
  | @update texts schema table pairs returning hop _ _ hp =>
    have himplied := Query.impliedLimit_eq_nil (q := q) (by rw [hop]; rfl)
    have hset : texts.map Prod.snd = pairs.map Prod.snd :=
      map_eq_of_forall₂ ((updateColumns_ok hp).imp fun _ _ h => h.2)
    simp [himplied, hop, Operation.inputs, Query.conditions, hset]
  | @delete schema table returning hop =>
    have himplied := Query.impliedLimit_eq_nil (q := q) (by rw [hop]; rfl)
    simp [himplied, hop, Operation.inputs, Query.conditions]

theorem Counted.boundValues_eq {q : Query} {mode : CountMode} {pieces : List Piece}
    (h : Counted q mode pieces) :
    boundValues pieces = q.operation.inputs ++ q.filters.flatMap Filter.values := by
  cases h with
  | select hop => simp [hop, Operation.inputs]
  | rpc hop => simp [hop, Operation.inputs]

/-- **The places in the text of a statement** are numbered from one to the number of its values,
in order, and its values are the ones they should stand for. -/
theorem values_numbered_in_order (safety : Safety) (q : Query) :
    (∀ s, Statement.compile safety q = .ok s →
      places s.text.toList = numerals s.values.length ∧
      s.values = q.operation.inputs ++ q.conditions.flatMap Filter.values ++ q.impliedLimit) ∧
    (∀ mode s, Statement.compileCount safety q mode = .ok s →
      places s.text.toList = numerals s.values.length ∧
      s.values = q.operation.inputs ++ q.filters.flatMap Filter.values) ∧
    ∀ f ∈ q.filters, f.values.length = f.valueCount := by
  refine ⟨?_, ?_, ?_⟩
  · intro s h
    have hs := compiled_of_compile h
    exact ⟨Statement.places_text hs.spaced, hs.boundValues_eq⟩
  · intro mode s h
    have hs := counted_of_compileCount h
    exact ⟨Statement.places_text hs.spaced, hs.boundValues_eq⟩
  · intro f _
    exact f.length_values

/-- One row by a column: the column is compared with `$1`, and the implied limit is `$2`. -/
def Query.lookup : Query :=
  { schema := "public", table := "users", shape := .single,
    filters := [.compare ⟨Statement.countColumn, .eq, .int 7⟩] }

theorem values_numbered_of_lookup :
    (∃ s, Statement.compile {} Query.lookup = .ok s ∧ places s.text.toList = [['1'], ['2']] ∧
      s.values = [.int 7, .int 1]) ∧
    ∃ s, Statement.compileCount {} Query.lookup .exact = .ok s ∧
      places s.text.toList = [['1']] ∧ s.values = [.int 7] := by
  obtain ⟨s, hs⟩ : ∃ s, Statement.compile {} Query.lookup = .ok s := ⟨_, rfl⟩
  obtain ⟨t, ht⟩ : ∃ t, Statement.compileCount {} Query.lookup .exact = .ok t := ⟨_, rfl⟩
  obtain ⟨hplaces, hvalues⟩ := (values_numbered_in_order {} Query.lookup).1 s hs
  obtain ⟨hplaces', hvalues'⟩ := (values_numbered_in_order {} Query.lookup).2.1 .exact t ht
  rw [hvalues] at hplaces
  rw [hvalues'] at hplaces'
  exact ⟨⟨s, hs, hplaces, hvalues⟩, t, ht, hplaces', hvalues'⟩

end QueryClient
