/-
  Statements of queries whose bound values are not known.

  Masking puts null for every bound value.  Two queries that differ in bound values only are the
  same query once they are masked.

  * `compile_masked` and `compileCount_masked`: masking a query masks its statement and changes
    nothing else;
  * `Statement.text_masked`: a masked statement has the same text;
  * `values_never_influence_text`: queries that differ in bound values only have the same text,
    or are refused with the same error.
-/
import QueryClient.Proofs.Statement.Compiled

namespace QueryClient

open Piece

/-! ## Masking -/

/-- A piece without its value. -/
def Piece.masked : Piece → Piece
  | .bind _ => .bind .null
  | p => p

def Comparison.masked (c : Comparison) : Comparison := { c with value := .null }

/-- Null for every value. -/
def Value.maskAll (values : List Value) : List Value := values.map fun _ => .null

/-- A filter without its values.  It has as many as before. -/
def Filter.masked : Filter → Filter
  | .compare c => .compare c.masked
  | .pattern column op _ => .pattern column op .null
  | .is column _ => .is column .null
  | .member column values negated => .member column (Value.maskAll values) negated
  | .distinct column _ => .distinct column .null
  | .contain column op _ => .contain column op .null
  | .not c => .not c.masked
  | .search column _ config mode => .search column .null config mode
  | .all pairs => .all (pairs.map fun pair => (pair.1, .null))
  | .any comparisons => .any (comparisons.map Comparison.masked)

/-- An object that has its keys only. -/
def Fields.masked (fields : Fields) : Fields := fields.map fun field => (field.1, .null)

/-- A row of a payload without its cells. -/
def Json.maskedRow : Json → Json
  | .obj fields => .obj (Fields.masked fields)
  | _ => .null

/-- A payload without the cells of its rows. -/
def Json.maskedRows : Json → Json
  | .arr items => .arr (items.map Json.maskedRow)
  | payload => payload.maskedRow

def Operation.masked : Operation → Operation
  | .select columns => .select columns
  | .insert payload => .insert payload.maskedRows
  | .upsert payload onConflict ignoreDuplicates =>
    .upsert payload.maskedRows onConflict ignoreDuplicates
  | .update pairs => .update (pairs.map fun pair => (pair.1, .null))
  | .delete => .delete
  | .rpc function args => .rpc function (Value.maskAll args)

/-- A query without its bound values. -/
def Query.masked (q : Query) : Query :=
  { q with operation := q.operation.masked, filters := q.filters.map Filter.masked }

def Rows.masked (rows : Rows) : Rows := { rows with rows := rows.rows.map Value.maskAll }

/-- A statement without its bound values. -/
def Statement.masked (s : Statement) : Statement := ⟨s.pieces.map Piece.masked⟩

/-! ## Masking again -/

@[simp] theorem Value.maskAll_maskAll (values : List Value) :
    maskAll (maskAll values) = maskAll values := by
  simp [maskAll]

@[simp] theorem Filter.masked_masked (f : Filter) : f.masked.masked = f.masked := by
  cases f <;> simp [masked, Comparison.masked, Function.comp_def]

@[simp] theorem Rows.masked_masked (rows : Rows) : rows.masked.masked = rows.masked := by
  simp [masked, Function.comp_def]

/-! ## Masked pieces -/

namespace Piece

theorem text_masked (p : Piece) (n : ℕ) : p.masked.text n = p.text n := by cases p <;> rfl

theorem isSome_value?_masked (p : Piece) : p.masked.value?.isSome = p.value?.isSome := by
  cases p <;> rfl

theorem textFrom_masked (pieces : List Piece) (n : ℕ) :
    textFrom n (pieces.map masked) = textFrom n pieces := by
  induction pieces generalizing n with
  | nil => rfl
  | cons p rest ih =>
    rw [List.map_cons, textFrom, textFrom, text_masked, isSome_value?_masked, ih]

theorem boundValues_masked (pieces : List Piece) :
    boundValues (pieces.map masked) = Value.maskAll (boundValues pieces) := by
  induction pieces with
  | nil => rfl
  | cons p rest ih =>
    cases p with
    | bind v => exact congrArg (Value.null :: ·) ih
    | word w | symbol s | space | name i | literal i | number n => exact ih

@[simp] theorem masked_bind (v : Value) : (bind v).masked = bind .null := rfl

@[simp] theorem masked_word (w : Word) : (word w).masked = word w := rfl

@[simp] theorem masked_symbol (s : Symbol) : (symbol s).masked = symbol s := rfl

@[simp] theorem masked_space : space.masked = space := rfl

@[simp] theorem masked_name (i : Ident) : (name i).masked = name i := rfl

@[simp] theorem masked_literal (i : Ident) : (literal i).masked = literal i := rfl

@[simp] theorem masked_number (n : ℕ) : (number n).masked = number n := rfl

theorem map_masked_intercalate (sep : List Piece) : ∀ items : List (List Piece),
    (sep.intercalate items).map masked =
      (sep.map masked).intercalate (items.map (List.map masked))
  | [] => rfl
  | [item] => by simp
  | item :: item' :: items => by
    have ih := map_masked_intercalate sep (item' :: items)
    rw [List.map_cons] at ih
    rw [List.intercalate_cons_cons, List.map_append, List.map_append, ih, List.map_cons,
      List.map_cons, List.intercalate_cons_cons]

@[simp] theorem map_masked_commas (items : List (List Piece)) :
    (commas items).map masked = commas (items.map (List.map masked)) :=
  map_masked_intercalate _ items

@[simp] theorem map_masked_inParens (xs : List Piece) :
    (inParens xs).map masked = inParens (xs.map masked) := by simp [inParens]

@[simp] theorem map_masked_phrase (words : List Word) :
    (phrase words).map masked = phrase words := by
  unfold phrase
  induction words with
  | nil => rfl
  | cons w words ih =>
    cases words with
    | nil => rfl
    | cons w' words => exact congrArg (fun rest => word w :: space :: rest) ih

@[simp] theorem map_masked_clause (words : List Word) :
    (clause words).map masked = clause words := by simp [clause]

@[simp] theorem map_masked_names (columns : List Ident) :
    (names columns).map masked = names columns := by
  simp [names, Function.comp_def]

@[simp] theorem map_masked_binds (values : List Value) :
    (binds values).map masked = binds (Value.maskAll values) := by
  simp [binds, Value.maskAll, Function.comp_def]

@[simp] theorem map_masked_compared (column : Ident) (op : List Piece) (v : Value) :
    (compared column op v).map masked = compared column (op.map masked) .null := by
  simp [compared]

@[simp] theorem map_masked_comparison (c : Comparison) :
    c.pieces.map masked = c.masked.pieces := by simp [Comparison.pieces, Comparison.masked]

@[simp] theorem map_masked_config (config : Option Ident) :
    (Filter.configPieces config).map masked = Filter.configPieces config := by
  cases config <;> rfl

@[simp] theorem map_masked_filter (f : Filter) : f.pieces.map masked = f.masked.pieces := by
  cases f with
  | compare c => exact map_masked_comparison c
  | pattern column op value => simp [Filter.pieces, Filter.masked]
  | is column value => simp [Filter.pieces, Filter.masked]
  | member column values negated =>
    cases values <;> simp [Filter.pieces, Filter.masked, Value.maskAll]
  | distinct column value => simp [Filter.pieces, Filter.masked]
  | contain column op value => simp [Filter.pieces, Filter.masked]
  | not c => simp [Filter.pieces, Filter.masked]
  | search column query config mode => simp [Filter.pieces, Filter.masked]
  | all pairs => simp [Filter.pieces, Filter.masked, map_masked_intercalate, Function.comp_def]
  | any comparisons => simp [Filter.pieces, Filter.masked, map_masked_intercalate, Function.comp_def]

@[simp] theorem map_masked_condition (filters : List Filter) :
    (Filter.condition filters).map masked = Filter.condition (filters.map Filter.masked) := by
  cases filters with
  | nil => rfl
  | cons f filters => simp [Filter.condition, map_masked_intercalate, Function.comp_def]

@[simp] theorem map_masked_columns (columns : ColumnList) :
    columns.pieces.map masked = columns.pieces := by
  cases columns with
  | all => rfl
  | only columns => exact map_masked_names columns

@[simp] theorem map_masked_target (schema entity : Ident) :
    (Statement.target schema entity).map masked = Statement.target schema entity := rfl

@[simp] theorem map_masked_application (schema function : Ident) (args : List Value) :
    (Statement.application schema function args).map masked =
      Statement.application schema function (Value.maskAll args) := by
  simp [Statement.application]

@[simp] theorem map_masked_ordering (terms : List OrderTerm) :
    (Statement.ordering terms).map masked = Statement.ordering terms := by
  cases terms <;> simp [Statement.ordering, Order.pieces, Function.comp_def]

@[simp] theorem map_masked_giveBack (columns : Option ColumnList) :
    (Statement.giveBack columns).map masked = Statement.giveBack columns := by
  cases columns <;> simp [Statement.giveBack]

@[simp] theorem map_masked_rowPieces (schema table : Ident) (rows : Rows) :
    (Statement.rowPieces schema table rows).map masked =
      Statement.rowPieces schema table rows.masked := by
  simp [Statement.rowPieces, Rows.masked, Function.comp_def]

@[simp] theorem map_masked_resolution (columns conflict : List Ident) (ignoreDuplicates : Bool) :
    (Statement.resolution columns conflict ignoreDuplicates).map masked =
      Statement.resolution columns conflict ignoreDuplicates := by
  unfold Statement.resolution
  dsimp only
  split_ifs <;> simp [Function.comp_def]

@[simp] theorem map_masked_assignments (pairs : List (Ident × Value)) :
    (Statement.assignments pairs).map masked =
      Statement.assignments (pairs.map fun pair => (pair.1, .null)) := by
  simp [Statement.assignments, Function.comp_def]

@[simp] theorem map_masked_countFront (mode : CountMode) :
    (Statement.countFront mode).map masked = Statement.countFront mode := by
  cases mode <;> simp [Statement.countFront]

end Piece

/-! ## Results that may be errors -/

section
variable {ε α β γ : Type}

theorem map_bind (x : Except ε α) (f : α → Except ε β) (g : β → γ) :
    (x >>= f).map g = x >>= fun a => (f a).map g := by
  cases x <;> rfl

theorem bind_map_left (x : Except ε α) (g : α → β) (f : β → Except ε γ) :
    x.map g >>= f = x >>= fun a => f (g a) := by
  cases x <;> rfl

theorem map_pure (a : α) (g : α → β) : (pure a : Except ε α).map g = pure (g a) := rfl

/-- Reading changed items gives the changed results. -/
theorem mapM_map_comm {f : α → Except ε β} {g : α → α} {k : β → β}
    (h : ∀ x, f (g x) = (f x).map k) (xs : List α) :
    (xs.map g).mapM f = (xs.mapM f).map (List.map k) := by
  induction xs with
  | nil => rfl
  | cons x xs ih =>
    rw [List.map_cons, List.mapM_cons, List.mapM_cons, h, ih, map_bind, bind_map_left]
    refine congrArg (f x >>= ·) (funext fun y => ?_)
    rw [map_bind, bind_map_left]
    rfl

end

/-! ## Masked queries -/

theorem Operation.name_masked (op : Operation) : op.masked.name = op.name := by cases op <;> rfl

theorem Operation.isQuery_masked (op : Operation) : op.masked.isQuery = op.isQuery := by
  cases op <;> rfl

theorem Operation.isInsertion_masked (op : Operation) :
    op.masked.isInsertion = op.isInsertion := by
  cases op <;> rfl

theorem Filter.check_masked (safety : Safety) (f : Filter) :
    f.masked.check safety = f.check safety := by
  cases f <;> simp [Filter.masked, Filter.check, Value.maskAll]

theorem Filter.checkAll_masked (safety : Safety) (filters : List Filter) :
    checkAll safety (filters.map masked) = checkAll safety filters := by
  simp only [checkAll, List.forM_eq_forM, List.forM_map, check_masked]

theorem Filter.condition_masked (filters : List Filter) :
    (condition (filters.map masked)).map Piece.masked = (condition filters).map Piece.masked := by
  simp [Function.comp_def]

theorem Statement.checkParts_masked (q : Query) : checkParts q.masked = checkParts q := by
  simp only [checkParts, Query.masked, Operation.name_masked, Operation.isInsertion_masked,
    Operation.isMutation, Operation.isQuery_masked, List.isEmpty_map]
  rfl

/-! ## Masked payloads -/

theorem Fields.keys_masked (fields : Fields) : Fields.keys (Fields.masked fields) = fields.keys := by
  simp [Fields.keys, Fields.masked, Function.comp_def]

theorem Fields.get?_masked (fields : Fields) (key : String) :
    Fields.get? (Fields.masked fields) key = (fields.get? key).map fun _ => .null := by
  simp [Fields.get?, Fields.masked, List.find?_map, Function.comp_def]

/-- All cells of a masked row are null, those whose key is not there included. -/
theorem Rows.cell_masked (row : Fields) : cell (Fields.masked row) = fun _ => .null := by
  funext key
  unfold cell
  rw [Fields.get?_masked]
  cases row.get? key <;> rfl

theorem Rows.checkKeys_masked (what : String) (first : Fields) (row : Fields × ℕ) :
    checkKeys what (Fields.masked first) (Fields.masked row.1, row.2) =
      checkKeys what first row := by
  simp [checkKeys, Fields.keys_masked, Fields.get?_masked]

theorem Rows.objects_masked (what : String) (payload : Json) :
    objects what payload.maskedRows = (objects what payload).map (List.map Fields.masked) := by
  cases payload with
  | obj fields => rfl
  | arr items =>
    have hzip : (items.map Json.maskedRow).zipIdx =
        items.zipIdx.map fun row => (row.1.maskedRow, row.2) := List.zipIdx_map
    rw [Json.maskedRows, objects, hzip]
    refine mapM_map_comm (fun row => ?_) items.zipIdx
    obtain ⟨item, i⟩ := row
    cases item <;> rfl
  | null | bool b | int i | float x | str s => rfl

theorem Rows.forM_checkKeys_masked (what : String) (first : Fields) (objects : List Fields) :
    (objects.map Fields.masked).zipIdx.forM (checkKeys what (Fields.masked first)) =
      objects.zipIdx.forM (checkKeys what first) := by
  have hzip : (objects.map Fields.masked).zipIdx =
      objects.zipIdx.map fun row => (Fields.masked row.1, row.2) := List.zipIdx_map
  rw [hzip]
  simp only [List.forM_eq_forM, List.forM_map, checkKeys_masked]

/-- The rows of a masked payload are masked, or refused as before. -/
theorem Rows.ofPayload_masked (safety : Safety) (what : String) (payload : Json) :
    ofPayload safety what payload.maskedRows = (ofPayload safety what payload).map masked := by
  unfold ofPayload
  rw [objects_masked, map_bind, bind_map_left]
  refine congrArg (objects what payload >>= ·) (funext fun objects => ?_)
  cases objects with
  | nil => rfl
  | cons first rest =>
    have hempty : (Fields.masked first).isEmpty = first.isEmpty := List.isEmpty_map
    have hcells : ((first :: rest).map Fields.masked).map
        (fun row => first.keys.map (cell row)) =
        ((first :: rest).map fun row => first.keys.map (cell row)).map Value.maskAll := by
      simp [Rows.cell_masked, Value.maskAll, Function.comp_def]
    change (if (Fields.masked first).isEmpty then _ else _) = _
    rw [hempty]
    dsimp only
    split_ifs
    · rfl
    · rw [forM_checkKeys_masked, map_bind, Fields.keys_masked]
      refine congrArg (_ >>= ·) (funext fun _ => ?_)
      rw [map_bind]
      refine congrArg (_ >>= ·) (funext fun columns => ?_)
      rw [List.length_map]
      split_ifs
      · rfl
      · rw [hcells]
        rfl

theorem Statement.updateColumns_masked (pairs : List (String × Value)) :
    updateColumns (pairs.map fun pair => (pair.1, .null)) =
      (updateColumns pairs).map (List.map fun pair => (pair.1, .null)) := by
  unfold updateColumns
  rw [List.isEmpty_map]
  split_ifs
  · rfl
  · refine mapM_map_comm (fun pair => ?_) pairs
    rw [map_bind]
    rfl

/-! ## Masked statements -/

namespace Statement

theorem text_masked (s : Statement) : s.masked.text = s.text :=
  congrArg String.ofList (Piece.textFrom_masked s.pieces 0)

theorem length_values_masked (s : Statement) : s.masked.values.length = s.values.length := by
  rw [values, masked, Piece.boundValues_masked, Value.maskAll, List.length_map]
  rfl

/-- The statement of a masked query is the statement of the query, apart from its values. -/
theorem compileIn_masked (safety : Safety) (q : Query) (schema : Ident) :
    (compileIn safety q.masked schema).map (List.map Piece.masked) =
      (compileIn safety q schema).map (List.map Piece.masked) := by
  have hcheck : Filter.checkAll safety q.masked.filters = Filter.checkAll safety q.filters :=
    Filter.checkAll_masked safety q.filters
  have hcondition : (Filter.condition q.masked.filters).map Piece.masked =
      (Filter.condition q.filters).map Piece.masked := Filter.condition_masked q.filters
  have hop : q.masked.operation = q.operation.masked := rfl
  unfold compileIn
  rw [hop, hcheck]
  cases q.operation with
  | select columns =>
    simp only [Operation.masked, map_bind, map_pure, List.map_append, hcondition]
    rfl
  | rpc function args =>
    simp only [Operation.masked, map_bind, map_pure, List.map_append, map_masked_application,
      Value.maskAll_maskAll]
    rfl
  | insert payload =>
    simp only [Operation.masked, Rows.ofPayload_masked, map_bind, bind_map_left, map_pure,
      List.map_append, map_masked_rowPieces, Rows.masked_masked]
    rfl
  | upsert payload onConflict ignoreDuplicates =>
    simp only [Operation.masked, Rows.ofPayload_masked, map_bind, bind_map_left, map_pure,
      List.map_append, map_masked_rowPieces, Rows.masked_masked]
    rfl
  | update pairs =>
    simp only [Operation.masked, updateColumns_masked, map_bind, bind_map_left, map_pure,
      List.map_append, map_masked_assignments, List.map_map, hcondition]
    rfl
  | delete =>
    simp only [Operation.masked, map_bind, map_pure, List.map_append, hcondition]
    rfl

theorem compile_masked (safety : Safety) (q : Query) :
    (compile safety q.masked).map masked = (compile safety q).map masked := by
  have hpieces : ∀ schema, (compileIn safety q.masked schema >>= fun ps => pure (masked ⟨ps⟩)) =
      compileIn safety q schema >>= fun ps => pure (masked ⟨ps⟩) := fun schema => by
    have h := congrArg (· >>= fun ps => (pure ⟨ps⟩ : Except Error Statement))
      (compileIn_masked safety q schema)
    simp only [bind_map_left] at h
    exact h
  unfold compile
  rw [checkParts_masked]
  simp only [map_bind, map_pure, hpieces]
  rfl

theorem compileCount_masked (safety : Safety) (q : Query) (mode : CountMode) :
    (compileCount safety q.masked mode).map masked = (compileCount safety q mode).map masked := by
  have hcheck : Filter.checkAll safety q.masked.filters = Filter.checkAll safety q.filters :=
    Filter.checkAll_masked safety q.filters
  have hcondition : (Filter.condition q.masked.filters).map Piece.masked =
      (Filter.condition q.filters).map Piece.masked := Filter.condition_masked q.filters
  have hop : q.masked.operation = q.operation.masked := rfl
  unfold compileCount
  rw [hop, hcheck]
  cases q.operation with
  | select columns =>
    simp only [Operation.masked, map_bind, map_pure, masked, List.map_append, hcondition]
    rfl
  | rpc function args =>
    simp only [Operation.masked, map_bind, map_pure, pure_bind, masked, List.map_append,
      map_masked_application, Value.maskAll_maskAll, hcondition]
    rfl
  | insert payload | upsert payload onConflict ignoreDuplicates | update pairs | delete => rfl

end Statement

/-- Two statements with the same text and as many values, or the same error. -/
def Statement.Agree : Except Error Statement → Except Error Statement → Prop
  | .ok s, .ok t => s.text = t.text ∧ s.values.length = t.values.length
  | .error e, .error f => e = f
  | _, _ => False

theorem Statement.agree_of_masked {x y : Except Error Statement}
    (h : x.map masked = y.map masked) : Agree x y := by
  cases x with
  | error e =>
    cases y with
    | error f =>
      cases h
      rfl
    | ok t => cases h
  | ok s =>
    cases y with
    | error f => cases h
    | ok t =>
      have hst : s.masked = t.masked := Except.ok.inj h
      have htext : s.text = t.text := by rw [← s.text_masked, hst, t.text_masked]
      have hlength : s.values.length = t.values.length := by
        rw [← s.length_values_masked, hst, t.length_values_masked]
      exact ⟨htext, hlength⟩

/-- **Values never influence the text of a statement**: queries that differ in bound values only
have the same text and as many values, or are refused with the same error. -/
theorem values_never_influence_text (safety : Safety) (q r : Query) (h : q.masked = r.masked) :
    Statement.Agree (Statement.compile safety q) (Statement.compile safety r) ∧
    ∀ mode, Statement.Agree (Statement.compileCount safety q mode)
      (Statement.compileCount safety r mode) := by
  constructor
  · apply Statement.agree_of_masked
    rw [← Statement.compile_masked, h, Statement.compile_masked]
  · intro mode
    apply Statement.agree_of_masked
    rw [← Statement.compileCount_masked, h, Statement.compileCount_masked]

/-- A row with one cell to be inserted. -/
def Query.insertion (cell : Json) : Query :=
  { schema := "public", table := "users", operation := .insert (.object [("name", cell)]) }

theorem values_never_influence_text_of_insertion :
    ∃ s t, Statement.compile {} (Query.insertion .null) = .ok s ∧
      Statement.compile {} (Query.insertion (.str "'); --")) = .ok t ∧ s.text = t.text := by
  obtain ⟨s, hs⟩ : ∃ s, Statement.compile {} (Query.insertion .null) = .ok s := ⟨_, rfl⟩
  obtain ⟨t, ht⟩ : ∃ t, Statement.compile {} (Query.insertion (.str "'); --")) = .ok t := ⟨_, rfl⟩
  have hagree := (values_never_influence_text {} (Query.insertion .null)
    (Query.insertion (.str "'); --")) rfl).1
  rw [hs, ht] at hagree
  exact ⟨s, t, hs, ht, hagree.1⟩

end QueryClient
