/-
  The rows that insertions add.

  * `rowsText` is the text that the rows of a payload come to, `textFrom_rowPieces`;
  * `Rows.ofPayload_singleton` and `Rows.ofPayload_insert_null`: payloads that have the same rows;
  * `rows_inserted`: where an insert or an upsert has a statement, every cell of its payload is
    bound at the place of its row and its column, and nothing else is.
-/
import QueryClient.Proofs.Statement.Counterpart
import Mathlib.Data.Nat.Notation

namespace QueryClient

/-! ## Texts of fragments -/

/-- A name between double quotes. -/
def quoted (name : String) : String := "\"" ++ name ++ "\""

/-- Texts with a comma and a space between them. -/
def listed (texts : List String) : String := ", ".intercalate texts

/-- The places of `count` values, behind `n` values that are bound before them. -/
def placeList (n count : ℕ) : String :=
  listed ((List.range' (n + 1) count).map fun k => "$" ++ toString k)

/-- The places of rows of cells, row after row, behind `n` values. -/
def placeGroups (n rows columns : ℕ) : String :=
  listed ((List.range rows).map fun i => "(" ++ placeList (n + i * columns) columns ++ ")")

/-- What an insertion begins with: its table, its columns and the places of its cells. -/
def rowsText (schema table : String) (columns : List String) (rows : ℕ) : String :=
  "INSERT INTO " ++ quoted schema ++ "." ++ quoted table ++ " (" ++ listed (columns.map quoted) ++
    ") VALUES " ++ placeGroups 0 rows columns.length

theorem toList_rowsText (schema table : String) (columns : List String) (rows : ℕ) :
    (rowsText schema table columns rows).toList = "INSERT INTO ".toList ++
      ((quoted schema ++ "." ++ quoted table).toList ++ (" ".toList ++
        ("(".toList ++ (listed (columns.map quoted)).toList ++ ")".toList ++ (" VALUES ".toList ++
          (placeGroups 0 rows columns.length).toList)))) := by
  -- the parts are any texts, and only the fixed ones are computed
  have hparts : ∀ s t names groups : String,
      ("INSERT INTO " ++ s ++ "." ++ t ++ " (" ++ names ++ ") VALUES " ++ groups).toList =
        "INSERT INTO ".toList ++ ((s ++ "." ++ t).toList ++ (" ".toList ++
          ("(".toList ++ names.toList ++ ")".toList ++ (" VALUES ".toList ++ groups.toList)))) := by
    intro s t names groups
    simp
  exact hparts (quoted schema) (quoted table) (listed (columns.map quoted))
    (placeGroups 0 rows columns.length)

theorem listed_cons_cons (s t : String) (texts : List String) :
    listed (s :: t :: texts) = s ++ ", " ++ listed (t :: texts) := by
  simp [listed]

/-- The first row comes before the others, which are numbered behind it. -/
theorem placeGroups_succ_succ (n rows columns : ℕ) :
    placeGroups n (rows + 2) columns =
      "(" ++ placeList n columns ++ ")" ++ ", " ++ placeGroups (n + columns) (rows + 1) columns := by
  have hshift : ∀ i, n + (i + 1) * columns = n + columns + i * columns := by
    intro i
    rw [Nat.succ_mul, Nat.add_assoc, Nat.add_comm columns]
  have hrows : placeGroups (n + columns) (rows + 1) columns =
      listed ((List.range (rows + 1)).map fun i =>
        "(" ++ placeList (n + (i + 1) * columns) columns ++ ")") := by
    simp only [placeGroups, hshift]
  rw [hrows, placeGroups, List.range_succ_eq_map, List.map_cons, List.map_map,
    List.range_succ_eq_map, List.map_cons, List.map_cons, listed_cons_cons]
  simp [Function.comp_def]

theorem Ident.toList_quoted (i : Ident) : (QueryClient.quoted i.name).toList = i.quoted := by
  simp [QueryClient.quoted, Ident.quoted]

namespace Piece

theorem textFrom_name (n : ℕ) (i : Ident) (rest : List Piece) :
    textFrom n (name i :: rest) = (quoted i.name).toList ++ textFrom n rest := by
  rw [Ident.toList_quoted]
  rfl

theorem textFrom_bind (n : ℕ) (v : Value) (rest : List Piece) :
    textFrom n (bind v :: rest) = ("$" ++ toString (n + 1)).toList ++ textFrom (n + 1) rest := by
  have hnumeral : (toString (n + 1)).toList = Nat.toDigits 10 (n + 1) := String.toList_ofList
  rw [String.toList_append, hnumeral]
  rfl

/-- Of two items between which a comma stands, the second is numbered behind the first. -/
theorem textFrom_commas_cons_cons (n : ℕ) (x y : List Piece) (items : List (List Piece)) :
    textFrom n (commas (x :: y :: items)) = textFrom n x ++ ", ".toList ++
      textFrom (n + (boundValues x).length) (commas (y :: items)) := by
  have hcommas : commas (x :: y :: items) =
      x ++ ([symbol .comma, space] ++ commas (y :: items)) := by
    rw [commas, List.intercalate_cons_cons, List.append_assoc]
    rfl
  rw [hcommas, textFrom_append, List.append_assoc]
  rfl

theorem textFrom_commas_singleton (n : ℕ) (x : List Piece) :
    textFrom n (commas [x]) = textFrom n x := by
  rw [commas, List.intercalate_singleton]

/-- Items that bind nothing are written alike wherever they stand. -/
theorem textFrom_commas_map {α : Type} {f : α → List Piece} {t : α → String}
    (hf : ∀ a n, textFrom n (f a) = (t a).toList) (hbinds : ∀ a, boundValues (f a) = [])
    (n : ℕ) (items : List α) :
    textFrom n (commas (items.map f)) = (listed (items.map t)).toList := by
  induction items with
  | nil => simp [commas, listed, textFrom]
  | cons a items ih =>
    cases items with
    | nil =>
      rw [List.map_singleton, textFrom_commas_singleton, hf]
      simp [listed]
    | cons b items =>
      rw [List.map_cons, List.map_cons] at ih
      rw [List.map_cons, List.map_cons, textFrom_commas_cons_cons, hf, hbinds, List.length_nil,
        Nat.add_zero, ih, List.map_cons, List.map_cons, listed_cons_cons]
      simp only [String.toList_append]

theorem textFrom_names (n : ℕ) (columns : List Ident) :
    textFrom n (names columns) = (listed (columns.map fun c => quoted c.name)).toList :=
  textFrom_commas_map
    (fun c n => by rw [textFrom_name, textFrom, List.append_nil])
    (fun _ => rfl) n columns

theorem textFrom_binds (n : ℕ) (values : List Value) :
    textFrom n (binds values) = (placeList n values.length).toList := by
  induction values generalizing n with
  | nil => simp [binds, commas, placeList, listed, textFrom]
  | cons v values ih =>
    cases values with
    | nil =>
      rw [binds, List.map_singleton, textFrom_commas_singleton, textFrom_bind]
      simp [placeList, listed, textFrom]
    | cons w values =>
      have htail : textFrom (n + 1) (commas ([bind w] :: values.map fun v => [bind v])) =
          (listed (("$" ++ toString (n + 2)) ::
            (List.range' (n + 3) values.length).map fun k => "$" ++ toString k)).toList := ih (n + 1)
      rw [binds, List.map_cons, List.map_cons, textFrom_commas_cons_cons, textFrom_bind, placeList,
        List.length_cons, List.length_cons, List.range'_succ, List.range'_succ, List.map_cons,
        List.map_cons, listed_cons_cons]
      simp only [boundValues_bind, boundValues_nil, List.length_singleton, htail, textFrom,
        String.toList_append, List.append_nil]

theorem textFrom_inParens (n : ℕ) (pieces : List Piece) :
    textFrom n (inParens pieces) = "(".toList ++ textFrom n pieces ++ ")".toList := by
  have hparens : inParens pieces = [symbol .opening] ++ pieces ++ [symbol .closing] := rfl
  rw [hparens, textFrom_append, textFrom_append]
  rfl

/-- Rows of cells are numbered one behind the other. -/
theorem textFrom_groups (n columns : ℕ) (rows : List (List Value))
    (h : ∀ row ∈ rows, row.length = columns) :
    textFrom n (commas (rows.map fun row => inParens (binds row))) =
      (placeGroups n rows.length columns).toList := by
  induction rows generalizing n with
  | nil => simp [commas, placeGroups, listed, textFrom]
  | cons row rows ih =>
    obtain ⟨hrow, hrows⟩ := List.forall_mem_cons.1 h
    cases rows with
    | nil =>
      rw [List.map_singleton, textFrom_commas_singleton, textFrom_inParens, textFrom_binds, hrow]
      simp [placeGroups, listed]
    | cons row' rows =>
      have htail := ih (n + columns) hrows
      rw [List.map_cons] at htail
      rw [List.map_cons, List.map_cons, textFrom_commas_cons_cons, textFrom_inParens,
        textFrom_binds, boundValues_inParens, boundValues_binds, hrow, htail, List.length_cons,
        List.length_cons, List.length_cons, placeGroups_succ_succ]
      simp [String.toList_append]

/-- The text of the rows of an insertion. -/
theorem textFrom_rowPieces (schema table : Ident) (rows : Rows)
    (h : ∀ row ∈ rows.rows, row.length = rows.columns.length) :
    textFrom 0 (Statement.rowPieces schema table rows) =
      (rowsText schema.name table.name (rows.columns.map Ident.name) rows.rows.length).toList := by
  have htarget : textFrom 0 (Statement.target schema table) =
      (quoted schema.name ++ "." ++ quoted table.name).toList := by
    rw [Statement.target, textFrom_name]
    simp only [textFrom, Ident.toList_quoted, String.toList_append, List.append_assoc,
      List.append_nil, text]
    rfl
  have hinto : textFrom 0 (phrase [.insert, .into] ++ [space]) = "INSERT INTO ".toList := rfl
  have hvalues : textFrom 0 (clause [.values]) = " VALUES ".toList := rfl
  have hpieces : Statement.rowPieces schema table rows =
      (phrase [.insert, .into] ++ [space]) ++ (Statement.target schema table ++ ([space] ++
        (inParens (names rows.columns) ++ (clause [.values] ++
          commas (rows.rows.map fun row => inParens (binds row)))))) := by
    simp [Statement.rowPieces]
  have hspace : textFrom 0 [space] = " ".toList := rfl
  have hbinds : boundValues (phrase [.insert, .into] ++ [space]) = [] := by simp
  have hnames : (rows.columns.map Ident.name).map quoted = rows.columns.map fun c => quoted c.name :=
    List.map_map
  rw [hpieces, textFrom_append, hinto, hbinds, textFrom_append, List.length_nil, Nat.add_zero,
    htarget, boundValues_target, textFrom_append, List.length_nil, Nat.add_zero, hspace,
    boundValues_space, textFrom_append, boundValues_nil, List.length_nil, Nat.add_zero,
    textFrom_inParens, textFrom_names, boundValues_inParens, boundValues_names, textFrom_append,
    List.length_nil, Nat.add_zero, hvalues, boundValues_clause, List.length_nil, Nat.add_zero,
    textFrom_groups 0 rows.columns.length rows.rows h]
  rw [toList_rowsText, hnames, List.length_map]

end Piece

/-! ## Rows of a payload -/

/-- Cells that are laid out row after row are found by their row and their column. -/
theorem getElem?_flatMap_map {α β γ : Type} {f : α → β → γ} {rows : List α} {columns : List β}
    {row : α} {column : β} {i j : ℕ} (hrow : rows[i]? = some row)
    (hcolumn : columns[j]? = some column) :
    (rows.flatMap fun r => columns.map (f r))[i * columns.length + j]? = some (f row column) := by
  have hj : j < columns.length := (List.getElem?_eq_some_iff.1 hcolumn).1
  have hlength : ∀ r, (columns.map (f r)).length = columns.length := fun r => List.length_map _
  induction rows generalizing i with
  | nil => cases hrow
  | cons r rows ih =>
    rw [List.flatMap_cons]
    cases i with
    | zero =>
      obtain rfl : r = row := Option.some.inj hrow
      rw [Nat.zero_mul, Nat.zero_add, List.getElem?_append_left ((hlength r).symm ▸ hj),
        List.getElem?_map, hcolumn, Option.map_some]
    | succ i =>
      have hplace : (i + 1) * columns.length + j = columns.length + (i * columns.length + j) := by
        rw [Nat.succ_mul]
        omega
      rw [hplace, List.getElem?_append_right (by rw [hlength]; omega), hlength,
        Nat.add_sub_cancel_left]
      exact ih hrow

theorem length_flatMap_map {α β γ : Type} (f : α → β → γ) (rows : List α) (columns : List β) :
    (rows.flatMap fun r => columns.map (f r)).length = rows.length * columns.length := by
  simp [List.length_flatMap]

namespace Fields

theorem get?_cons (k key : String) (value : Json) (fields : Fields) :
    get? ((k, value) :: fields) key = if k = key then some value else get? fields key := by
  by_cases h : k = key <;> simp [get?, h]

theorem get?_insert (fields : Fields) (k key : String) (value : Json) :
    (fields.insert k value).get? key = if k = key then some value else fields.get? key := by
  induction fields with
  | nil => rw [insert, get?_cons]
  | cons field fields ih =>
    obtain ⟨k', v⟩ := field
    rw [insert]
    by_cases hlt : k < k'
    · rw [if_pos hlt, get?_cons]
    by_cases heq : k = k'
    · rw [if_neg hlt, if_pos heq, get?_cons, get?_cons, ← heq]
      split_ifs <;> rfl
    · rw [if_neg hlt, if_neg heq, get?_cons, get?_cons, ih]
      by_cases hkey : k = key
      · rw [if_neg fun h => heq (hkey.trans h.symm), if_pos hkey, if_pos hkey]
      · rw [if_neg hkey, if_neg hkey]

/-- A search that passes over a key does not notice that the key is there. -/
theorem find?_keys_insert {p : String → Bool} {key : String} (hkey : p key = false)
    (fields : Fields) (value : Json) : (fields.insert key value).keys.find? p = fields.keys.find? p := by
  induction fields with
  | nil => simp [insert, keys, hkey]
  | cons field fields ih =>
    obtain ⟨k, v⟩ := field
    have hkeys : ∀ (k : String) (v : Json) (rest : Fields), keys ((k, v) :: rest) = k :: keys rest :=
      fun _ _ _ => rfl
    rw [insert]
    split_ifs with hlt heq
    · rw [hkeys, List.find?_cons_of_neg (by rw [hkey]; exact Bool.false_ne_true)]
    · rw [hkeys, hkeys, ← heq, List.find?_cons_of_neg (by rw [hkey]; exact Bool.false_ne_true)]
    · rw [hkeys, hkeys, List.find?_cons, List.find?_cons, ih]

end Fields

theorem Json.HasRows.rows_eq {payload : Json} {rows : List Fields} (h : payload.HasRows rows) :
    payload.rows = rows := by
  cases h with
  | one row => rfl
  | many rows => exact Json.rows_map_obj rows

namespace Rows

variable {safety : Safety} {what key : String} {first row : Fields}

theorem map_name_columns {payload : Json} {rows : Rows}
    (h : ofPayload safety what payload = .ok rows) :
    rows.columns.map Ident.name = payload.columns := by
  have hnames := map_eq_of_forall₂ (f := id) (g := Ident.name)
    ((ofPayload_ok h).1.imp fun key c hc => (Ident.parse_ok hc).symm)
  rw [← hnames, List.map_id]

theorem ofPayload_singleton (safety : Safety) (what : String) (row : Fields) :
    ofPayload safety what (.obj row) = ofPayload safety what (.arr [.obj row]) := rfl

/-- A key that a row lacks has the same cell as one with a null. -/
theorem cell_insert_null (h : row.get? key = none) (k : String) :
    cell (row.insert key .null) k = cell row k := by
  rw [cell, cell, Fields.get?_insert]
  split_ifs with hk
  · rw [← hk, h]
    rfl
  · rfl

theorem checkKeys_insert_null (h : key ∈ first.keys) (row : Fields) (i : ℕ) :
    checkKeys what first (row.insert key .null, i) = checkKeys what first (row, i) := by
  have hhas : (first.get? key).isNone = false := by
    rw [← Option.not_isSome, Fields.isSome_get?_iff.2 h]
    rfl
  unfold checkKeys
  rw [Fields.find?_keys_insert hhas]

theorem forM_checkKeys_insert_null (h : key ∈ first.keys) (front back : List Fields) (i : ℕ) :
    ((front ++ row.insert key .null :: back).zipIdx i).forM (checkKeys what first) =
      ((front ++ row :: back).zipIdx i).forM (checkKeys what first) := by
  have hcons : ∀ (x : Fields × ℕ) xs, (x :: xs).forM (checkKeys what first) =
      (checkKeys what first x >>= fun _ => xs.forM (checkKeys what first)) := fun _ _ => rfl
  induction front generalizing i with
  | nil =>
    rw [List.nil_append, List.nil_append, List.zipIdx_cons, List.zipIdx_cons, hcons, hcons,
      checkKeys_insert_null h]
  | cons r front ih =>
    rw [List.cons_append, List.cons_append, List.zipIdx_cons, List.zipIdx_cons, hcons, hcons,
      ih (i + 1)]

/-- The rows of an array but for one of them are read without regard to that one. -/
theorem objects_middle (what : String) (first : Fields) (before after : List Json) :
    ∃ fronts backs : Except Error (List Fields), ∀ row,
      objects what (.arr (.obj first :: before ++ .obj row :: after)) =
        fronts >>= fun front => backs >>= fun back => pure (first :: front ++ row :: back) := by
  obtain ⟨f, hobj, hf⟩ : ∃ f : Json × ℕ → Except Error Fields,
      (∀ row i, f (.obj row, i) = pure row) ∧
      ∀ items, objects what (.arr items) = items.zipIdx.mapM f :=
    ⟨_, fun _ _ => rfl, fun _ => rfl⟩
  refine ⟨(before.zipIdx 1).mapM f, (after.zipIdx (1 + before.length + 1)).mapM f, fun row => ?_⟩
  rw [hf, List.cons_append, List.zipIdx_cons, List.mapM_cons, hobj, List.zipIdx_append,
    List.zipIdx_cons, List.mapM_append, List.mapM_cons, hobj]
  simp only [pure_bind, bind_assoc, List.cons_append]

/-- **A later row may state the nulls that it would have anyway.** -/
theorem ofPayload_insert_null (safety : Safety) (what : String) (before after : List Json)
    (hkey : key ∈ first.keys) (hrow : row.get? key = none) :
    ofPayload safety what (.arr (.obj first :: before ++ .obj (row.insert key .null) :: after)) =
      ofPayload safety what (.arr (.obj first :: before ++ .obj row :: after)) := by
  obtain ⟨fronts, backs, hobjects⟩ := objects_middle what first before after
  have hcells : first.keys.map (cell (row.insert key .null)) = first.keys.map (cell row) :=
    List.map_congr_left fun k _ => cell_insert_null hrow k
  unfold ofPayload
  rw [hobjects, hobjects]
  simp only [bind_assoc, pure_bind]
  refine bind_congr fun front => bind_congr fun back => ?_
  have hchecks : ((first :: front ++ row.insert key .null :: back).zipIdx 0).forM
      (checkKeys what first) = ((first :: front ++ row :: back).zipIdx 0).forM
        (checkKeys what first) := forM_checkKeys_insert_null hkey (first :: front) back 0
  rw [List.cons_append, List.cons_append] at hchecks
  dsimp only [List.cons_append]
  rw [hchecks]
  simp only [List.map_append, List.map_cons, hcells, List.length_append, List.length_cons]

end Rows

/-! ## Statements -/

namespace Operation

/-- An insertion of other rows; other operations have none. -/
def withPayload (payload : Json) : Operation → Operation
  | .insert _ => .insert payload
  | .upsert _ onConflict ignoreDuplicates => .upsert payload onConflict ignoreDuplicates
  | operation => operation

end Operation

/-- The query with other rows to insert. -/
def Query.inserting (q : Query) (payload : Json) : Query :=
  { q with operation := q.operation.withPayload payload }

open Statement Piece

/-- Payloads with the same rows make the same statements. -/
theorem compile_inserting_congr {safety : Safety} {payload payload' : Json}
    (h : ∀ what, Rows.ofPayload safety what payload = Rows.ofPayload safety what payload')
    (q : Query) : compile safety (q.inserting payload) = compile safety (q.inserting payload') := by
  have hparts : checkParts (q.inserting payload) = checkParts (q.inserting payload') := by
    unfold Query.inserting
    cases q.operation <;> rfl
  have hpieces : ∀ schema, compileIn safety (q.inserting payload) schema =
      compileIn safety (q.inserting payload') schema := by
    intro schema
    unfold Query.inserting compileIn
    cases q.operation <;> simp only [Operation.withPayload, h]
  have herror : checkError (q.inserting payload) = checkError (q.inserting payload') := rfl
  unfold compile
  simp only [hparts, hpieces, herror]
  rfl

/-- What an insertion of some rows says and binds: their columns, a place for every cell of every
row, and at the place of a row and a column the value that the row has there, or null. -/
structure InsertsRows (safety : Safety) (q : Query) (rows : List Fields) (columns : List String)
    (s : Statement) : Prop where
  text : ∃ tail, s.text = rowsText q.schema q.table columns rows.length ++ tail ∧
    '$' ∉ tail.toList
  cells : ∀ (i j : ℕ) (row : Fields) (column : String),
    rows[i]? = some row → columns[j]? = some column →
    s.values[i * columns.length + j]? = some (match row.get? column with
      | some value => .ofJson value
      | none => .null)
  count : s.values.length = rows.length * columns.length
  bounded : rows.length * columns.length ≤ safety.maxTotalParams
  /-- No key of a row is without a column. -/
  complete : ∀ row ∈ rows, ∀ key ∈ row.keys, key ∈ columns

theorem Piece.dollar_notMem_textFrom {pieces : List Piece} (h : boundValues pieces = []) (n : ℕ) :
    '$' ∉ textFrom n pieces := by
  induction pieces with
  | nil => exact List.not_mem_nil
  | cons p rest ih =>
    cases hv : p.value? with
    | none =>
      rw [boundValues, List.filterMap_cons_none hv] at h
      rw [textFrom, hv, List.mem_append, not_or]
      exact ⟨dollar_notMem_text hv n, ih h⟩
    | some v =>
      rw [boundValues, List.filterMap_cons_some hv] at h
      cases h

/-- A statement that begins with the rows of a payload inserts them. -/
theorem insertsRows_of_pieces {safety : Safety} {q : Query} {what : String} {payload : Json}
    {schema table : Ident} {rows : Rows} {tail : List Piece} {s : Statement}
    (hschema : Ident.parse .schema q.schema = .ok schema)
    (htable : Ident.parse .table q.table = .ok table)
    (hrows : Rows.ofPayload safety what payload = .ok rows)
    (hpieces : s.pieces = rowPieces schema table rows ++ tail) (htail : boundValues tail = []) :
    ∃ first rest, payload.HasRows (first :: rest) ∧
      InsertsRows safety q (first :: rest) (Fields.keys first) s := by
  obtain ⟨first, rest, hhas, hinsertable⟩ := Rows.exists_ofPayload_iff.1 ⟨rows, hrows⟩
  obtain ⟨hnames, hcells⟩ := Rows.ofPayload_ok hrows
  have hall : payload.rows = first :: rest := hhas.rows_eq
  have hcolumns : payload.columns = Fields.keys first := by
    rw [Json.columns, hall]
    rfl
  rw [hall, hcolumns] at hcells
  rw [hcolumns] at hnames
  have hlength : first.keys.length = rows.columns.length := hnames.length_eq
  have hnamed : rows.columns.map Ident.name = first.keys :=
    (Rows.map_name_columns hrows).trans hcolumns
  have hvalues : s.values = (first :: rest).flatMap fun row => first.keys.map (Rows.cell row) := by
    rw [Statement.values, hpieces, boundValues_append, htail, List.append_nil,
      boundValues_rowPieces, hcells, List.flatMap_def]
  have hwidth : ∀ row ∈ rows.rows, row.length = rows.columns.length := by
    intro row hrow
    rw [hcells] at hrow
    obtain ⟨r, -, rfl⟩ := List.mem_map.1 hrow
    rw [List.length_map, hlength]
  refine ⟨first, rest, hhas, ?_, ?_, ?_, ?_, ?_⟩
  · refine ⟨String.ofList (textFrom (0 + (boundValues (rowPieces schema table rows)).length) tail),
      ?_, ?_⟩
    · rw [Statement.text, hpieces, textFrom_append, textFrom_rowPieces schema table rows hwidth,
        hnamed, Ident.parse_ok hschema, Ident.parse_ok htable, hcells, List.length_map,
        String.ofList_append, String.ofList_toList]
    · rw [String.toList_ofList]
      exact dollar_notMem_textFrom htail _
  · intro i j row column hrow hcolumn
    rw [hvalues, getElem?_flatMap_map hrow hcolumn, Rows.cell]
    cases row.get? column <;> rfl
  · rw [hvalues, length_flatMap_map]
  · exact hinsertable.bounded
  · exact List.forall_mem_cons.2 ⟨fun _ => id, hinsertable.covered⟩

/-- **The rows that insertions add.**  Every statement of an insert or an upsert binds the cells of
the rows of its payload where its text has the places for them; one row alone counts as an array
of one row, and a key that a later row lacks counts as a null. -/
theorem rows_inserted (safety : Safety) (q : Query) :
    (∀ payload s, q.operation.payload? = some payload → compile safety q = .ok s →
      ∃ first rest, payload.HasRows (first :: rest) ∧
        InsertsRows safety q (first :: rest) (Fields.keys first) s) ∧
    (∀ row, compile safety (q.inserting (.obj row)) = compile safety (q.inserting (.arr [.obj row]))) ∧
    ∀ (first : Fields) (before : List Json) (row : Fields) (after : List Json) (key : String),
      key ∈ first.keys → row.get? key = none →
      compile safety (q.inserting
          (.arr (.obj first :: before ++ .obj (row.insert key .null) :: after))) =
        compile safety (q.inserting (.arr (.obj first :: before ++ .obj row :: after))) := by
  refine ⟨?_, ?_, ?_⟩
  · intro payload s hpayload hs
    have hcompiled := compiled_of_compile hs
    generalize hpieces : s.pieces = pieces at hcompiled
    cases hcompiled with
    | insert hop hschema htable hrows _ =>
      rw [hop] at hpayload
      cases hpayload
      exact insertsRows_of_pieces hschema htable hrows hpieces (boundValues_giveBack _)
    | upsert hop hschema htable hrows _ _ =>
      rw [hop] at hpayload
      cases hpayload
      rw [List.append_assoc] at hpieces
      refine insertsRows_of_pieces hschema htable hrows hpieces ?_
      rw [boundValues_append, boundValues_resolution, boundValues_giveBack, List.append_nil]
    | _ hop =>
      rw [hop] at hpayload
      cases hpayload
  · intro row
    exact compile_inserting_congr (fun what => Rows.ofPayload_singleton safety what row) q
  · intro first before row after key hkey hrow
    exact compile_inserting_congr
      (fun what => Rows.ofPayload_insert_null safety what before after hkey hrow) q

/-- Two rows, the second of which lacks a column of the first. -/
def Query.twoRows : Query :=
  { schema := "public", table := "users",
    operation := .insert (.arr [.obj [("age", .int 7), ("name", .str "ann")], .obj [("age", .int 9)]]) }

theorem rows_inserted_of_two_rows : ∃ s, compile {} Query.twoRows = .ok s ∧
    s.values.length = 4 ∧ s.values[2]? = some (.int 9) ∧ s.values[3]? = some .null ∧
    compile {} (Query.twoRows.inserting (.arr [.obj [("age", .int 7), ("name", .str "ann")],
      .obj [("age", .int 9), ("name", .null)]])) = .ok s := by
  obtain ⟨s, hs⟩ : ∃ s, compile {} Query.twoRows = .ok s := ⟨_, rfl⟩
  obtain ⟨hinserts, -, hnull⟩ := rows_inserted {} Query.twoRows
  obtain ⟨first, rest, hrows, h⟩ := hinserts _ s rfl hs
  have hall : [[("age", Json.int 7), ("name", .str "ann")], [("age", .int 9)]] = first :: rest :=
    hrows.rows_eq
  cases hall
  refine ⟨s, hs, h.count, h.cells 1 0 _ "age" rfl rfl, h.cells 1 1 _ "name" rfl rfl, ?_⟩
  exact (hnull [("age", .int 7), ("name", .str "ann")] [] [("age", .int 9)] [] "name" (by decide)
    rfl).trans hs

end QueryClient
