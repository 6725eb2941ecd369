/-
  What upserts do on a conflict.

  * `conflictText` says by which columns conflicts are found, and either that nothing is done or
    which columns are overwritten: those of the rows by which no conflict is found;
  * `compile_insert_of_upsert`: where an upsert has a statement, so has the insert of its rows;
  * `upsert_resolves_conflicts`: the former is the latter with that text behind it.
-/
import QueryClient.Proofs.Statement.Insertion

namespace QueryClient

open Statement Piece

/-! ## Texts -/

/-- The columns that an upsert overwrites on a conflict. -/
def overwritten (columns conflict : List String) : List String := columns.filter (· ∉ conflict)

/-- What is done on a conflict. -/
def conflictAction (columns conflict : List String) (ignoreDuplicates : Bool) : String :=
  if ignoreDuplicates ∨ ∀ column ∈ columns, column ∈ conflict then "DO NOTHING"
  else "DO UPDATE SET " ++
    listed ((overwritten columns conflict).map fun c => quoted c ++ " = EXCLUDED." ++ quoted c)

/-- By which columns conflicts are found, and what is done then. -/
def conflictText (columns conflict : List String) (ignoreDuplicates : Bool) : String :=
  " ON CONFLICT " ++
    (if conflict = [] then "" else "(" ++ listed (conflict.map quoted) ++ ") ") ++
    conflictAction columns conflict ignoreDuplicates

/-- What a statement ends with that gives columns back. -/
def returningText : Option ColumnList → String
  | none => ""
  | some .all => " RETURNING *"
  | some (.only columns) => " RETURNING " ++ listed (columns.map fun c => quoted c.name)

namespace Ident

theorem name_injective : Function.Injective Ident.name := by
  rintro ⟨name, _⟩ ⟨_, _⟩ rfl
  rfl

theorem name_mem_map {c : Ident} {columns : List Ident} :
    c.name ∈ columns.map Ident.name ↔ c ∈ columns :=
  List.mem_map_of_injective name_injective

/-- Identifiers are told apart by their names. -/
theorem filter_map_name (columns conflict : List Ident) :
    overwritten (columns.map Ident.name) (conflict.map Ident.name) =
      (columns.filter (· ∉ conflict)).map Ident.name := by
  rw [overwritten, List.filter_map]
  simp only [Function.comp_def, name_mem_map]

end Ident

theorem overwritten_eq_nil_iff {columns conflict : List String} :
    overwritten columns conflict = [] ↔ ∀ column ∈ columns, column ∈ conflict := by
  simp [overwritten, List.filter_eq_nil_iff]

namespace Piece

theorem textFrom_assignment (c : Ident) (n : ℕ) :
    textFrom n [name c, space, symbol .equal, space, word .excluded, symbol .dot, name c] =
      (quoted c.name ++ " = EXCLUDED." ++ quoted c.name).toList := by
  have hfixed : " = EXCLUDED.".toList = [' '] ++ ("=".toList ++ ([' '] ++ ("EXCLUDED".toList ++
    ".".toList))) := rfl
  rw [textFrom_name, String.toList_append, String.toList_append, Ident.toList_quoted, hfixed]
  simp only [textFrom, text, List.append_assoc, List.append_nil]
  rfl

/-- The conflict columns of a resolution, where it states any. -/
theorem textFrom_conflictTarget (n : ℕ) (conflict : List Ident) :
    textFrom n (if conflict.isEmpty then [] else inParens (names conflict) ++ [space]) =
      (if conflict.map Ident.name = [] then ""
        else "(" ++ listed ((conflict.map Ident.name).map quoted) ++ ") ").toList := by
  cases conflict with
  | nil => rfl
  | cons c conflict =>
    have hclosing : ") ".toList = ")".toList ++ [' '] := rfl
    rw [if_neg (by simp), if_neg (by simp), textFrom_append, textFrom_inParens, textFrom_names,
      List.map_map, String.toList_append, String.toList_append, hclosing]
    simp only [Function.comp_def, List.append_assoc]
    rfl

/-- What a resolution does. -/
theorem textFrom_conflictAction (n : ℕ) (columns conflict : List Ident) (ignoreDuplicates : Bool) :
    textFrom n
        (if ignoreDuplicates || (columns.filter (· ∉ conflict)).isEmpty then
          phrase [.doWord, .nothing]
        else phrase [.doWord, .update, .setWord] ++ space ::
          commas ((columns.filter (· ∉ conflict)).map fun c =>
            [name c, space, symbol .equal, space, word .excluded, symbol .dot, name c])) =
      (conflictAction (columns.map Ident.name) (conflict.map Ident.name)
        ignoreDuplicates).toList := by
  have hnames := Ident.filter_map_name columns conflict
  have hnothing : (ignoreDuplicates || (columns.filter (· ∉ conflict)).isEmpty) ↔
      (ignoreDuplicates ∨ ∀ c ∈ columns.map Ident.name, c ∈ conflict.map Ident.name) := by
    rw [← overwritten_eq_nil_iff, hnames, List.map_eq_nil_iff, Bool.or_eq_true, List.isEmpty_iff]
  unfold conflictAction
  by_cases h : ignoreDuplicates || (columns.filter (· ∉ conflict)).isEmpty
  · rw [if_pos h, if_pos (hnothing.1 h)]
    rfl
  · have hset : ∀ items, phrase [.doWord, .update, .setWord] ++ space :: items =
        (phrase [.doWord, .update, .setWord] ++ [space]) ++ items := by simp
    rw [if_neg h, if_neg fun h' => h (hnothing.2 h'), hnames, hset, textFrom_append,
      textFrom_commas_map (fun c n => textFrom_assignment c n) (fun _ => rfl), List.map_map,
      String.toList_append]
    rfl

theorem textFrom_resolution (n : ℕ) (columns conflict : List Ident) (ignoreDuplicates : Bool) :
    textFrom n (resolution columns conflict ignoreDuplicates) =
      (conflictText (columns.map Ident.name) (conflict.map Ident.name) ignoreDuplicates).toList := by
  unfold resolution
  dsimp only
  rw [textFrom_append, textFrom_append, textFrom_conflictTarget, textFrom_conflictAction,
    conflictText, String.toList_append, String.toList_append]
  rfl

theorem textFrom_giveBack (n : ℕ) (returning : Option ColumnList) :
    textFrom n (giveBack returning) = (returningText returning).toList := by
  cases returning with
  | none => rfl
  | some columns =>
    cases columns with
    | all => rfl
    | only columns =>
      have hpieces : giveBack (some (.only columns)) = clause [.returning] ++ names columns := rfl
      rw [hpieces, textFrom_append, textFrom_names, returningText, String.toList_append]
      rfl

end Piece

/-! ## Statements -/

/-- The rows of a payload are the same whatever is done with them. -/
theorem Rows.ofPayload_eq_ok {safety : Safety} {what : String} {payload : Json} {rows : Rows}
    (h : Rows.ofPayload safety what payload = .ok rows) (what' : String) :
    Rows.ofPayload safety what' payload = .ok rows := by
  obtain ⟨rows', h'⟩ : ∃ rows', Rows.ofPayload safety what' payload = .ok rows' :=
    Rows.exists_ofPayload_iff.2 (Rows.exists_ofPayload_iff.1 ⟨rows, h⟩)
  have hcolumns : rows'.columns = rows.columns :=
    List.map_injective_iff.2 Ident.name_injective
      ((Rows.map_name_columns h').trans (Rows.map_name_columns h).symm)
  have hrows : rows'.rows = rows.rows :=
    (Rows.ofPayload_ok h').2.trans (Rows.ofPayload_ok h).2.symm
  obtain ⟨columns, cells⟩ := rows'
  obtain ⟨columns', cells'⟩ := rows
  obtain rfl : columns = columns' := hcolumns
  obtain rfl : cells = cells' := hrows
  exact h'

theorem Statement.map_name_conflictColumns {onConflict : List String} {ignoreDuplicates : Bool}
    {conflict : List Ident} (h : conflictColumns onConflict ignoreDuplicates = .ok conflict) :
    conflict.map Ident.name = onConflict.map Text.trim := by
  unfold conflictColumns at h
  obtain ⟨columns, hcolumns, h⟩ := bind_eq_ok.1 h
  split_ifs at h
  cases h
  exact (map_eq_of_forall₂
    ((mapM_forall₂ hcolumns).imp fun column c hc => (Ident.parse_ok hc).symm)).symm

/-- The query with an upsert of some rows. -/
def Query.upserting (q : Query) (payload : Json) (onConflict : List String)
    (ignoreDuplicates : Bool) : Query :=
  { q with operation := .upsert payload onConflict ignoreDuplicates }

/-- The query with an insert of some rows that gives nothing back. -/
def Query.insertingOnly (q : Query) (payload : Json) : Query :=
  { q with operation := .insert payload, returning := none }

section
variable {safety : Safety} {q : Query} {payload : Json} {onConflict : List String}
  {ignoreDuplicates : Bool} {s : Statement}

/-- Where an upsert has a statement, so has the insert of its rows, with which it begins. -/
theorem compile_insert_of_upsert
    (h : compile safety (q.upserting payload onConflict ignoreDuplicates) = .ok s) :
    ∃ insert columns conflict returning,
      compile safety (q.insertingOnly payload) = .ok insert ∧
      columns.map Ident.name = payload.columns ∧
      conflict.map Ident.name = onConflict.map Text.trim ∧
      q.returning.mapM ColumnList.parse = (.ok returning : Except Error _) ∧
      s.pieces = insert.pieces ++ resolution columns conflict ignoreDuplicates ++
        giveBack returning := by
  have hcompiled := compiled_of_compile h
  unfold compile at h
  obtain ⟨⟨⟩, herror, h⟩ := bind_eq_ok.1 h
  obtain ⟨⟨⟩, hparts, -⟩ := bind_eq_ok.1 h
  generalize hpieces : s.pieces = pieces at hcompiled
  cases hcompiled with
  | @upsert _ _ _ schema table rows conflict returning hop hschema htable hrows hconflict hback =>
    cases hop
    refine ⟨⟨rowPieces schema table rows⟩, rows.columns, conflict, returning, ?_,
      Rows.map_name_columns hrows, map_name_conflictColumns hconflict, hback, rfl⟩
    have hparts' : checkParts (q.insertingOnly payload) = .ok () := by
      rw [checkParts_eq_ok_iff] at hparts ⊢
      exact ⟨fun _ => hparts.1 rfl, fun _ => hparts.2.1 rfl, fun h => (nomatch h)⟩
    have herror' : checkError (q.insertingOnly payload) = .ok () := herror
    have hpieces' : compileIn safety (q.insertingOnly payload) schema =
        .ok (rowPieces schema table rows) := by
      change (Ident.parse .table q.table >>= fun table =>
        Rows.ofPayload safety "Insert" payload >>= fun rows =>
        pure (rowPieces schema table rows ++ [])) = _
      change Ident.parse .table q.table = .ok table at htable
      rw [htable, Rows.ofPayload_eq_ok hrows "Insert"]
      exact congrArg Except.ok (List.append_nil _)
    change Ident.parse .schema (q.insertingOnly payload).schema = .ok schema at hschema
    unfold compile
    rw [herror', hparts', hschema]
    change (compileIn safety (q.insertingOnly payload) schema >>= fun pieces =>
      pure (Statement.mk pieces)) = _
    rw [hpieces']
    rfl
  | _ hop => cases hop

/-- **What upserts do on a conflict.**  The statement of an upsert is that of the insert of its
rows, followed by the conflict columns, without blanks around them, and what is done: nothing, if
duplicates are ignored or if all columns of the rows are conflict columns, and otherwise every
other column is overwritten, in the order of the columns.  It binds no further values. -/
theorem upsert_resolves_conflicts
    (h : compile safety (q.upserting payload onConflict ignoreDuplicates) = .ok s) :
    ∃ insert returning, compile safety (q.insertingOnly payload) = .ok insert ∧
      q.returning.mapM ColumnList.parse = (.ok returning : Except Error _) ∧
      s.text = insert.text ++
        conflictText payload.columns (onConflict.map Text.trim) ignoreDuplicates ++
        returningText returning ∧
      s.values = insert.values := by
  obtain ⟨insert, columns, conflict, returning, hinsert, hcolumns, hconflict, hback, hpieces⟩ :=
    compile_insert_of_upsert h
  refine ⟨insert, returning, hinsert, hback, ?_, ?_⟩
  · rw [Statement.text, hpieces, textFrom_append, textFrom_append, textFrom_resolution,
      textFrom_giveBack, hcolumns, hconflict, String.ofList_append, String.ofList_append,
      String.ofList_toList, String.ofList_toList]
    rfl
  · rw [Statement.values, hpieces, boundValues_append, boundValues_append, boundValues_resolution,
      boundValues_giveBack, List.append_nil, List.append_nil]
    rfl

end

/-- A table whose rows are replaced. -/
def Query.replaced : Query := { schema := "public", table := "users" }

theorem upsert_resolves_conflicts_of_replaced : ∃ s insert,
    compile {} (Query.replaced.upserting (.obj [("age", .int 7), ("id", .int 1), ("name", .null)])
      [" id "] false) = .ok s ∧
    s.text = insert ++
      " ON CONFLICT (\"id\") DO UPDATE SET \"age\" = EXCLUDED.\"age\", \"name\" = EXCLUDED.\"name\"" := by
  obtain ⟨s, hs⟩ : ∃ s, compile {} (Query.replaced.upserting
      (.obj [("age", .int 7), ("id", .int 1), ("name", .null)]) [" id "] false) = .ok s := ⟨_, rfl⟩
  obtain ⟨insert, returning, -, hback, htext, -⟩ := upsert_resolves_conflicts hs
  cases hback
  refine ⟨s, insert.text, hs, ?_⟩
  rw [htext, returningText, String.append_empty]
  have hconflict : conflictText ["age", "id", "name"] ["id"] false =
      " ON CONFLICT (\"id\") DO UPDATE SET \"age\" = EXCLUDED.\"age\", \"name\" = EXCLUDED.\"name\"" := by
    decide
  have htrim : Text.trim " id " = "id" := by decide
  exact congrArg (insert.text ++ ·) (htrim ▸ hconflict)

end QueryClient
