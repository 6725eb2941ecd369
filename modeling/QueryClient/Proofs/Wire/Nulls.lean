/-
  Nulls in rows.

  * `Cell.IsVoid` says that a cell holds nothing that JSON can express: no value, or a floating
    point number that is not finite;
  * `eq_null_iff`: what is read of a scalar is null exactly if it is such a number;
  * `nullsKept_of_decodeCell`: a cell that is read as null is void, and so are the elements of an
    array that are;
  * `readRow_eq_error`, `entry_of_readRow`: what a row that is refused, or read, says of its cells;
  * `nulls_in_row`: every null in a row, JSON columns apart, stands for a void cell.
-/
import QueryClient.Proofs.Statement.Insertion
import QueryClient.Proofs.Wire.Elements

namespace QueryClient.Wire

open QueryClient.Number QueryClient.Session

variable {type element : SqlType} {bytes : List UInt8} {cell : Cell} {j : Json}

/-- The types whose values are JSON already. -/
def SqlType.isJson : SqlType → Bool
  | .scalar s => s ∈ [.json, .jsonb]
  | _ => false

/-- The types of columns that hold JSON, alone or in arrays. -/
def SqlType.holdsJson : SqlType → Bool
  | .array _ element => element.isJson
  | type => type.isJson

/-- A cell holds nothing that JSON can express: no value, or a number that is not finite. -/
def Cell.IsVoid (type : SqlType) (cell : Cell) : Prop :=
  ∀ bytes ∈ cell, ∃ x ∈ float? type bytes, ¬ x.isFinite

theorem Cell.isVoid_some_iff {x : Double} (h : float? type bytes = some x) :
    Cell.IsVoid type (some bytes) ↔ ¬ x.isFinite := by
  constructor
  · intro hvoid
    obtain ⟨y, hy, hfinite⟩ := hvoid bytes rfl
    cases h.symm.trans hy
    exact hfinite
  · rintro hfinite _ ⟨⟩
    exact ⟨x, h, hfinite⟩

theorem Cell.not_isVoid_some (h : float? type bytes = none) : ¬ Cell.IsVoid type (some bytes) := by
  intro hvoid
  obtain ⟨x, hx, -⟩ := hvoid bytes rfl
  cases h.symm.trans hx

theorem Cell.isVoid_none : Cell.IsVoid type none := nofun

/-! ## Scalars -/

theorem decodeText_ne_null : decodeText bytes ≠ some .null := by
  intro h
  obtain ⟨_, -, h⟩ := Option.map_eq_some_iff.1 h
  cases h

theorem decodeInt_ne_null {width : ℕ} : decodeInt width bytes ≠ some .null := by
  intro h
  obtain ⟨_, -, h⟩ := Option.map_eq_some_iff.1 h
  cases h

theorem decodeMoment_ne_null {toText : Calendar.Moment → String} :
    decodeMoment toText bytes ≠ some .null := by
  intro h
  obtain ⟨_, -, h⟩ := Option.bind_eq_some_iff.1 h
  obtain ⟨_, -, h⟩ := Option.bind_eq_some_iff.1 h
  cases h

/-- A scalar other than JSON and floating point numbers is never read as null. -/
theorem decodeScalar_ne_null {s : Scalar}
    (hs : s ∉ [.json, .jsonb, .float4, .float8]) : decodeScalar s bytes ≠ some .null := by
  cases s with
  | bool | char =>
    intro h
    unfold decodeScalar at h
    dsimp only at h
    split at h <;> cases h
  | int2 | int4 | int8 => exact decodeInt_ne_null
  | timestamp | timestamptz => exact decodeMoment_ne_null
  | text | varchar | bpchar | name | unknown => exact decodeText_ne_null
  | oid | uuid =>
    intro h
    obtain ⟨_, -, h⟩ := Option.map_eq_some_iff.1 h
    cases h
  | numeric | date =>
    intro h
    obtain ⟨_, -, h⟩ := Option.bind_eq_some_iff.1 h
    obtain ⟨_, -, h⟩ := Option.bind_eq_some_iff.1 h
    cases h
  | time =>
    intro h
    obtain ⟨_, -, h⟩ := Option.bind_eq_some_iff.1 h
    cases h
  | bytea => nofun
  | json | jsonb | float4 | float8 => exact absurd (by decide) hs

/-- A floating point number is read as the number that its bytes spell, if JSON can express it. -/
theorem exists_float_of_decodeScalar {s : Scalar} (hs : s ∈ [.float4, .float8])
    (h : decodeScalar s bytes = some j) :
    ∃ x, float? (.scalar s) bytes = some x ∧ j = Json.ofDouble x := by
  cases s with
  | float4 | float8 =>
    obtain ⟨n, hn, rfl⟩ := Option.map_eq_some_iff.1 h
    exact ⟨_, Option.map_eq_some_iff.2 ⟨n, hn, rfl⟩, rfl⟩
  | _ => simp at hs

/-- **What is read of a value is null exactly if it is a number that is not finite.** -/
theorem eq_null_iff {read : List UInt8 → Option Json} (hjson : ¬ type.isJson)
    (hread : reader? type = some read) (h : read bytes = some j) :
    j = .null ↔ Cell.IsVoid type (some bytes) := by
  have hnever : (∀ bytes, float? type bytes = none) → read bytes ≠ some .null →
      (j = .null ↔ Cell.IsVoid type (some bytes)) := fun hfloat hne =>
    iff_of_false (fun hnull => hne (hnull ▸ h)) (Cell.not_isVoid_some (hfloat _))
  cases type with
  | scalar s =>
    cases hread
    by_cases hs : s ∈ [.float4, .float8]
    · obtain ⟨x, hx, rfl⟩ := exists_float_of_decodeScalar hs h
      rw [ofDouble_eq_null_iff, Cell.isVoid_some_iff hx]
    · refine hnever (fun bytes => ?_) (decodeScalar_ne_null ?_)
      · cases s with
        | float4 | float8 => simp at hs
        | _ => rfl
      · have hs' : s ∉ [.json, .jsonb] := fun h => hjson (decide_eq_true h)
        simp at hs hs' ⊢
        tauto
  | _ =>
    unfold reader? at hread
    dsimp only at hread
    split_ifs at hread
    cases hread
    exact hnever (fun _ => rfl) decodeText_ne_null

/-! ## Columns -/

/-- Nulls that were read of a cell: all of it is null, or the elements of an array are, exactly
where nothing that JSON can express was. -/
structure NullsKept (type : SqlType) (cell : Cell) (j : Json) : Prop where
  whole : j = .null ↔ cell.IsVoid type
  elements : ∀ name element bytes, type = .array name element → cell = some bytes →
    ∃ cells items, arrayElements? bytes = some cells ∧ j = .arr items ∧
      List.Forall₂ (fun cell item => item = .null ↔ Cell.IsVoid element cell) cells items

theorem eq_null_iff_of_decodeElement {read : List UInt8 → Option Json} (hjson : ¬ type.isJson)
    (hread : reader? type = some read) (h : decodeElement read cell = some j) :
    j = .null ↔ cell.IsVoid type := by
  cases cell with
  | none =>
    cases h
    exact iff_of_true rfl Cell.isVoid_none
  | some bytes => exact eq_null_iff hjson hread h

/-- What is read of an array is a list of what is read of its elements. -/
theorem nullsKept_array {name : TypeName} (hjson : ¬ element.isJson)
    (h : decodeCell (.array name element) cell = .ok j) :
    NullsKept (.array name element) cell j := by
  obtain ⟨read, hreader, h⟩ := decodeCell_eq_ok_iff.1 h
  obtain ⟨readElement, helement, hiff⟩ := columnReader_array_eq_ok hreader
  cases cell with
  | none =>
    cases h
    exact ⟨iff_of_true rfl Cell.isVoid_none, nofun⟩
  | some bytes =>
    obtain ⟨cells, items, hcells, hitems, rfl⟩ := (hiff bytes j).1 h
    refine ⟨iff_of_false nofun (Cell.not_isVoid_some rfl), ?_⟩
    rintro _ _ _ ⟨⟩ ⟨⟩
    exact ⟨cells, items, hcells, rfl, (forall₂_of_mapM hitems).imp fun cell item hitem =>
      eq_null_iff_of_decodeElement hjson (reader?_of_elementReader? helement) hitem⟩

/-- **What is read of a cell is null exactly if the cell is void**, and so are elements. -/
theorem nullsKept_of_decodeCell (hjson : ¬ type.holdsJson) (h : decodeCell type cell = .ok j) :
    NullsKept type cell j := by
  cases type with
  | array name element => exact nullsKept_array hjson h
  | _ =>
    obtain ⟨read, hreader, h⟩ := decodeCell_eq_ok_iff.1 h
    unfold columnReader at hreader
    dsimp only at hreader
    split at hreader
    · next hread =>
      cases hreader
      exact ⟨eq_null_iff_of_decodeElement hjson hread h, nofun⟩
    · cases hreader

/-! ## Rows -/

/-- Of the values for a key the last one counts. -/
theorem get?_ofList_of_last {pairs : List (String × Json)} {i : ℕ} {key : String} {value : Json}
    (h : pairs[i]? = some (key, value))
    (hlast : ∀ k pair, i < k → pairs[k]? = some pair → pair.1 ≠ key) :
    (Fields.ofList pairs).get? key = some value := by
  induction pairs using List.reverseRecOn with
  | nil => cases h
  | append_singleton pairs pair ih =>
    have hinsert : Fields.ofList (pairs ++ [pair]) =
        (Fields.ofList pairs).insert pair.1 pair.2 := by
      rw [Fields.ofList, List.foldl_append]
      rfl
    rw [hinsert, Fields.get?_insert]
    rcases Nat.lt_or_ge i pairs.length with hi | hi
    · have hend : (pairs ++ [pair])[pairs.length]? = some pair := List.getElem?_concat_length
      rw [if_neg (hlast _ _ hi hend)]
      rw [List.getElem?_append_left hi] at h
      refine ih h fun k later hk hlater => hlast k later hk ?_
      obtain ⟨hlength, -⟩ := List.getElem?_eq_some_iff.1 hlater
      rwa [List.getElem?_append_left hlength]
    · rw [List.getElem?_append_right hi, List.getElem?_singleton] at h
      split_ifs at h
      cases h
      exact if_pos rfl

theorem getElem?_of_forall₂ {α β : Type} {R : α → β → Prop} {xs : List α} {ys : List β} {i : ℕ}
    {x : α} (h : List.Forall₂ R xs ys) (hx : xs[i]? = some x) : ∃ y, ys[i]? = some y ∧ R x y := by
  obtain ⟨hlength, hall⟩ := List.forall₂_iff_get.1 h
  obtain ⟨hi, rfl⟩ := List.getElem?_eq_some_iff.1 hx
  exact ⟨ys[i], List.getElem?_eq_getElem (hlength ▸ hi), hall i hi (hlength ▸ hi)⟩

section

variable {columns : List Column} {cells : List Cell} {row : Row} {e : Error}

/-- What a row has for the cell of a column. -/
def readEntry (p : (Column × Cell) × ℕ) : Except Error (String × Json) :=
  match decodeCell p.1.1.type p.1.2 with
  | .ok j => .ok (p.1.1.name, j)
  | .error e => .error (e.toError p.1.1.name p.2)

theorem readRow_eq :
    readRow columns cells = ((columns.zip cells).zipIdx.mapM readEntry).map Fields.ofList := by
  unfold readRow
  rfl

theorem readEntry_eq_ok_iff {p : (Column × Cell) × ℕ} {pair : String × Json} :
    readEntry p = .ok pair ↔ pair.1 = p.1.1.name ∧ decodeCell p.1.1.type p.1.2 = .ok pair.2 := by
  unfold readEntry
  obtain ⟨name, value⟩ := pair
  cases decodeCell p.1.1.type p.1.2 with
  | ok j =>
    constructor
    · rintro ⟨⟩
      exact ⟨rfl, rfl⟩
    · rintro ⟨rfl, ⟨⟩⟩
      rfl
  | error e => exact ⟨nofun, nofun⟩

/-- An error of a row is about a column whose cell cannot be read. -/
theorem readRow_eq_error (h : readRow columns cells = .error e) :
    ∃ (i : ℕ) (column : Column) (cell : Cell) (message : String),
      columns[i]? = some column ∧ cells[i]? = some cell ∧
      (∀ j, decodeCell column.type cell ≠ .ok j) ∧ e = ⟨.decode column.name message, []⟩ := by
  rw [readRow_eq] at h
  cases hpairs : (columns.zip cells).zipIdx.mapM readEntry with
  | ok pairs =>
    rw [hpairs] at h
    cases h
  | error e' =>
    rw [hpairs] at h
    cases h
    obtain ⟨⟨⟨column, cell⟩, i⟩, hmem, hentry⟩ := exists_of_mapM_error hpairs
    obtain ⟨hcolumn, hcell⟩ := List.getElem?_zip_eq_some.1 (List.mem_zipIdx_iff_getElem?.1 hmem)
    unfold readEntry at hentry
    dsimp only at hentry
    split at hentry
    · cases hentry
    · next reason hreason =>
      cases hentry
      refine ⟨i, column, cell, _, hcolumn, hcell, fun j hj => ?_, rfl⟩
      cases hj.symm.trans hreason

/-- A row that is read has every column under its name, unless a later column has the same one. -/
theorem entry_of_readRow (h : readRow columns cells = .ok row) {i : ℕ} {column : Column}
    {cell : Cell} (hcolumn : columns[i]? = some column) (hcell : cells[i]? = some cell) :
    ∃ j, decodeCell column.type cell = .ok j ∧
      ((∀ k later, i < k → columns[k]? = some later → later.name ≠ column.name) →
        Fields.get? row column.name = some j) := by
  rw [readRow_eq] at h
  cases hpairs : (columns.zip cells).zipIdx.mapM readEntry with
  | error e =>
    rw [hpairs] at h
    cases h
  | ok pairs =>
    rw [hpairs] at h
    cases h
    have hentries := (mapM_forall₂ hpairs).imp fun _ _ h => readEntry_eq_ok_iff.1 h
    have hentry : (columns.zip cells).zipIdx[i]? = some ((column, cell), i) := by
      rw [List.getElem?_zipIdx, List.getElem?_zip_eq_some (z := (column, cell)).2
        ⟨hcolumn, hcell⟩, Nat.zero_add]
      rfl
    obtain ⟨⟨name, j⟩, hpair, hname, hj⟩ := getElem?_of_forall₂ hentries hentry
    cases hname
    refine ⟨j, hj, fun hlast => get?_ofList_of_last hpair fun k pair hk hpair => ?_⟩
    obtain ⟨⟨⟨later, other⟩, n⟩, hlater, hname, -⟩ := getElem?_of_forall₂ hentries.flip hpair
    rw [List.getElem?_zipIdx] at hlater
    obtain ⟨_, hzip, hsame⟩ := Option.map_eq_some_iff.1 hlater
    cases hsame
    rw [hname]
    exact hlast k later hk (List.getElem?_zip_eq_some.1 hzip).1

/-- **A null in a row stands for a cell that holds nothing JSON can express**, unless its column
holds JSON: for no value, or for a number that is not finite.  A row with a cell that cannot be
read is refused, and the error names the column. -/
theorem nulls_in_row :
    (∀ e, readRow columns cells = .error e →
      ∃ (i : ℕ) (column : Column) (cell : Cell) (message : String),
        columns[i]? = some column ∧ cells[i]? = some cell ∧
        (∀ j, decodeCell column.type cell ≠ .ok j) ∧ e = ⟨.decode column.name message, []⟩) ∧
    ∀ row, readRow columns cells = .ok row → ∀ (i : ℕ) column cell, columns[i]? = some column →
      cells[i]? = some cell → ∃ j, decodeCell column.type cell = .ok j ∧
        (¬ column.type.holdsJson → NullsKept column.type cell j) ∧
        ((∀ k later, i < k → columns[k]? = some later → later.name ≠ column.name) →
          Fields.get? row column.name = some j) := by
  refine ⟨fun e h => readRow_eq_error h, fun row h i column cell hcolumn hcell => ?_⟩
  obtain ⟨j, hj, hrow⟩ := entry_of_readRow h hcolumn hcell
  exact ⟨j, hj, fun hjson => nullsKept_of_decodeCell hjson hj, hrow⟩

/-- The number 1 and an array of 5 and null are read; a decimal that is not a number is refused. -/
theorem nulls_in_row_of_numbers :
    readRow [⟨"x", .scalar .float8⟩, ⟨"n", .array ⟨"pg_catalog", "_int4", 1007⟩ (.scalar .int4)⟩]
      [some [63, 240, 0, 0, 0, 0, 0, 0], some [0, 0, 0, 1, 0, 0, 0, 1, 0, 0, 0, 23, 0, 0, 0, 2, 0,
        0, 0, 1, 0, 0, 0, 4, 0, 0, 0, 5, 255, 255, 255, 255]] =
      .ok [("n", .arr [.int 5, .null]), ("x", .float ⟨4607182418800017408⟩)] ∧
    NullsKept (.scalar .float8) (some [63, 240, 0, 0, 0, 0, 0, 0])
      (.float ⟨4607182418800017408⟩) ∧
    ∃ e, readRow [⟨"d", .scalar .numeric⟩] [some [0, 0, 0, 0, 192, 0, 0, 0]] = .error e ∧
      ∃ message, e = ⟨.decode "d" message, []⟩ := by
  have hrow : readRow
      [⟨"x", .scalar .float8⟩, ⟨"n", .array ⟨"pg_catalog", "_int4", 1007⟩ (.scalar .int4)⟩]
      [some [63, 240, 0, 0, 0, 0, 0, 0], some [0, 0, 0, 1, 0, 0, 0, 1, 0, 0, 0, 23, 0, 0, 0, 2, 0,
        0, 0, 1, 0, 0, 0, 4, 0, 0, 0, 5, 255, 255, 255, 255]] =
      .ok [("n", .arr [.int 5, .null]), ("x", .float ⟨4607182418800017408⟩)] := rfl
  have hrefused : readRow [⟨"d", .scalar .numeric⟩] [some [0, 0, 0, 0, 192, 0, 0, 0]] =
      .error ⟨.decode "d" "error deserializing column 0", []⟩ := rfl
  refine ⟨hrow, ?_, _, hrefused, ?_⟩
  · obtain ⟨j, hj, hkept, -⟩ := nulls_in_row.2 _ hrow 0 _ _ rfl rfl
    cases hj
    exact hkept (by decide)
  · obtain ⟨i, column, cell, message, hcolumn, -, -, he⟩ := nulls_in_row.1 _ hrefused
    cases i with
    | zero =>
      cases hcolumn
      exact ⟨message, he⟩
    | succ i => cases hcolumn

/-- A number that is not finite is read as null, in a column as in an array; a decimal that is not a
number is refused. -/
theorem numbers_read_as_null :
    readRow [⟨"c", .scalar .float8⟩] [some [127, 248, 0, 0, 0, 0, 0, 0]] = .ok [("c", .null)] ∧
    readRow [⟨"c", .array ⟨"pg_catalog", "_float8", 1022⟩ (.scalar .float8)⟩]
      [some [0, 0, 0, 1, 0, 0, 0, 0, 0, 0, 2, 189, 0, 0, 0, 1, 0, 0, 0, 1, 0, 0, 0, 8, 127, 240, 0,
        0, 0, 0, 0, 0]] = .ok [("c", .arr [.null])] ∧
    readRow [⟨"c", .scalar .numeric⟩] [some [0, 0, 0, 0, 192, 0, 0, 0]] =
      .error ⟨.decode "c" "error deserializing column 0", []⟩ :=
  ⟨rfl, rfl, rfl⟩

end

end QueryClient.Wire
