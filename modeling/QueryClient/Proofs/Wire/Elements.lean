/-
  Arrays in columns, read element by element.

  * `SqlType.isReadable` holds of the types of one value that are read in columns, and
    `SqlType.isColumnOnly` of those that are read nowhere else;
  * `decodeCell_array`: what becomes of an array whose elements can be read;
  * `array_row_read`: a row with such an array has the list of what its elements are read as, or is
    refused for the type of the elements.
-/
import QueryClient.Proofs.Wire.ReadBack
import QueryClient.Wire.Server
import Mathlib.Data.List.Forall2

namespace QueryClient.Wire

variable {element : SqlType} {cells : List Cell} {bytes : List UInt8} {items : List Json}

/-- The types of one value that are read in columns. -/
def SqlType.isReadable : SqlType → Bool
  | .scalar _ => true
  | .array _ _ => false
  | type => type.readsAsText

/-- The types that are read in columns, but not in arrays. -/
def SqlType.isColumnOnly : SqlType → Bool
  | .scalar s => s ∈ [.char, .oid, .timestamp, .time, .bytea]
  | _ => false

/-! ## Elements -/

/-- Elements are read as cells of columns are, unless their type is read in columns only. -/
theorem exists_reader (h : element.isReadable) : ∃ read, columnReader element = .ok read ∧
    elementReader? element = if element.isColumnOnly then none else some read := by
  cases element with
  | scalar s =>
    refine ⟨decodeScalar s, rfl, ?_⟩
    cases s <;> rfl
  | array => cases h
  | _ =>
    unfold SqlType.isReadable at h
    dsimp only at h
    refine ⟨decodeText, ?_, ?_⟩
    · unfold columnReader reader?
      dsimp only
      rw [if_pos h]
    · unfold elementReader?
      dsimp only
      rw [if_pos h]
      rfl

/-- A list is read if each of its elements is. -/
theorem mapM_of_forall₂ {α β : Type} {f : α → Option β} {xs : List α} {ys : List β}
    (h : List.Forall₂ (fun x y => f x = some y) xs ys) : xs.mapM f = some ys := by
  induction h with
  | nil => rfl
  | cons hy _ ih =>
    rw [List.mapM_cons, hy, ih]
    rfl

theorem forall₂_of_mapM {α β : Type} {f : α → Option β} {xs : List α} {ys : List β}
    (h : xs.mapM f = some ys) : List.Forall₂ (fun x y => f x = some y) xs ys := by
  induction xs generalizing ys with
  | nil =>
    cases h
    exact .nil
  | cons x xs ih =>
    rw [List.mapM_cons] at h
    obtain ⟨y, hy, h⟩ := Option.bind_eq_some_iff.1 h
    obtain ⟨ys, hys, h⟩ := Option.bind_eq_some_iff.1 h
    cases h
    exact .cons hy (ih hys)

theorem exists_forall₂ {α β : Type} {R : α → β → Prop} {xs : List α} (h : ∀ x ∈ xs, ∃ y, R x y) :
    ∃ ys, List.Forall₂ R xs ys := by
  induction xs with
  | nil => exact ⟨[], .nil⟩
  | cons x xs ih =>
    obtain ⟨⟨y, hy⟩, hxs⟩ := List.forall_mem_cons.1 h
    obtain ⟨ys, hys⟩ := ih hxs
    exact ⟨y :: ys, .cons hy hys⟩

/-! ## Arrays -/

/-- An array is read as the list of its elements, or refused for their type. -/
theorem decodeCell_array (name : TypeName) (h : element.isReadable) (hbytes : IsArray cells bytes)
    (hitems : List.Forall₂ (fun cell j => decodeCell element cell = .ok j) cells items) :
    decodeCell (.array name element) (some bytes) =
      if element.isColumnOnly then .error (.unsupportedElement element) else .ok (.arr items) := by
  obtain ⟨read, hread, helement⟩ := exists_reader h
  have hmapM : cells.mapM (decodeElement read) = some items := by
    refine mapM_of_forall₂ (hitems.imp fun cell j hj => ?_)
    obtain ⟨_, hread', hj⟩ := decodeCell_eq_ok_iff.1 hj
    cases hread.symm.trans hread'
    exact hj
  split_ifs with honly
  · rw [if_pos honly] at helement
    rw [decodeCell, columnReader, helement]
    rfl
  · rw [if_neg honly] at helement
    rw [decodeCell, columnReader, helement]
    simp only [bind, Except.bind, hbytes.arrayElements?_eq, Option.bind, hmapM, pure]

theorem readRow_singleton (column : Column) (cell : Cell) : readRow [column] [cell] =
    match decodeCell column.type cell with
    | .ok j => .ok [(column.name, j)]
    | .error e => .error (e.toError column.name 0) := by
  unfold readRow
  rw [List.zip_cons_cons, List.zip_nil_left, List.zipIdx_cons, List.zipIdx_nil, List.mapM_cons]
  dsimp only
  cases decodeCell column.type cell <;> rfl

/-- **A row with an array is read element by element.**  A null element is null, every other one
what it is read as in a column of its own.  If the elements are of a type that is read in columns
only, the row is refused. -/
theorem array_row_read (h : element.isReadable) (hbytes : IsArray cells bytes)
    (hcells : ∀ cell ∈ cells, ∃ j, decodeCell element cell = .ok j) :
    decodeCell element none = .ok .null ∧
    ∃ items, List.Forall₂ (fun cell j => decodeCell element cell = .ok j) cells items ∧
      ∀ column name, readRow [⟨column, .array name element⟩] [some bytes] =
        if element.isColumnOnly then .error ⟨.decode column
          ("unsupported array element type '" ++ element.display ++ "'"), []⟩
        else .ok [(column, .arr items)] := by
  obtain ⟨read, hread, -⟩ := exists_reader h
  obtain ⟨items, hitems⟩ := exists_forall₂ hcells
  refine ⟨decodeCell_eq_ok_iff.2 ⟨read, hread, rfl⟩, items, hitems, fun column name => ?_⟩
  rw [readRow_singleton]
  dsimp only
  rw [decodeCell_array name h hbytes hitems]
  split_ifs <;> rfl

/-- The numbers 5 and null. -/
theorem array_row_read_of_numbers :
    readRow [⟨"n", .array ⟨"pg_catalog", "_int4", 1007⟩ (.scalar .int4)⟩]
      [some [0, 0, 0, 1, 0, 0, 0, 1, 0, 0, 0, 23, 0, 0, 0, 2, 0, 0, 0, 1, 0, 0, 0, 4, 0, 0, 0, 5,
        255, 255, 255, 255]] = .ok [("n", .arr [.int 5, .null])] := by
  have hshort : Short [some [0, 0, 0, 5], none] := ⟨by decide, by simp⟩
  have hbytes := @IsArray.line _ [0, 0, 0, 1, 0, 0, 0, 23] [0, 0, 0, 1] hshort rfl rfl
  have hcells : ∀ cell ∈ [some [0, 0, 0, 5], none], ∃ j, decodeCell (.scalar .int4) cell = .ok j :=
    List.forall_mem_cons.2 ⟨⟨.int 5, rfl⟩, List.forall_mem_singleton.2 ⟨.null, rfl⟩⟩
  obtain ⟨-, items, hitems, hrow⟩ := array_row_read rfl hbytes hcells
  cases hitems with
  | cons hfive hitems =>
    cases hitems with
    | cons hnull hitems =>
      cases hitems
      cases hfive
      cases hnull
      exact hrow "n" _

/-- A moment that is read in a column of its own, but not in an array. -/
theorem moment_refused_in_array :
    decodeCell (.scalar .timestamp) (some [0, 0, 0, 0, 0, 15, 66, 64]) =
      .ok (.str "2000-01-01T00:00:01") ∧
    IsArray [some [0, 0, 0, 0, 0, 15, 66, 64]]
      [0, 0, 0, 1, 0, 0, 0, 0, 0, 0, 4, 90, 0, 0, 0, 1, 0, 0, 0, 1, 0, 0, 0, 8, 0, 0, 0, 0, 0, 15,
        66, 64] ∧
    readRow [⟨"t", .array ⟨"pg_catalog", "_timestamp", 1115⟩ (.scalar .timestamp)⟩]
      [some [0, 0, 0, 1, 0, 0, 0, 0, 0, 0, 4, 90, 0, 0, 0, 1, 0, 0, 0, 1, 0, 0, 0, 8, 0, 0, 0, 0,
        0, 15, 66, 64]] =
      .error ⟨.decode "t" "unsupported array element type 'timestamp'", []⟩ := by
  have hshort : Short [some [0, 0, 0, 0, 0, 15, 66, 64]] := ⟨by decide, by simp⟩
  exact ⟨rfl, @IsArray.line _ [0, 0, 0, 0, 0, 0, 4, 90] [0, 0, 0, 1] hshort rfl rfl, rfl⟩

end QueryClient.Wire
