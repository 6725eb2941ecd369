/-
  Values of typed columns that are read back after they were bound.

  * `arrayElements?_arrayBytes`: the elements of an array are read back from its bytes;
  * `exists_rebound_elements`: what was read of some elements is bound one by one;
  * `typed_column_read_back`: what was read of a typed column is bound to a parameter of its type,
    and what is bound is read as the same value.
-/
import QueryClient.Proofs.Wire.Scalars

namespace QueryClient.Wire

open QueryClient.Number

variable {type element : SqlType} {bytes : List UInt8} {j : Json}

/-! ## Arrays -/

/-- A list of cells whose lengths fit the four bytes that they are written with. -/
structure Short (cells : List (Option (List UInt8))) : Prop where
  count : 2 * cells.length < 256 ^ 4
  cells : ∀ cell ∈ cells, ∀ bytes ∈ cell, 2 * bytes.length < 256 ^ 4

theorem short_of_elements? {count : ℕ} {cells : List (Option (List UInt8))}
    (h : elements? count bytes = some cells) :
    cells.length = count ∧ ∀ cell ∈ cells, ∀ bytes ∈ cell, 2 * bytes.length < 256 ^ 4 := by
  induction count generalizing bytes cells with
  | zero =>
    unfold elements? at h
    split_ifs at h
    cases h
    exact ⟨rfl, nofun⟩
  | succ count ih =>
    obtain ⟨⟨front, rest⟩, hfront, h⟩ := Option.bind_eq_some_iff.1 h
    have hlt := Bytes.toInt_lt front
    rw [Bytes.length_of_split? hfront] at hlt
    dsimp only at h
    split_ifs at h with hnull
    · obtain ⟨others, hothers, h⟩ := Option.bind_eq_some_iff.1 h
      cases h
      obtain ⟨hlength, hshort⟩ := ih hothers
      exact ⟨congrArg Nat.succ hlength, List.forall_mem_cons.2 ⟨nofun, hshort⟩⟩
    · obtain ⟨⟨cell, others⟩, hcell, h⟩ := Option.bind_eq_some_iff.1 h
      obtain ⟨others, hothers, h⟩ := Option.bind_eq_some_iff.1 h
      cases h
      obtain ⟨hlength, hshort⟩ := ih hothers
      refine ⟨congrArg Nat.succ hlength, List.forall_mem_cons.2 ⟨fun bytes hbytes => ?_, hshort⟩⟩
      cases hbytes
      rw [Bytes.length_of_split? hcell]
      omega

theorem short_of_arrayElements? {cells : List (Option (List UInt8))}
    (h : arrayElements? bytes = some cells) : Short cells := by
  obtain ⟨⟨dimensions, bytes⟩, -, h⟩ := Option.bind_eq_some_iff.1 h
  obtain ⟨⟨_, bytes⟩, -, h⟩ := Option.bind_eq_some_iff.1 h
  dsimp only at h
  split at h
  · obtain ⟨hlength, hshort⟩ := short_of_elements? h
    exact ⟨by rw [hlength]; decide, hshort⟩
  · obtain ⟨⟨front, bytes⟩, hfront, h⟩ := Option.bind_eq_some_iff.1 h
    obtain ⟨_, -, h⟩ := Option.bind_eq_some_iff.1 h
    have hlt := Bytes.toInt_lt front
    rw [Bytes.length_of_split? hfront] at hlt
    dsimp only at h
    split_ifs at h
    obtain ⟨hlength, hshort⟩ := short_of_elements? h
    exact ⟨by rw [hlength]; omega, hshort⟩
  · cases h

/-- Elements are read back from their bytes. -/
theorem elements?_flatMap {cells : List (Option (List UInt8))}
    (h : ∀ cell ∈ cells, ∀ bytes ∈ cell, 2 * bytes.length < 256 ^ 4) :
    elements? cells.length (cells.flatMap elementBytes) = some cells := by
  induction cells with
  | nil => rfl
  | cons cell cells ih =>
    obtain ⟨hcell, hcells⟩ := List.forall_mem_cons.1 h
    rw [List.length_cons, List.flatMap_cons, elements?]
    cases cell with
    | none =>
      have hnull : Bytes.toInt (Bytes.ofInt 4 (-1)) < 0 := by decide
      rw [elementBytes, Bytes.split?_append (Bytes.length_ofInt 4 (-1))]
      simp only [bind, Option.bind, pure, if_pos hnull, ih hcells]
    | some bytes =>
      have hlength := Bytes.toInt_ofNat (hcell bytes rfl)
      have hvalue : ¬ (bytes.length : ℤ) < 0 := Int.not_lt.2 (Int.natCast_nonneg _)
      rw [elementBytes, List.append_assoc, Bytes.split?_append (Bytes.length_ofNat 4 _)]
      simp only [bind, Option.bind, pure, hlength, if_neg hvalue, Int.toNat_natCast,
        Bytes.split?_append rfl, ih hcells]

/-- The binary form of an array.  A header tells whether there are nulls and of which type the
elements are; an array without dimensions ends there, and in one dimension the elements come after
their number and the index of the first. -/
inductive IsArray : List (Option (List UInt8)) → List UInt8 → Prop
  | empty {header : List UInt8} : header.length = 8 → IsArray [] (Bytes.ofNat 4 0 ++ header)
  | line {cells : List (Option (List UInt8))} {header first : List UInt8} : Short cells →
      header.length = 8 → first.length = 4 → IsArray cells (Bytes.ofNat 4 1 ++ (header ++
        (Bytes.ofNat 4 cells.length ++ (first ++ cells.flatMap elementBytes))))

/-- The elements of an array are found in its binary form. -/
theorem IsArray.arrayElements?_eq {cells : List (Option (List UInt8))} (h : IsArray cells bytes) :
    arrayElements? bytes = some cells := by
  have hsplit : ∀ {width n : ℕ} (rest : List UInt8),
      Bytes.split? width (Bytes.ofNat width n ++ rest) = some (Bytes.ofNat width n, rest) :=
    fun rest => Bytes.split?_append (Bytes.length_ofNat _ _) rest
  cases h with
  | @empty header hheader =>
    have hzero : Bytes.toInt (Bytes.ofNat 4 0) = 0 := by decide
    have hheader' := Bytes.split?_append hheader []
    rw [List.append_nil] at hheader'
    simp only [arrayElements?, bind, Option.bind, hsplit, hheader', hzero]
    rfl
  | line hshort hheader hfirst =>
    have hone : Bytes.toInt (Bytes.ofNat 4 1) = 1 := by decide
    have hlength := Bytes.toInt_ofNat hshort.count
    have hcount : ¬ (cells.length : ℤ) < 0 := Int.not_lt.2 (Int.natCast_nonneg _)
    rw [arrayElements?]
    simp only [bind, Option.bind, hsplit, Bytes.split?_append hheader, Bytes.split?_append hfirst,
      hone, hlength, if_neg hcount, Int.toNat_natCast, elements?_flatMap hshort.cells]

theorem isArray_arrayBytes (name : TypeName) (element : SqlType)
    {cells : List (Option (List UInt8))} (h : Short cells) :
    IsArray cells (arrayBytes name element cells) := by
  have hheader : ∀ n m : ℕ, (Bytes.ofNat 4 n ++ Bytes.ofNat 4 m).length = 8 := fun n m => by
    rw [List.length_append, Bytes.length_ofNat, Bytes.length_ofNat]
  have hbytes := IsArray.line h (hheader (if cells.any (·.isNone) then 1 else 0) element.number)
    (Bytes.length_ofNat 4 (lowerBound name.number))
  simp only [List.append_assoc] at hbytes
  simpa only [arrayBytes, List.append_assoc] using hbytes

/-- **The elements of an array are read back from its bytes.** -/
theorem arrayElements?_arrayBytes (name : TypeName) (element : SqlType)
    {cells : List (Option (List UInt8))} (h : Short cells) :
    arrayElements? (arrayBytes name element cells) = some cells :=
  (isArray_arrayBytes name element h).arrayElements?_eq

theorem reader?_of_elementReader? {read : List UInt8 → Option Json}
    (h : elementReader? element = some read) : reader? element = some read := by
  cases element with
  | scalar s =>
    unfold elementReader? at h
    dsimp only at h
    split_ifs at h
    exact h
  | _ => exact h

/-- What was read of one element is bound, null as nothing. -/
theorem exists_rebound_element {read : List UInt8 → Option Json} {cell : Option (List UInt8)}
    (htype : element.isTyped) (hread : reader? element = some read)
    (hshort : ∀ bytes ∈ cell, 2 * bytes.length < 256 ^ 4) (h : decodeElement read cell = some j) :
    ∃ bound, encode element (Value.ofJson j) = .ok bound ∧
      (∀ bytes ∈ bound, 2 * bytes.length < 256 ^ 4) ∧
      ((∀ d ∈ (cell.map (decimals element)).getD [], RoundTrips d) →
        decodeElement read bound = some j) := by
  by_cases hj : j = .null
  · subst hj
    exact ⟨none, encode_null htype, nofun, fun _ => rfl⟩
  · cases cell with
    | none =>
      cases h
      exact absurd rfl hj
    | some bytes =>
      obtain ⟨bound, hencoded, hlength, hdecoded⟩ :=
        exists_rebound htype hread h (isFinite_of_ne_null hread h hj)
      refine ⟨some bound, hencoded, fun bytes hbytes => ?_, hdecoded⟩
      have hcell := hshort _ rfl
      cases hbytes
      omega

/-- What was read of some elements is bound one by one. -/
theorem exists_rebound_elements {read : List UInt8 → Option Json} (htype : element.isTyped)
    (hread : reader? element = some read) {cells : List (Option (List UInt8))} {items : List Json}
    (hshort : ∀ cell ∈ cells, ∀ bytes ∈ cell, 2 * bytes.length < 256 ^ 4)
    (h : cells.mapM (decodeElement read) = some items) :
    ∃ bounds, (items.map Value.ofJson).mapM (encode element) = .ok bounds ∧
      bounds.length = cells.length ∧
      (∀ cell ∈ bounds, ∀ bytes ∈ cell, 2 * bytes.length < 256 ^ 4) ∧
      ((∀ d ∈ cells.flatMap fun cell => (cell.map (decimals element)).getD [], RoundTrips d) →
        bounds.mapM (decodeElement read) = some items) := by
  induction cells generalizing items with
  | nil =>
    cases h
    exact ⟨[], rfl, rfl, nofun, fun _ => rfl⟩
  | cons cell cells ih =>
    rw [List.mapM_cons] at h
    obtain ⟨item, hitem, h⟩ := Option.bind_eq_some_iff.1 h
    obtain ⟨others, hothers, h⟩ := Option.bind_eq_some_iff.1 h
    cases h
    obtain ⟨hcell, hcells⟩ := List.forall_mem_cons.1 hshort
    obtain ⟨bound, hbound, hlong, hback⟩ := exists_rebound_element htype hread hcell hitem
    obtain ⟨bounds, hbounds, hlength, hlongs, hbacks⟩ := ih hcells hothers
    refine ⟨bound :: bounds, ?_, congrArg Nat.succ hlength, List.forall_mem_cons.2 ⟨hlong, hlongs⟩,
      fun hall => ?_⟩
    · rw [List.map_cons, List.mapM_cons, hbound, hbounds]
      rfl
    · rw [List.flatMap_cons, List.forall_mem_append] at hall
      rw [List.mapM_cons, hback hall.1, hbacks hall.2]
      rfl

/-! ## Columns -/

/-- The types of columns whose values are bound as they are read: types of one value, and arrays of
them. -/
def SqlType.isTypedColumn : SqlType → Bool
  | .array _ element => element.isTyped
  | type => type.isTyped

theorem decodeCell_eq_ok_iff {cell : Option (List UInt8)} : decodeCell type cell = .ok j ↔
    ∃ read, columnReader type = .ok read ∧ decodeElement read cell = some j := by
  unfold decodeCell
  cases columnReader type with
  | error e => exact ⟨nofun, nofun⟩
  | ok read =>
    cases cell with
    | none =>
      constructor
      · rintro ⟨⟩
        exact ⟨read, rfl, rfl⟩
      · rintro ⟨_, -, ⟨⟩⟩
        rfl
    | some bytes =>
      constructor
      · intro h
        refine ⟨read, rfl, ?_⟩
        dsimp only [bind, Except.bind] at h
        split at h
        · cases h
          assumption
        · cases h
      · rintro ⟨_, ⟨⟩, h⟩
        rw [decodeElement] at h
        dsimp only [bind, Except.bind]
        rw [h]

theorem reader?_of_columnReader {read : List UInt8 → Option Json} (htype : type.isTyped)
    (h : columnReader type = .ok read) : reader? type = some read := by
  unfold columnReader at h
  split at h
  · cases htype
  · split at h
    · cases h
      assumption
    · cases h

/-- What reads an array reads its elements one by one. -/
theorem columnReader_array_eq_ok {name : TypeName} {read : List UInt8 → Option Json}
    (h : columnReader (.array name element) = .ok read) :
    ∃ readElement, elementReader? element = some readElement ∧
      ∀ bytes j, read bytes = some j ↔ ∃ cells items, arrayElements? bytes = some cells ∧
        cells.mapM (decodeElement readElement) = some items ∧ j = .arr items := by
  unfold columnReader at h
  dsimp only at h
  split at h
  · next readElement helement =>
    cases h
    refine ⟨readElement, helement, fun bytes j => ?_⟩
    constructor
    · intro h
      obtain ⟨cells, hcells, h⟩ := Option.bind_eq_some_iff.1 h
      obtain ⟨items, hitems, h⟩ := Option.bind_eq_some_iff.1 h
      cases h
      exact ⟨cells, items, hcells, hitems, rfl⟩
    · rintro ⟨cells, items, hcells, hitems, rfl⟩
      simp only [bind, Option.bind, pure, hcells, hitems]
  · cases h

theorem exists_rebound_array {name : TypeName} (htype : element.isTyped)
    (hdecode : decodeCell (.array name element) (some bytes) = .ok j) :
    ∃ bound, encode (.array name element) (Value.ofJson j) = .ok (some bound) ∧
      ((∀ d ∈ decimals (.array name element) bytes, RoundTrips d) →
        decodeCell (.array name element) (some bound) = .ok j) := by
  obtain ⟨read, hreader, hread⟩ := decodeCell_eq_ok_iff.1 hdecode
  obtain ⟨readElement, helement, hiff⟩ := columnReader_array_eq_ok hreader
  obtain ⟨cells, items, hcells, hitems, rfl⟩ := (hiff _ _).1 hread
  have hshort := short_of_arrayElements? hcells
  obtain ⟨bounds, hbounds, hlength, hlong, hback⟩ := exists_rebound_elements htype
    (reader?_of_elementReader? helement) hshort.cells hitems
  refine ⟨arrayBytes name element bounds, ?_, fun hall => ?_⟩
  · rw [Value.ofJson, encode, itemsOf?]
    dsimp only
    rw [hbounds]
    rfl
  · rw [decimals, hcells] at hall
    have hread := arrayElements?_arrayBytes name element ⟨hlength.symm ▸ hshort.count, hlong⟩
    exact decodeCell_eq_ok_iff.2 ⟨read, hreader, (hiff _ _).2 ⟨_, _, hread, hback hall, rfl⟩⟩

theorem exists_rebound_cell (htype : type.isTyped)
    (hdecode : decodeCell type (some bytes) = .ok j)
    (hfinite : ∀ x ∈ float? type bytes, x.isFinite) :
    ∃ bound, encode type (Value.ofJson j) = .ok (some bound) ∧
      ((∀ d ∈ decimals type bytes, RoundTrips d) → decodeCell type (some bound) = .ok j) := by
  obtain ⟨read, hreader, hread⟩ := decodeCell_eq_ok_iff.1 hdecode
  obtain ⟨bound, hencoded, -, hback⟩ :=
    exists_rebound htype (reader?_of_columnReader htype hreader) hread hfinite
  exact ⟨bound, hencoded, fun hall => decodeCell_eq_ok_iff.2 ⟨read, hreader, hback hall⟩⟩

/-- **A value of a typed column is bound, and read back as the same value.**  The decimals among
the values are taken to come back from their texts and bytes; those that do not are the zeros with
a sign or with places. -/
theorem typed_column_read_back (htype : type.isTypedColumn)
    (hdecode : decodeCell type (some bytes) = .ok j)
    (hfinite : ∀ x ∈ float? type bytes, x.isFinite) :
    (∃ bound, encode type (Value.ofJson j) = .ok (some bound) ∧
      ((∀ d ∈ decimals type bytes, RoundTrips d) → decodeCell type (some bound) = .ok j)) ∧
    ∀ d ∈ decimals type bytes,
      RoundTrips d ↔ d.coefficient ≠ 0 ∨ d.negative = false ∧ d.scale = 0 := by
  refine ⟨?_, fun d hd => roundTrips_iff (fits_of_mem_decimals hd)⟩
  cases type with
  | array name element => exact exists_rebound_array htype hdecode
  | _ => exact exists_rebound_cell htype hdecode hfinite

/-- An array of one decimal and one null. -/
theorem typed_column_read_back_of_array :
    decodeCell (.array ⟨"pg_catalog", "_numeric", 1231⟩ (.scalar .numeric))
      (some [0, 0, 0, 1, 0, 0, 0, 1, 0, 0, 6, 164, 0, 0, 0, 2, 0, 0, 0, 1, 0, 0, 0, 12, 0, 2, 0, 0,
        64, 0, 0, 2, 0, 1, 19, 136, 255, 255, 255, 255]) = .ok (.arr [.str "-1.50", .null]) ∧
    ∃ bound, encode (.array ⟨"pg_catalog", "_numeric", 1231⟩ (.scalar .numeric))
        (Value.ofJson (.arr [.str "-1.50", .null])) = .ok (some bound) ∧
      decodeCell (.array ⟨"pg_catalog", "_numeric", 1231⟩ (.scalar .numeric)) (some bound) =
        .ok (.arr [.str "-1.50", .null]) := by
  have hdecode : decodeCell (.array ⟨"pg_catalog", "_numeric", 1231⟩ (.scalar .numeric))
      (some [0, 0, 0, 1, 0, 0, 0, 1, 0, 0, 6, 164, 0, 0, 0, 2, 0, 0, 0, 1, 0, 0, 0, 12, 0, 2, 0, 0,
        64, 0, 0, 2, 0, 1, 19, 136, 255, 255, 255, 255]) = .ok (.arr [.str "-1.50", .null]) := rfl
  have hdecimals : decimals (.array ⟨"pg_catalog", "_numeric", 1231⟩ (.scalar .numeric))
      [0, 0, 0, 1, 0, 0, 0, 1, 0, 0, 6, 164, 0, 0, 0, 2, 0, 0, 0, 1, 0, 0, 0, 12, 0, 2, 0, 0,
        64, 0, 0, 2, 0, 1, 19, 136, 255, 255, 255, 255] = [⟨true, 150, 2⟩] := by decide
  obtain ⟨⟨bound, hencode, hback⟩, hiff⟩ := typed_column_read_back rfl hdecode nofun
  refine ⟨hdecode, bound, hencode, hback fun d hd => (hiff d hd).2 ?_⟩
  rw [hdecimals] at hd
  rw [List.mem_singleton.1 hd]
  exact Or.inl (by decide)

end QueryClient.Wire
