/-
  Which queries have statements.

  * `Accepted safety q` says in terms of the query alone what has to hold of it: which parts it
    may have, which of its texts are names, how long its lists are, and which rows it inserts;
  * `exists_compile_iff`: the queries that have statements are the accepted ones;
  * `Validates` holds of results that fail with errors of validation only, and
    `validates_compile`: that is how every other query is refused.
-/
import QueryClient.Proofs.Statement.Characters
import QueryClient.Proofs.Statement.Numbering
import QueryClient.Proofs.Statement.Parts

namespace QueryClient

open QueryClient.Text

/-! ## Results that may be errors -/

section
variable {ε α β : Type}

theorem exists_bind_eq_ok {x : Except ε α} {f : α → Except ε β} :
    (∃ b, (x >>= f) = .ok b) ↔ ∃ a, x = .ok a ∧ ∃ b, f a = .ok b := by
  simp only [bind_eq_ok]
  constructor
  · rintro ⟨b, a, hx, hf⟩
    exact ⟨a, hx, b, hf⟩
  · rintro ⟨a, hx, b, hf⟩
    exact ⟨b, a, hx, hf⟩

theorem exists_pure_eq_ok {a : α} : (∃ b, (pure a : Except ε α) = .ok b) ↔ True :=
  iff_true_intro ⟨a, rfl⟩

theorem exists_unit_eq_ok {x : Except ε Unit} : (∃ u, x = .ok u) ↔ x = .ok () :=
  ⟨fun ⟨(), h⟩ => h, fun h => ⟨(), h⟩⟩

/-- Where nothing can go wrong afterwards, only the first result counts. -/
theorem exists_map_eq_ok {x : Except ε α} {f : α → β} :
    (∃ b, (x >>= fun a => pure (f a)) = .ok b) ↔ ∃ a, x = .ok a := by
  rw [exists_bind_eq_ok]
  exact ⟨fun ⟨a, hx, _⟩ => ⟨a, hx⟩, fun ⟨a, hx⟩ => ⟨a, hx, f a, rfl⟩⟩

theorem exists_mapM_eq_ok {f : α → Except ε β} {xs : List α} :
    (∃ ys, xs.mapM f = .ok ys) ↔ ∀ x ∈ xs, ∃ y, f x = .ok y := by
  induction xs with
  | nil => exact ⟨fun _ x hx => absurd hx List.not_mem_nil, fun _ => ⟨[], rfl⟩⟩
  | cons x xs ih =>
    rw [List.mapM_cons, exists_bind_eq_ok, List.forall_mem_cons]
    simp only [exists_map_eq_ok, ih]
    exact ⟨fun ⟨y, hy, hxs⟩ => ⟨⟨y, hy⟩, hxs⟩, fun ⟨⟨y, hy⟩, hxs⟩ => ⟨y, hy, hxs⟩⟩

/-- A check, and one that comes before something else. -/
theorem throw_eq_ok {p : Prop} [Decidable p] {e : ε} {u : PUnit} :
    (if p then throw e else pure PUnit.unit : Except ε PUnit) = .ok u ↔ ¬ p := by
  split <;> simp_all [throw, throwThe, MonadExceptOf.throw, pure, Except.pure]

theorem throw_bind_eq_ok {p : Prop} [Decidable p] {e : ε} {f : β → Except ε α} {x : Except ε α}
    {a : α} : (if p then (throw e : Except ε β) >>= f else x) = .ok a ↔ ¬ p ∧ x = .ok a := by
  split
  · next h => exact ⟨fun h' => (nomatch h'), fun h' => absurd h h'.1⟩
  · next h => exact ⟨fun hx => ⟨h, hx⟩, fun h' => h'.2⟩

theorem forM_eq_ok {f : α → Except ε Unit} {xs : List α} :
    xs.forM f = .ok () ↔ ∀ x ∈ xs, f x = .ok () := by
  induction xs with
  | nil => exact ⟨fun _ x hx => absurd hx List.not_mem_nil, fun _ => rfl⟩
  | cons x xs ih =>
    have hcons : (x :: xs).forM f = (f x >>= fun _ => xs.forM f) := rfl
    rw [hcons, bind_eq_ok, List.forall_mem_cons, ← ih]
    exact ⟨fun ⟨(), hx, hxs⟩ => ⟨hx, hxs⟩, fun ⟨hx, hxs⟩ => ⟨(), hx, hxs⟩⟩

end

/-! ## Names -/

/-- A text that is a name. -/
def IsName (text : String) : Prop := IsIdent text.toList

/-- A text that is a list of columns: a star, or names with commas between them. -/
def IsColumnList (text : String) : Prop :=
  trimChars text.toList = ['*'] ∨ ∀ part ∈ ColumnList.parts text, IsName part

namespace Ident

theorem utf8Size_of_isRest {c : Char} (h : isRest c) : c.utf8Size = 1 := by
  have hplain : c.isAlphanum = ((decide (65 ≤ c.val ∧ c.val ≤ 90) ||
      decide (97 ≤ c.val) && decide (c.val ≤ 122)) ||
      decide (48 ≤ c.val) && decide (c.val ≤ 57)) := rfl
  have hascii : c.toNat ≤ 127 := by
    simp only [isRest, hplain, Bool.or_eq_true, Bool.and_eq_true, decide_eq_true_eq,
      UInt32.le_iff_toNat_le] at h
    rcases h with rfl | ((⟨-, h⟩ | ⟨-, h⟩) | ⟨-, h⟩)
    · decide
    · exact h.trans (by decide)
    · exact h.trans (by decide)
    · exact h.trans (by decide)
  unfold Char.utf8Size
  exact if_pos hascii

theorem byteLength_eq_length {cs : List Char} (h : ∀ c ∈ cs, isRest c) :
    byteLength cs = cs.length := by
  induction cs with
  | nil => rfl
  | cons c cs ih =>
    obtain ⟨hc, hcs⟩ := List.forall_mem_cons.1 h
    rw [byteLength_cons, utf8Size_of_isRest hc, ih hcs, List.length_cons, Nat.add_comm]

theorem flaw?_eq_none_of_isName {text : String} (h : IsName text) : flaw? text = none := by
  unfold IsName IsIdent at h
  unfold flaw?
  cases htext : text.toList with
  | nil => exact absurd (htext ▸ h).2 id
  | cons c rest =>
    rw [htext] at h
    obtain ⟨hlength, hfirst, hrest⟩ := h
    have hall : ∀ d ∈ c :: rest, isRest d :=
      List.forall_mem_cons.2 ⟨isRest_of_isFirst hfirst, hrest⟩
    have hshort : ¬ maxLength < byteLength (c :: rest) := by
      rw [byteLength_eq_length hall]
      exact Nat.not_lt.2 hlength
    have hfind : rest.find? (!isRest ·) = none := by
      rw [List.find?_eq_none]
      intro d hd
      simp [hrest d hd]
    simp [hshort, hfirst, hfind]

/-- **The texts that can be read as identifiers are the names.** -/
theorem exists_parse_iff {kind : IdentKind} {text : String} :
    (∃ i, parse kind text = .ok i) ↔ IsName text := by
  constructor
  · rintro ⟨i, hi⟩
    exact parse_ok hi ▸ i.isIdent
  · intro h
    have hnone := flaw?_eq_none_of_isName h
    unfold parse
    split
    · next f hf => exact absurd (hnone ▸ hf) (Option.some_ne_none f).symm
    · exact ⟨_, rfl⟩

end Ident

/-- The column lists that can be read are stars and lists of names. -/
theorem ColumnList.exists_parse_iff {text : String} :
    (∃ columns, ColumnList.parse text = .ok columns) ↔ IsColumnList text := by
  unfold ColumnList.parse IsColumnList
  split
  · next hstar => exact ⟨fun _ => Or.inl hstar, fun _ => ⟨_, rfl⟩⟩
  · next hempty =>
    have hpart : "" ∈ ColumnList.parts text := by
      rw [ColumnList.parts, hempty]
      exact List.mem_singleton.2 rfl
    refine ⟨fun ⟨_, h⟩ => (nomatch h), fun h => ?_⟩
    rcases h with h | h
    · exact absurd (hempty.symm.trans h) (by decide)
    · exact absurd (h "" hpart).2 id
  · next hstar _ =>
    rw [exists_map_eq_ok, exists_mapM_eq_ok, ColumnList.parts, List.forall_mem_map]
    simp only [Ident.exists_parse_iff]
    exact ⟨Or.inr, fun h => h.resolve_left hstar⟩

/-! ## Rows -/

/-- What the rows of a payload are: it is one object, or an array of objects. -/
inductive Json.HasRows : Json → List Fields → Prop
  | one (row : Fields) : HasRows (.obj row) [row]
  | many (rows : List Fields) : HasRows (.arr (rows.map .obj)) rows

/-- Rows that can be inserted: the first one gives the columns, which are names, the further
ones have no other columns, and there are not too many cells. -/
structure Insertable (safety : Safety) (first : Fields) (rest : List Fields) : Prop where
  columned : first ≠ []
  named : ∀ key ∈ first.keys, IsName key
  covered : ∀ row ∈ rest, ∀ key ∈ row.keys, key ∈ first.keys
  bounded : (rest.length + 1) * first.keys.length ≤ safety.maxTotalParams

theorem Fields.isSome_get?_iff {fields : Fields} {key : String} :
    (fields.get? key).isSome ↔ key ∈ fields.keys := by
  rw [get?, Option.isSome_map, List.find?_isSome, keys, List.mem_map]
  simp only [decide_eq_true_eq]

namespace Rows

theorem objects_map_obj (what : String) (objects : List Fields) :
    Rows.objects what (.arr (objects.map .obj)) = .ok objects := by
  have hfrom : ∀ f : Json × ℕ → Except Error Fields, (∀ fields i, f (.obj fields, i) = .ok fields) →
      ∀ n, ((objects.map Json.obj).zipIdx n).mapM f = .ok objects := by
    intro f hf
    induction objects with
    | nil => exact fun _ => rfl
    | cons row objects ih =>
      intro n
      rw [List.map_cons, List.zipIdx_cons, List.mapM_cons, hf, ih (n + 1)]
      rfl
  exact hfrom _ (fun _ _ => rfl) 0

theorem objects_eq_ok_iff {what : String} {payload : Json} {objects : List Fields} :
    Rows.objects what payload = .ok objects ↔ payload.HasRows objects := by
  constructor
  · intro h
    cases payload with
    | obj row =>
      cases h
      exact .one row
    | arr items => exact items_eq_of_objects h ▸ .many objects
    | _ => cases h
  · intro h
    cases h with
    | one row => rfl
    | many => exact objects_map_obj what objects

theorem checkKeys_eq_ok_iff {what : String} {first : Fields} {row : Fields × ℕ} :
    checkKeys what first row = .ok () ↔ ∀ key ∈ row.1.keys, key ∈ first.keys := by
  unfold checkKeys
  split
  · next extra hextra =>
    refine ⟨fun h => (nomatch h), fun h => ?_⟩
    have hnone := List.find?_some hextra
    have hsome := Fields.isSome_get?_iff.2 (h extra (List.mem_of_find?_eq_some hextra))
    rw [Option.isSome_iff_ne_none] at hsome
    exact absurd (Option.isNone_iff_eq_none.1 hnone) hsome
  · next hnone =>
    refine ⟨fun _ key hkey => ?_, fun _ => rfl⟩
    have hsome := List.find?_eq_none.1 hnone key hkey
    exact Fields.isSome_get?_iff.1 (Option.isSome_iff_ne_none.2 fun h => hsome (by rw [h]; rfl))

theorem checkKeys_covers {what : String} {first : Fields} {rows : List Fields} :
    rows.zipIdx.forM (checkKeys what first) = .ok () ↔
      ∀ row ∈ rows, ∀ key ∈ row.keys, key ∈ first.keys := by
  rw [forM_eq_ok]
  simp only [checkKeys_eq_ok_iff]
  constructor
  · intro h row hrow
    obtain ⟨x, hx, rfl⟩ := List.mem_map.1 ((List.zipIdx_map_fst 0 rows).symm ▸ hrow)
    exact h x hx
  · intro h x hx
    exact h x.1 ((List.zipIdx_map_fst 0 rows) ▸ List.mem_map_of_mem hx)

/-- **The payloads whose rows are taken are those with rows that can be inserted.** -/
theorem exists_ofPayload_iff {safety : Safety} {what : String} {payload : Json} :
    (∃ rows, Rows.ofPayload safety what payload = .ok rows) ↔
      ∃ first rest, payload.HasRows (first :: rest) ∧ Insertable safety first rest := by
  unfold Rows.ofPayload
  rw [exists_bind_eq_ok]
  simp only [objects_eq_ok_iff]
  constructor
  · rintro ⟨objects, hobjects, h⟩
    cases objects with
    | nil => exact nomatch h.choose_spec
    | cons first rest =>
      dsimp only at h
      split at h
      · exact nomatch h.choose_spec
      · next hempty =>
        simp only [exists_bind_eq_ok] at h
        obtain ⟨⟨⟩, hkeys, columns, hcolumns, h⟩ := h
        have hlength : first.keys.length = columns.length := (mapM_forall₂ hcolumns).length_eq
        split at h
        · exact nomatch h.choose_spec
        · next hbound =>
          refine ⟨first, rest, hobjects, ?_, ?_, ?_, ?_⟩
          · exact fun hnil => hempty (hnil ▸ rfl)
          · intro key hkey
            exact Ident.exists_parse_iff.1 (exists_mapM_eq_ok.1 ⟨columns, hcolumns⟩ key hkey)
          · intro row hrow
            exact (checkKeys_covers.1 hkeys) row (List.mem_cons_of_mem _ hrow)
          · rw [hlength]
            exact Nat.not_lt.1 hbound
  · rintro ⟨first, rest, hrows, hinsertable⟩
    refine ⟨first :: rest, hrows, ?_⟩
    have hkeys : (first :: rest).zipIdx.forM (checkKeys what first) = .ok () := by
      refine checkKeys_covers.2 ?_
      exact List.forall_mem_cons.2 ⟨fun _ => id, hinsertable.covered⟩
    obtain ⟨columns, hcolumns⟩ : ∃ columns, first.keys.mapM (Ident.parse .column) = .ok columns :=
      exists_mapM_eq_ok.2 fun key hkey => Ident.exists_parse_iff.2 (hinsertable.named key hkey)
    have hlength : first.keys.length = columns.length := (mapM_forall₂ hcolumns).length_eq
    have hbound : ¬ safety.maxTotalParams < (first :: rest).length * columns.length := by
      rw [← hlength]
      exact Nat.not_lt.2 hinsertable.bounded
    have hempty : ¬ first.isEmpty := fun h => hinsertable.columned (List.isEmpty_iff.1 h)
    dsimp only
    rw [if_neg hempty, exists_bind_eq_ok]
    refine ⟨(), hkeys, exists_bind_eq_ok.2 ⟨columns, hcolumns, ?_⟩⟩
    rw [if_neg hbound]
    exact ⟨_, rfl⟩

end Rows

/-! ## Queries -/

namespace Operation

/-- What an operation puts into rows of its own. -/
def payload? : Operation → Option Json
  | .insert payload | .upsert payload _ _ => some payload
  | _ => none

end Operation

/-- What a query is about: a function if it calls one, and a table otherwise. -/
def Query.target (q : Query) : String :=
  match q.operation with
  | .rpc function _ => function
  | _ => q.table

/-- The lists of some filters are not too long. -/
def ListsFit (safety : Safety) (filters : List Filter) : Prop :=
  ∀ column values negated, Filter.member column values negated ∈ filters →
    values.length ≤ safety.maxInElements

/-- The queries that have statements. -/
structure Accepted (safety : Safety) (q : Query) : Prop where
  /-- Insertions have no filters. -/
  unfiltered : q.operation.isInsertion → q.filters = []
  /-- Only queries order and page their rows. -/
  unordered : q.operation.isMutation → q.order = [] ∧ q.limit = none ∧ q.offset = none
  /-- Only mutations give rows back. -/
  unreturned : q.operation.isQuery → q.returning = none
  schema : IsName q.schema
  target : IsName q.target
  selected : ∀ text, q.operation = .select text → IsColumnList text
  returned : ∀ text ∈ q.returning, IsColumnList text
  lists : ListsFit safety q.conditions
  assigned : ∀ pairs, q.operation = .update pairs →
    pairs ≠ [] ∧ ∀ pair ∈ pairs, IsName pair.1
  inserted : ∀ payload ∈ q.operation.payload?,
    ∃ first rest, payload.HasRows (first :: rest) ∧ Insertable safety first rest
  /-- An upsert that overwrites has columns to find conflicts by. -/
  conflicts : ∀ payload columns ignoreDuplicates,
    q.operation = .upsert payload columns ignoreDuplicates →
    (∀ column ∈ columns, IsName (trim column)) ∧ (ignoreDuplicates = false → columns ≠ [])

namespace Filter

theorem checkAll_eq_ok_iff {safety : Safety} {filters : List Filter} :
    checkAll safety filters = .ok () ↔ ListsFit safety filters := by
  rw [checkAll, forM_eq_ok]
  constructor
  · intro h column values negated hmem
    by_contra hlong
    have hcheck := h _ hmem
    rw [check, if_pos (Nat.not_le.1 hlong)] at hcheck
    cases hcheck
  · intro h f hf
    cases f with
    | member column values negated => exact if_neg (Nat.not_lt.2 (h column values negated hf))
    | _ => rfl

end Filter

namespace Statement

theorem checkParts_eq_ok_iff {q : Query} :
    checkParts q = .ok () ↔ (q.operation.isInsertion → q.filters = []) ∧
      (q.operation.isMutation → q.order = [] ∧ q.limit = none ∧ q.offset = none) ∧
      (q.operation.isQuery → q.returning = none) := by
  have hquery : q.operation.isMutation = !q.operation.isQuery := rfl
  unfold checkParts
  simp only [throw_bind_eq_ok, throw_eq_ok, hquery]
  cases q.operation.isInsertion <;> cases q.operation.isQuery <;> simp [and_assoc]

theorem exists_conflictColumns_iff {columns : List String} {ignoreDuplicates : Bool} :
    (∃ cs, conflictColumns columns ignoreDuplicates = .ok cs) ↔
      (∀ column ∈ columns, IsName (trim column)) ∧ (ignoreDuplicates = false → columns ≠ []) := by
  unfold conflictColumns
  rw [exists_bind_eq_ok]
  constructor
  · rintro ⟨cs, hcs, h⟩
    refine ⟨fun column hcolumn => ?_, ?_⟩
    · exact Ident.exists_parse_iff.1 (exists_mapM_eq_ok.1 ⟨cs, hcs⟩ column hcolumn)
    · rintro rfl rfl
      cases hcs
      exact nomatch h.choose_spec
  · rintro ⟨hnames, hsome⟩
    have hparsed : ∀ column ∈ columns, ∃ i, Ident.parse .column (trim column) = .ok i :=
      fun column hcolumn => Ident.exists_parse_iff.2 (hnames column hcolumn)
    obtain ⟨cs, hcs⟩ := exists_mapM_eq_ok.2 hparsed
    have hlength : columns.length = cs.length := (mapM_forall₂ hcs).length_eq
    have hfits : ¬ (cs.isEmpty && !ignoreDuplicates) := by
      intro h
      rw [Bool.and_eq_true, List.isEmpty_iff, Bool.not_eq_true'] at h
      exact hsome h.2 (List.length_eq_zero_iff.1 (hlength.trans (h.1 ▸ rfl)))
    exact ⟨cs, hcs, cs, if_neg hfits⟩

theorem exists_updateColumns_iff {pairs : List (String × Value)} :
    (∃ columns, updateColumns pairs = .ok columns) ↔
      pairs ≠ [] ∧ ∀ pair ∈ pairs, IsName pair.1 := by
  unfold updateColumns
  split
  · next hempty =>
    exact ⟨fun ⟨_, h⟩ => (nomatch h), fun h => absurd (List.isEmpty_iff.1 hempty) h.1⟩
  · next hsome =>
    have hne : pairs ≠ [] := fun h => hsome (List.isEmpty_iff.2 h)
    rw [exists_mapM_eq_ok]
    simp only [exists_map_eq_ok, Ident.exists_parse_iff]
    exact ⟨fun h => ⟨hne, h⟩, fun h => h.2⟩

theorem exists_returning_iff {returning : Option String} :
    (∃ columns, returning.mapM ColumnList.parse = (.ok columns : Except Error _)) ↔
      ∀ text ∈ returning, IsColumnList text := by
  cases returning with
  | none => exact ⟨fun _ _ h => (nomatch h), fun _ => ⟨none, rfl⟩⟩
  | some text =>
    have hmap : (some text).mapM ColumnList.parse =
        (ColumnList.parse text >>= fun columns => pure (some columns)) := rfl
    rw [hmap, exists_map_eq_ok, ColumnList.exists_parse_iff]
    simp

end Statement

open Statement

/-- What an operation asks of its query beside a schema and the right parts. -/
theorem exists_compileIn_iff {safety : Safety} {q : Query} {schema : Ident} :
    (∃ pieces, compileIn safety q schema = .ok pieces) ↔
      match q.operation with
      | .select text => IsName q.table ∧ IsColumnList text ∧
          Filter.checkAll safety q.filters = .ok ()
      | .rpc function _ => IsName function
      | .insert payload => IsName q.table ∧
          (∃ first rest, payload.HasRows (first :: rest) ∧ Insertable safety first rest) ∧
          ∀ text ∈ q.returning, IsColumnList text
      | .upsert payload columns ignoreDuplicates => IsName q.table ∧
          (∃ first rest, payload.HasRows (first :: rest) ∧ Insertable safety first rest) ∧
          ((∀ column ∈ columns, IsName (trim column)) ∧
            (ignoreDuplicates = false → columns ≠ [])) ∧
          ∀ text ∈ q.returning, IsColumnList text
      | .update pairs => IsName q.table ∧ (pairs ≠ [] ∧ ∀ pair ∈ pairs, IsName pair.1) ∧
          Filter.checkAll safety q.filters = .ok () ∧ ∀ text ∈ q.returning, IsColumnList text
      | .delete => IsName q.table ∧ Filter.checkAll safety q.filters = .ok () ∧
          ∀ text ∈ q.returning, IsColumnList text := by
  unfold compileIn
  cases q.operation <;>
    simp only [exists_bind_eq_ok, exists_pure_eq_ok, and_true, exists_and_right, exists_unit_eq_ok,
      Ident.exists_parse_iff, ColumnList.exists_parse_iff, Rows.exists_ofPayload_iff,
      exists_conflictColumns_iff, exists_updateColumns_iff, exists_returning_iff]

/-- An accepted query has all that its operation asks for. -/
theorem Accepted.exists_compileIn {safety : Safety} {q : Query} (h : Accepted safety q)
    (schema : Ident) : ∃ pieces, compileIn safety q schema = .ok pieces := by
  rw [exists_compileIn_iff]
  have htarget := h.target
  have hlists := Filter.checkAll_eq_ok_iff.2 h.lists
  unfold Query.target at htarget
  unfold Query.conditions at hlists
  cases hq : q.operation with
  | select text =>
    rw [hq] at htarget hlists
    exact ⟨htarget, h.selected text hq, hlists⟩
  | rpc function args =>
    rw [hq] at htarget
    exact htarget
  | insert payload =>
    rw [hq] at htarget
    exact ⟨htarget, h.inserted payload (by rw [hq]; rfl), h.returned⟩
  | upsert payload columns ignoreDuplicates =>
    rw [hq] at htarget
    exact ⟨htarget, h.inserted payload (by rw [hq]; rfl),
      h.conflicts payload columns ignoreDuplicates hq, h.returned⟩
  | update pairs =>
    rw [hq] at htarget hlists
    exact ⟨htarget, h.assigned pairs hq, hlists, h.returned⟩
  | delete =>
    rw [hq] at htarget hlists
    exact ⟨htarget, hlists, h.returned⟩

/-- **The queries that have statements are the accepted ones**, unless their making failed. -/
theorem exists_compile_iff {safety : Safety} {q : Query} (h : q.error = none) :
    (∃ s, compile safety q = .ok s) ↔ Accepted safety q := by
  have herror : checkError q = .ok () := by rw [checkError, h]
  unfold compile
  simp only [exists_bind_eq_ok, exists_pure_eq_ok, exists_and_right, exists_unit_eq_ok,
    exists_const, herror, true_and, and_true, checkParts_eq_ok_iff, Ident.exists_parse_iff,
    exists_compileIn_iff]
  constructor
  · rintro ⟨⟨hfilters, horder, hreturning⟩, hschema, hop⟩
    refine ⟨hfilters, horder, hreturning, hschema, ?_, ?_, ?_, ?_, ?_, ?_, ?_⟩
    · unfold Query.target
      cases hq : q.operation <;> rw [hq] at hop
      case rpc => exact hop
      all_goals exact hop.1
    · intro text hq
      rw [hq] at hop
      exact hop.2.1
    · intro text htext
      cases hq : q.operation <;> rw [hq] at hop
      case select | rpc =>
        rw [hreturning (by rw [hq]; rfl)] at htext
        cases htext
      case insert | delete => exact hop.2.2 text htext
      case upsert | update => exact hop.2.2.2 text htext
    · rw [← Filter.checkAll_eq_ok_iff]
      unfold Query.conditions
      cases hq : q.operation <;> rw [hq] at hop
      case select => exact hop.2.2
      case update => exact hop.2.2.1
      case delete => exact hop.2.1
      all_goals rfl
    · intro pairs hq
      rw [hq] at hop
      exact hop.2.1
    · intro payload hpayload
      cases hq : q.operation <;> rw [hq] at hop hpayload <;> cases hpayload
      all_goals exact hop.2.1
    · intro payload columns ignoreDuplicates hq
      rw [hq] at hop
      exact hop.2.2.1
  · intro haccepted
    obtain ⟨schema, -⟩ : ∃ i, Ident.parse .schema q.schema = .ok i :=
      Ident.exists_parse_iff.2 haccepted.schema
    exact ⟨⟨haccepted.unfiltered, haccepted.unordered, haccepted.unreturned⟩,
      haccepted.schema, exists_compileIn_iff.1 (haccepted.exists_compileIn schema)⟩

/-! ## Errors of validation -/

section
variable {α β : Type}

/-- If this fails, it does so with an error of validation. -/
def Validates (x : Except Error α) : Prop := ∀ e, x = .error e → ∃ message, e = .validation message

theorem Validates.ok (a : α) : Validates (.ok a) := fun _ h => nomatch h

theorem Validates.error (message : String) :
    Validates (.error (.validation message) : Except Error α) := by
  rintro e ⟨⟩
  exact ⟨message, rfl⟩

theorem Validates.bind {x : Except Error α} {f : α → Except Error β} (hx : Validates x)
    (hf : ∀ a, x = .ok a → Validates (f a)) : Validates (x >>= f) := by
  cases x with
  | ok a => exact hf a rfl
  | error e => exact fun e' h => hx e' (Except.error.inj h ▸ rfl)

theorem Validates.mapM {f : α → Except Error β} {xs : List α} (h : ∀ x ∈ xs, Validates (f x)) :
    Validates (xs.mapM f) := by
  induction xs with
  | nil => exact .ok []
  | cons x xs ih =>
    obtain ⟨hx, hxs⟩ := List.forall_mem_cons.1 h
    rw [List.mapM_cons]
    exact hx.bind fun y _ => (ih hxs).bind fun ys _ => .ok (y :: ys)

theorem Validates.forM {f : α → Except Error Unit} {xs : List α} (h : ∀ x ∈ xs, Validates (f x)) :
    Validates (xs.forM f) := by
  induction xs with
  | nil => exact .ok ()
  | cons x xs ih =>
    obtain ⟨hx, hxs⟩ := List.forall_mem_cons.1 h
    exact hx.bind fun _ _ => ih hxs

end

theorem Ident.validates_parse (kind : IdentKind) (text : String) :
    Validates (Ident.parse kind text) := by
  unfold Ident.parse
  split
  · exact .error _
  · exact .ok _

theorem ColumnList.validates_parse (text : String) : Validates (ColumnList.parse text) := by
  unfold ColumnList.parse
  split
  · exact .ok _
  · exact .error _
  · exact (Validates.mapM fun _ _ => Ident.validates_parse _ _).bind fun _ _ => .ok _

theorem Filter.validates_checkAll (safety : Safety) (filters : List Filter) :
    Validates (Filter.checkAll safety filters) := by
  refine .forM fun f _ => ?_
  unfold check
  split
  · split
    · exact .error _
    · exact .ok _
  · exact .ok _

theorem Rows.validates_ofPayload (safety : Safety) (what : String) (payload : Json) :
    Validates (Rows.ofPayload safety what payload) := by
  have hobjects : Validates (Rows.objects what payload) := by
    unfold Rows.objects
    split
    · exact .ok _
    · refine .mapM fun x _ => ?_
      obtain ⟨item, i⟩ := x
      cases item with
      | obj row => exact .ok row
      | _ => exact .error _
    · exact .error _
  unfold Rows.ofPayload
  refine hobjects.bind fun _ _ => ?_
  split
  · exact .error _
  · next first rest _ =>
    split
    · exact .error _
    · have hkeys : Validates ((first :: rest).zipIdx.forM (checkKeys what first)) := by
        refine .forM fun row _ => ?_
        unfold checkKeys
        split
        · exact .error _
        · exact .ok _
      refine hkeys.bind fun _ _ => ?_
      refine (Validates.mapM fun _ _ => Ident.validates_parse _ _).bind fun columns _ => ?_
      dsimp only
      split
      · exact .error _
      · exact .ok _

namespace Statement

theorem validates_conflictColumns (columns : List String) (ignoreDuplicates : Bool) :
    Validates (conflictColumns columns ignoreDuplicates) := by
  refine (Validates.mapM fun _ _ => Ident.validates_parse _ _).bind fun cs _ => ?_
  split
  · exact .error _
  · exact .ok _

theorem validates_updateColumns (pairs : List (String × Value)) :
    Validates (updateColumns pairs) := by
  unfold updateColumns
  split
  · exact .error _
  · exact .mapM fun _ _ => (Ident.validates_parse _ _).bind fun _ _ => .ok _

theorem validates_returning (returning : Option String) :
    Validates (returning.mapM ColumnList.parse) := by
  cases returning with
  | none => exact .ok _
  | some text => exact (ColumnList.validates_parse text).bind fun _ _ => .ok _

theorem validates_checkParts (q : Query) : Validates (checkParts q) := by
  unfold checkParts
  repeat' split
  all_goals first
    | exact .ok _
    | exact .error _

theorem validates_compileIn (safety : Safety) (q : Query) (schema : Ident) :
    Validates (compileIn safety q schema) := by
  have htable := Ident.validates_parse .table q.table
  have hreturning := validates_returning q.returning
  have hlists := Filter.validates_checkAll safety q.filters
  unfold compileIn
  cases q.operation with
  | select text =>
    exact htable.bind fun _ _ => (ColumnList.validates_parse text).bind fun _ _ =>
      hlists.bind fun _ _ => .ok _
  | rpc function args => exact (Ident.validates_parse _ _).bind fun _ _ => .ok _
  | insert payload =>
    exact htable.bind fun _ _ => (Rows.validates_ofPayload _ _ _).bind fun _ _ =>
      hreturning.bind fun _ _ => .ok _
  | upsert payload columns ignoreDuplicates =>
    exact htable.bind fun _ _ => (Rows.validates_ofPayload _ _ _).bind fun _ _ =>
      (validates_conflictColumns _ _).bind fun _ _ => hreturning.bind fun _ _ => .ok _
  | update pairs =>
    exact htable.bind fun _ _ => (validates_updateColumns pairs).bind fun _ _ =>
      hlists.bind fun _ _ => hreturning.bind fun _ _ => .ok _
  | delete => exact htable.bind fun _ _ => hlists.bind fun _ _ => hreturning.bind fun _ _ => .ok _

end Statement

/-- **A query is refused with an error of validation**, unless its making failed. -/
theorem validates_compile {safety : Safety} {q : Query} (h : q.error = none) :
    Validates (compile safety q) := by
  have herror : checkError q = .ok () := by rw [checkError, h]
  unfold compile
  rw [herror]
  exact (validates_checkParts q).bind fun _ _ => (Ident.validates_parse _ _).bind fun _ _ =>
    (validates_compileIn safety q _).bind fun _ _ => .ok _

end QueryClient
