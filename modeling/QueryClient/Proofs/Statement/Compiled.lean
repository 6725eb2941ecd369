/-
  What compiled statements are made of.

  * `Compiled safety q` holds of the pieces of the statement of a query `q`, with one case for each
    operation, and `Counted q mode` of the pieces of the statement that counts its rows;
  * `compiled_of_compile` and `counted_of_compileCount`: nothing else is ever made.
-/
import QueryClient.Statement.Compile
import Mathlib.Data.List.Forall2

namespace QueryClient

/-! ## Results that may be errors -/

section
variable {ε α β : Type}

theorem bind_eq_ok {x : Except ε α} {f : α → Except ε β} {b : β} :
    (x >>= f) = .ok b ↔ ∃ a, x = .ok a ∧ f a = .ok b := by
  cases x <;> simp [bind, Except.bind]

theorem mapM_forall₂ {f : α → Except ε β} : ∀ {xs : List α} {ys : List β}, xs.mapM f = .ok ys →
    List.Forall₂ (fun x y => f x = .ok y) xs ys
  | [], ys, h => by
    rw [List.mapM_nil] at h
    cases h
    exact .nil
  | x :: xs, ys, h => by
    rw [List.mapM_cons, bind_eq_ok] at h
    obtain ⟨y, hy, h⟩ := h
    rw [bind_eq_ok] at h
    obtain ⟨ys', hys, h⟩ := h
    cases h
    exact .cons hy (mapM_forall₂ hys)

/-- Where a list of results is an error, an item of the list has it. -/
theorem exists_of_mapM_error {f : α → Except ε β} {xs : List α} {e : ε}
    (h : xs.mapM f = .error e) : ∃ x ∈ xs, f x = .error e := by
  induction xs with
  | nil => cases h
  | cons x xs ih =>
    rw [List.mapM_cons] at h
    cases hx : f x with
    | error e' =>
      rw [hx] at h
      cases h
      exact ⟨x, List.mem_cons_self, hx⟩
    | ok y =>
      cases hxs : xs.mapM f with
      | error e' =>
        rw [hx, hxs] at h
        cases h
        obtain ⟨x', hmem, hx'⟩ := ih hxs
        exact ⟨x', List.mem_cons_of_mem _ hmem, hx'⟩
      | ok ys =>
        rw [hx, hxs] at h
        cases h

theorem forall₂_mem_right {R : α → β → Prop} {xs : List α} {ys : List β}
    (h : List.Forall₂ R xs ys) : ∀ y ∈ ys, ∃ x ∈ xs, R x y := by
  induction h with
  | nil => simp
  | cons hxy _ ih =>
    intro y hy
    rcases List.mem_cons.1 hy with rfl | hy
    · exact ⟨_, List.mem_cons_self, hxy⟩
    · obtain ⟨x, hx, hxy⟩ := ih y hy
      exact ⟨x, List.mem_cons_of_mem _ hx, hxy⟩

theorem map_eq_of_forall₂ {γ : Type} {f : α → γ} {g : β → γ} {xs : List α} {ys : List β}
    (h : List.Forall₂ (fun x y => f x = g y) xs ys) : xs.map f = ys.map g := by
  induction h with
  | nil => rfl
  | cons hxy _ ih => rw [List.map_cons, List.map_cons, hxy, ih]

end

/-! ## Parts of queries that were read -/

theorem Ident.parse_ok {kind : IdentKind} {text : String} {i : Ident}
    (h : Ident.parse kind text = .ok i) : i.name = text := by
  unfold Ident.parse at h
  split at h
  · cases h
  · cases h; rfl

/-- The rows of a payload: it is one row, or its items are. -/
def Json.rows : Json → List Fields
  | .obj fields => [fields]
  | .arr items => items.filterMap fun
    | .obj fields => some fields
    | _ => none
  | _ => []

/-- The columns of a payload, which are the keys of its first row. -/
def Json.columns (payload : Json) : List String := (payload.rows.head?.map Fields.keys).getD []

theorem Json.rows_map_obj (objects : List Fields) : (Json.arr (objects.map .obj)).rows = objects := by
  simp [Json.rows, List.filterMap_map]

theorem Rows.items_eq_of_objects {what : String} {items : List Json} {objects : List Fields}
    (h : Rows.objects what (.arr items) = .ok objects) : items = objects.map .obj := by
  unfold Rows.objects at h
  have hf : List.Forall₂ (fun item row => item = Json.obj row) (items.zipIdx.map Prod.fst)
      objects := by
    refine List.forall₂_map_left_iff.2 ((mapM_forall₂ h).imp fun x row hx => ?_)
    obtain ⟨item, i⟩ := x
    cases item <;> cases hx
    rfl
  have hmap : List.Forall₂ (· = ·) items (objects.map Json.obj) := by
    rw [List.zipIdx_map_fst] at hf
    exact List.forall₂_map_right_iff.2 hf
  rwa [List.forall₂_eq_eq_eq] at hmap

theorem Rows.objects_ok {what : String} {payload : Json} {objects : List Fields}
    (h : Rows.objects what payload = .ok objects) : objects = payload.rows := by
  cases payload with
  | obj fields =>
    cases h
    rfl
  | arr items => rw [Rows.items_eq_of_objects h, Json.rows_map_obj]
  | _ => cases h

/-- What the rows of an insert are: the columns are the keys of the first row, and every row has
a cell for each of them. -/
theorem Rows.ofPayload_ok {safety : Safety} {what : String} {payload : Json} {rows : Rows}
    (h : Rows.ofPayload safety what payload = .ok rows) :
    List.Forall₂ (fun key c => Ident.parse .column key = .ok c) payload.columns rows.columns ∧
      rows.rows = payload.rows.map fun row => payload.columns.map (Rows.cell row) := by
  unfold Rows.ofPayload at h
  obtain ⟨objects, ho, h⟩ := bind_eq_ok.1 h
  obtain rfl := Rows.objects_ok ho
  unfold Json.columns
  split at h
  · cases h
  · next first rest hrows =>
    split at h
    · cases h
    · obtain ⟨-, -, h⟩ := bind_eq_ok.1 h
      obtain ⟨columns, hc, h⟩ := bind_eq_ok.1 h
      dsimp only at h
      split at h
      · cases h
      · cases h
        rw [hrows]
        exact ⟨mapM_forall₂ hc, rfl⟩

theorem updateColumns_ok {texts : List (String × Value)} {pairs : List (Ident × Value)}
    (h : Statement.updateColumns texts = .ok pairs) :
    List.Forall₂ (fun text pair => Ident.parse .column text.1 = .ok pair.1 ∧ text.2 = pair.2)
      texts pairs := by
  unfold Statement.updateColumns at h
  split_ifs at h
  refine (mapM_forall₂ h).imp fun text pair hp => ?_
  obtain ⟨column, hc, hp⟩ := bind_eq_ok.1 hp
  cases hp
  exact ⟨hc, rfl⟩

/-! ## Statements by operation -/

open Piece Statement

/-- The pieces of the statements of a query. -/
inductive Compiled (safety : Safety) (q : Query) : List Piece → Prop
  | select {text schema table columns} : q.operation = .select text →
      Ident.parse .schema q.schema = .ok schema → Ident.parse .table q.table = .ok table →
      ColumnList.parse text = .ok columns →
      Compiled safety q (word .select :: space :: columns.pieces ++ clause [.fromWord] ++
        target schema table ++ Filter.condition q.filters ++ ordering q.order ++ paging q)
  | rpc {text args schema function} : q.operation = .rpc text args →
      Ident.parse .schema q.schema = .ok schema → Ident.parse .function text = .ok function →
      Compiled safety q (word .select :: space :: symbol .star :: clause [.fromWord] ++
        application schema function args ++ ordering q.order ++ paging q)
  | insert {payload schema table rows returning} : q.operation = .insert payload →
      Ident.parse .schema q.schema = .ok schema → Ident.parse .table q.table = .ok table →
      Rows.ofPayload safety "Insert" payload = .ok rows →
      q.returning.mapM ColumnList.parse = .ok returning →
      Compiled safety q (rowPieces schema table rows ++ giveBack returning)
  | upsert {payload onConflict ignoreDuplicates schema table rows conflict returning} :
      q.operation = .upsert payload onConflict ignoreDuplicates →
      Ident.parse .schema q.schema = .ok schema → Ident.parse .table q.table = .ok table →
      Rows.ofPayload safety "Upsert" payload = .ok rows →
      conflictColumns onConflict ignoreDuplicates = .ok conflict →
      q.returning.mapM ColumnList.parse = .ok returning →
      Compiled safety q (rowPieces schema table rows ++
        resolution rows.columns conflict ignoreDuplicates ++ giveBack returning)
  | update {texts schema table pairs returning} : q.operation = .update texts →
      Ident.parse .schema q.schema = .ok schema → Ident.parse .table q.table = .ok table →
      updateColumns texts = .ok pairs → q.returning.mapM ColumnList.parse = .ok returning →
      Compiled safety q (word .update :: space :: target schema table ++ clause [.setWord] ++
        assignments pairs ++ Filter.condition q.filters ++ giveBack returning)
  | delete {schema table returning} : q.operation = .delete →
      Ident.parse .schema q.schema = .ok schema → Ident.parse .table q.table = .ok table →
      q.returning.mapM ColumnList.parse = .ok returning →
      Compiled safety q (phrase [.delete, .fromWord] ++ space :: target schema table ++
        Filter.condition q.filters ++ giveBack returning)

theorem compiled_of_compileIn {safety : Safety} {q : Query} {schema : Ident} {pieces : List Piece}
    (hs : Ident.parse .schema q.schema = .ok schema)
    (h : compileIn safety q schema = .ok pieces) : Compiled safety q pieces := by
  unfold compileIn at h
  dsimp only at h
  split at h
  · next text hop =>
    obtain ⟨table, ht, h⟩ := bind_eq_ok.1 h
    obtain ⟨columns, hc, h⟩ := bind_eq_ok.1 h
    obtain ⟨-, -, h⟩ := bind_eq_ok.1 h
    cases h
    exact .select hop hs ht hc
  · next text args hop =>
    obtain ⟨function, hf, h⟩ := bind_eq_ok.1 h
    cases h
    exact .rpc hop hs hf
  · next payload hop =>
    obtain ⟨table, ht, h⟩ := bind_eq_ok.1 h
    obtain ⟨rows, hr, h⟩ := bind_eq_ok.1 h
    obtain ⟨returning, hret, h⟩ := bind_eq_ok.1 h
    cases h
    exact .insert hop hs ht hr hret
  · next payload onConflict ignoreDuplicates hop =>
    obtain ⟨table, ht, h⟩ := bind_eq_ok.1 h
    obtain ⟨rows, hr, h⟩ := bind_eq_ok.1 h
    obtain ⟨conflict, hc, h⟩ := bind_eq_ok.1 h
    obtain ⟨returning, hret, h⟩ := bind_eq_ok.1 h
    cases h
    exact .upsert hop hs ht hr hc hret
  · next texts hop =>
    obtain ⟨table, ht, h⟩ := bind_eq_ok.1 h
    obtain ⟨pairs, hp, h⟩ := bind_eq_ok.1 h
    obtain ⟨-, -, h⟩ := bind_eq_ok.1 h
    obtain ⟨returning, hret, h⟩ := bind_eq_ok.1 h
    cases h
    exact .update hop hs ht hp hret
  · next hop =>
    obtain ⟨table, ht, h⟩ := bind_eq_ok.1 h
    obtain ⟨-, -, h⟩ := bind_eq_ok.1 h
    obtain ⟨returning, hret, h⟩ := bind_eq_ok.1 h
    cases h
    exact .delete hop hs ht hret

/-- **Every statement of a query is one of these.** -/
theorem compiled_of_compile {safety : Safety} {q : Query} {s : Statement}
    (h : compile safety q = .ok s) : Compiled safety q s.pieces := by
  unfold compile at h
  obtain ⟨-, -, h⟩ := bind_eq_ok.1 h
  obtain ⟨-, -, h⟩ := bind_eq_ok.1 h
  obtain ⟨schema, hs, h⟩ := bind_eq_ok.1 h
  obtain ⟨pieces, hp, h⟩ := bind_eq_ok.1 h
  cases h
  exact compiled_of_compileIn hs hp

/-- The pieces of the statements that count the rows of a query. -/
inductive Counted (q : Query) (mode : CountMode) : List Piece → Prop
  | select {text schema table} : q.operation = .select text →
      Ident.parse .schema q.schema = .ok schema → Ident.parse .table q.table = .ok table →
      Counted q mode (countFront mode ++ target schema table ++ Filter.condition q.filters)
  | rpc {text args schema function} : q.operation = .rpc text args →
      Ident.parse .schema q.schema = .ok schema → Ident.parse .function text = .ok function →
      Counted q mode
        (countFront mode ++ application schema function args ++ Filter.condition q.filters)

/-- **Every counting statement is one of these.** -/
theorem counted_of_compileCount {safety : Safety} {q : Query} {mode : CountMode} {s : Statement}
    (h : compileCount safety q mode = .ok s) : Counted q mode s.pieces := by
  unfold compileCount at h
  obtain ⟨-, -, h⟩ := bind_eq_ok.1 h
  obtain ⟨schema, hs, h⟩ := bind_eq_ok.1 h
  dsimp only at h
  split at h
  · next text hop =>
    obtain ⟨table, ht, h⟩ := bind_eq_ok.1 h
    obtain ⟨source, hsrc, h⟩ := bind_eq_ok.1 h
    obtain ⟨-, -, h⟩ := bind_eq_ok.1 h
    cases hsrc
    cases h
    exact .select hop hs ht
  · next text args hop =>
    obtain ⟨function, hf, h⟩ := bind_eq_ok.1 h
    obtain ⟨source, hsrc, h⟩ := bind_eq_ok.1 h
    obtain ⟨-, -, h⟩ := bind_eq_ok.1 h
    cases hsrc
    cases h
    exact .rpc hop hs hf
  · cases h

end QueryClient
