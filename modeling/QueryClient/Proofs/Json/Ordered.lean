/-
  Objects whose keys stand in order.

  * `Fields.ordered_ofList`: building an object from pairs puts its keys in order;
  * `Fields.ofList_eq_self`: building one from pairs in order changes nothing.
-/
import QueryClient.Json.Basic
import Mathlib.Data.List.Sort
import Mathlib.Data.String.Basic

namespace QueryClient.Fields

/-- The keys stand in order and no key occurs twice. -/
def Ordered (fields : Fields) : Prop := fields.Pairwise fun f g => f.1 < g.1

theorem mem_insert {key : String} {value : Json} {f : String × Json} : ∀ {fields : Fields},
    f ∈ Fields.insert key value fields → f = (key, value) ∨ f ∈ fields
  | [], h => Or.inl (List.mem_singleton.1 h)
  | (k, v) :: rest, h => by
    unfold insert at h
    split_ifs at h with hlt heq
    · exact List.mem_cons.1 h
    · exact (List.mem_cons.1 h).imp_right (List.mem_cons_of_mem _)
    · rcases List.mem_cons.1 h with rfl | h
      · exact Or.inr List.mem_cons_self
      · exact (mem_insert h).imp_right (List.mem_cons_of_mem _)

theorem ordered_insert (key : String) (value : Json) {fields : Fields} (h : Ordered fields) :
    Ordered (Fields.insert key value fields) := by
  unfold Ordered at h ⊢
  fun_induction insert key value fields with
  | case1 => exact List.pairwise_singleton _ _
  | case2 k v rest hlt =>
    refine List.pairwise_cons.2 ⟨fun f hf => ?_, h⟩
    rcases List.mem_cons.1 hf with rfl | hf
    · exact hlt
    · exact hlt.trans ((List.pairwise_cons.1 h).1 f hf)
  | case3 v rest hlt => exact List.pairwise_cons.2 (List.pairwise_cons.1 h)
  | case4 k v rest hlt hne ih =>
    obtain ⟨hk, hrest⟩ := List.pairwise_cons.1 h
    refine List.pairwise_cons.2 ⟨fun f hf => ?_, ih hrest⟩
    rcases mem_insert hf with rfl | hf
    · exact lt_of_le_of_ne (not_lt.1 hlt) (Ne.symm hne)
    · exact hk f hf

theorem ordered_foldl {pairs : List (String × Json)} : ∀ {fields : Fields}, Ordered fields →
    Ordered (pairs.foldl (fun fields pair => insert pair.1 pair.2 fields) fields) := by
  induction pairs with
  | nil => exact id
  | cons pair pairs ih => exact fun h => ih (ordered_insert _ _ h)

theorem ordered_ofList (pairs : List (String × Json)) : Ordered (ofList pairs) :=
  ordered_foldl List.Pairwise.nil

/-- A key after all others goes to the end. -/
theorem insert_of_forall_lt {key : String} {value : Json} {fields : Fields}
    (h : ∀ f ∈ fields, f.1 < key) : insert key value fields = fields ++ [(key, value)] := by
  induction fields with
  | nil => rfl
  | cons field fields ih =>
    obtain ⟨hfield, hfields⟩ := List.forall_mem_cons.1 h
    rw [insert, if_neg hfield.asymm, if_neg hfield.ne', ih hfields, List.cons_append]

theorem foldl_insert_of_ordered {pairs : List (String × Json)} : ∀ {fields : Fields},
    Ordered (fields ++ pairs) →
    pairs.foldl (fun fields pair => insert pair.1 pair.2 fields) fields = fields ++ pairs := by
  induction pairs with
  | nil => exact fun _ => (List.append_nil _).symm
  | cons pair pairs ih =>
    intro fields h
    have hlast : ∀ f ∈ fields, f.1 < pair.1 := fun f hf =>
      (List.pairwise_append.1 h).2.2 f hf pair List.mem_cons_self
    rw [List.append_cons] at h ⊢
    rw [List.foldl_cons, insert_of_forall_lt hlast, ih h]

/-- **Pairs in order are an object as they are.** -/
theorem ofList_eq_self {fields : Fields} (h : Ordered fields) : ofList fields = fields :=
  foldl_insert_of_ordered h

/-- The fields of an object are among the pairs it is built from. -/
theorem mem_of_mem_ofList {pairs : List (String × Json)} {f : String × Json}
    (h : f ∈ ofList pairs) : f ∈ pairs := by
  have hfoldl : ∀ {fields : Fields},
      f ∈ pairs.foldl (fun fields pair => insert pair.1 pair.2 fields) fields →
      f ∈ fields ∨ f ∈ pairs := by
    clear h
    induction pairs with
    | nil => exact Or.inl
    | cons pair pairs ih =>
      intro fields h
      rcases ih h with h | h
      · rcases mem_insert h with rfl | h
        · exact Or.inr List.mem_cons_self
        · exact Or.inl h
      · exact Or.inr (List.mem_cons_of_mem _ h)
  exact (hfoldl h).resolve_left List.not_mem_nil

end QueryClient.Fields
