/-
  Values inside texts.

  A text may spell a value that is a text again.  Such layers come to an end, as a text that is
  read is shorter than the one it is read from.

  * `wrapped n j` is a value as a text in a text, `n` times over;
  * `Unwraps j o`: what is left of a value without its layers, nothing if a text at some level is
    no JSON;
  * `exists_unwraps`, `Unwraps.unique`: there is always one such end;
  * `Unwraps.wrapped`: texts put around a value are taken off again.
-/
import QueryClient.Proofs.Json.Literal

namespace QueryClient.Json

/-! ## Equality -/

mutual

/-- Whether two values are the same. -/
def same : Json → Json → Bool
  | .null, .null => true
  | .bool a, .bool b => a = b
  | .int i, .int k => i = k
  | .float x, .float y => x = y
  | .str s, .str t => s = t
  | .arr items, .arr others => sameItems items others
  | .obj fields, .obj others => sameFields fields others
  | _, _ => false

def sameItems : List Json → List Json → Bool
  | [], [] => true
  | a :: items, b :: others => same a b && sameItems items others
  | _, _ => false

def sameFields : List (String × Json) → List (String × Json) → Bool
  | [], [] => true
  | (k, a) :: fields, (l, b) :: others => decide (k = l) && same a b && sameFields fields others
  | _, _ => false

end

mutual

theorem same_iff : ∀ a b : Json, same a b = true ↔ a = b
  | .null, b => by cases b <;> simp [same]
  | .bool _, b => by cases b <;> simp [same]
  | .int _, b => by cases b <;> simp [same]
  | .float _, b => by cases b <;> simp [same]
  | .str _, b => by cases b <;> simp [same]
  | .arr items, b => by cases b <;> simp [same, sameItems_iff items]
  | .obj fields, b => by cases b <;> simp [same, sameFields_iff fields]

theorem sameItems_iff : ∀ a b : List Json, sameItems a b = true ↔ a = b
  | [], b => by cases b <;> simp [sameItems]
  | a :: items, b => by cases b <;> simp [sameItems, same_iff a, sameItems_iff items]

theorem sameFields_iff : ∀ a b : List (String × Json), sameFields a b = true ↔ a = b
  | [], b => by cases b <;> simp [sameFields]
  | _ :: _, [] => by simp [sameFields]
  | (k, a) :: fields, (l, b) :: others => by
    simp [sameFields, same_iff a, sameFields_iff fields]

end

instance : DecidableEq Json := fun a b => decidable_of_iff _ (same_iff a b)

/-! ## Layers -/

/-- A value as the text of a text of it, `n` times over. -/
def wrapped (j : Json) : ℕ → Json
  | 0 => j
  | n + 1 => .str (wrapped j n).toText

/-- What is inside the texts of a value: nothing if a text at some level is no JSON. -/
inductive Unwraps : Json → Option Json → Prop
  | plain {j : Json} (h : ∀ text, j ≠ .str text) : Unwraps j (some j)
  | junk {text : String} (h : parse? text = none) : Unwraps (.str text) none
  | layer {text : String} {j : Json} {o : Option Json} (h : parse? text = some j)
      (hj : Unwraps j o) : Unwraps (.str text) o

variable {j : Json} {o : Option Json} {text : String}

/-- How long a text is, where only texts count. -/
def textLength : Json → ℕ
  | .str text => text.length + 1
  | _ => 0

/-- What is read from a text is less of a text than it. -/
theorem textLength_lt (h : parse? text = some j) : j.textLength < textLength (.str text) := by
  cases j with
  | str s => exact Nat.succ_lt_succ (Nat.lt_of_succ_lt (length_of_parse? h))
  | _ => exact Nat.succ_pos _

/-- **The layers come to an end.** -/
theorem exists_unwraps (j : Json) : ∃ o, j.Unwraps o := by
  induction hn : j.textLength using Nat.strong_induction_on generalizing j with
  | _ n ih =>
    cases j with
    | str text =>
      cases hparse : parse? text with
      | none => exact ⟨none, .junk hparse⟩
      | some inner =>
        obtain ⟨o, ho⟩ := ih _ (hn ▸ textLength_lt hparse) inner rfl
        exact ⟨o, .layer hparse ho⟩
    | _ => exact ⟨_, .plain fun _ => nofun⟩

theorem Unwraps.unique {o' : Option Json} (h : j.Unwraps o) (h' : j.Unwraps o') : o = o' := by
  induction h with
  | plain hplain =>
    cases h' with
    | plain => rfl
    | junk => exact absurd rfl (hplain _)
    | layer => exact absurd rfl (hplain _)
  | junk hnone =>
    cases h' with
    | plain hplain => exact absurd rfl (hplain _)
    | junk => rfl
    | layer hsome => exact nomatch hnone.symm.trans hsome
  | layer hsome _ ih =>
    cases h' with
    | plain hplain => exact absurd rfl (hplain _)
    | junk hnone => exact nomatch hnone.symm.trans hsome
    | layer hsome' hj =>
      obtain rfl := Option.some.inj (hsome.symm.trans hsome')
      exact ih hj

/-- A value that is read back from its text is so from the texts around it. -/
theorem parse?_wrapped (h : parse? j.toText = some j) (n : ℕ) :
    parse? (j.wrapped n).toText = some (j.wrapped n) := by
  cases n with
  | zero => exact h
  | succ n => exact parse?_toText_str _

/-- **Texts put around a value are taken off again.** -/
theorem Unwraps.wrapped (h : parse? j.toText = some j) (ho : j.Unwraps o) (n : ℕ) :
    (j.wrapped n).Unwraps o := by
  induction n with
  | zero => exact ho
  | succ n ih => exact .layer (parse?_wrapped h n) ih

end QueryClient.Json
