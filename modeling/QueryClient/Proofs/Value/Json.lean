/-
  Values as JSON, and JSON as values.

  * `Json.isKept` holds of the JSON values that come back from their bound values;
  * `Value.StandsFor`: what a value has to do with the JSON that it is bound for;
  * `Value.standsFor_ofJson`: a JSON value is bound as a value that stands for it.
-/
import QueryClient.Value
import Mathlib.Data.Int.Notation
import Mathlib.Tactic.SplitIfs

namespace QueryClient

open QueryClient.Number

/-- Whether a JSON value is the same after it was bound.  Only numbers may not be; an array or an
object stays JSON, with all that it holds. -/
def Json.isKept : Json → Bool
  | .int i => isSigned 64 i
  | .float x => x.isFinite
  | _ => true

namespace Value

theorem toJsonList_eq_map : ∀ items : List Value, toJsonList items = items.map toJson
  | [] => rfl
  | v :: rest => by rw [toJsonList, toJsonList_eq_map rest, List.map_cons]

/-- A bound value in the place of a JSON value: as JSON it is the same value exactly if that is
kept, and a whole number is bound as a floating point number exactly if it is not kept. -/
structure StandsFor (v : Value) (j : Json) : Prop where
  toJson_eq_iff : v.toJson = j ↔ j.isKept
  exists_float_iff : ∀ i, j = .int i → ((∃ x, v = .float x) ↔ ¬ isSigned 64 i)

theorem ofJson_int_of_isSigned {i : ℤ} (h : isSigned 64 i) : ofJson (.int i) = .int i := if_pos h

theorem ofJson_int_of_not_isSigned {i : ℤ} (h : ¬ isSigned 64 i) :
    ofJson (.int i) = .float (.ofInt i) := if_neg h

/-- A floating point number is never a whole number as JSON. -/
theorem toJson_float_ne_int (x : Double) (i : ℤ) : toJson (.float x) ≠ .int i := by
  unfold toJson Json.ofDouble
  split_ifs <;> nofun

theorem toJson_float_eq_iff (x : Double) : toJson (.float x) = .float x ↔ x.isFinite := by
  unfold toJson Json.ofDouble
  split_ifs with h
  · exact iff_of_true rfl h
  · exact iff_of_false nofun h

/-- **A JSON value is bound as a value that stands for it.** -/
theorem standsFor_ofJson (j : Json) : (ofJson j).StandsFor j := by
  cases j with
  | int i =>
    by_cases h : isSigned 64 i
    · rw [ofJson_int_of_isSigned h]
      refine ⟨iff_of_true rfl h, ?_⟩
      rintro _ ⟨⟩
      exact iff_of_false nofun (not_not_intro h)
    · rw [ofJson_int_of_not_isSigned h]
      refine ⟨iff_of_false (toJson_float_ne_int _ i) h, ?_⟩
      rintro _ ⟨⟩
      exact iff_of_true ⟨_, rfl⟩ h
  | float x => exact ⟨toJson_float_eq_iff x, nofun⟩
  | _ => exact ⟨iff_of_true rfl rfl, nofun⟩

end Value

end QueryClient
