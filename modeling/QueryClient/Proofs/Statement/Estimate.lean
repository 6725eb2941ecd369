/-
  The planner's estimate of a number of rows.

  However often a plan is put into a text, the same estimate is read from it.  There is one
  exactly if the plan inside has a number where the planner puts its estimate; it is that number as
  a floating point number, rounded to the nearest integer of 64 bits.

  * `planRows?_str`: the plan in a text is read as the text's value is;
  * `PlansRows plan rows`: a plan has a value where the planner puts its estimate;
  * `rowsOfPlan?_eq_some_iff`: the estimate in a plan that is no text;
  * `planRows?_spec`: the estimate in any value.
-/
import QueryClient.Proofs.Json.Unwrapped
import QueryClient.Proofs.Number.Rounded
import QueryClient.Statement.Plan

namespace QueryClient.Statement

open QueryClient.Number

variable {j plan : Json} {o : Option Json}

/-! ## Plans in texts -/

/-- The fuel is never used up. -/
theorem planRowsWithin_eq {fuel : ℕ} (h : j.Unwraps o) (hfuel : j.textLength < fuel) :
    planRowsWithin fuel j = o.bind rowsOfPlan? := by
  induction h generalizing fuel with
  | plain hplain =>
    obtain ⟨fuel, rfl⟩ : ∃ k, fuel = k + 1 := ⟨fuel - 1, by omega⟩
    rename_i j
    cases j with
    | str text => exact absurd rfl (hplain text)
    | _ => rfl
  | junk hparse =>
    obtain ⟨fuel, rfl⟩ : ∃ k, fuel = k + 1 := ⟨fuel - 1, by omega⟩
    rw [planRowsWithin, hparse]
    rfl
  | layer hparse _ ih =>
    obtain ⟨fuel, rfl⟩ : ∃ k, fuel = k + 1 := ⟨fuel - 1, by omega⟩
    have hless := Json.textLength_lt hparse
    rw [planRowsWithin, hparse, Option.bind_some]
    exact ih (by omega)

/-- **The estimate is read from what is inside the texts.** -/
theorem planRows?_eq (h : j.Unwraps o) : planRows? j = o.bind rowsOfPlan? := by
  cases j with
  | str text =>
    have hfuel : Json.textLength (.str text) < text.length + 2 := Nat.lt_succ_self _
    exact planRowsWithin_eq h hfuel
  | _ =>
    cases h with
    | plain => rfl

/-- A text is read, and its value is taken in its place. -/
theorem planRows?_str (text : String) :
    planRows? (.str text) = (Json.parse? text).bind planRows? := by
  cases hparse : Json.parse? text with
  | none => exact planRows?_eq (.junk hparse)
  | some j =>
    obtain ⟨o, ho⟩ := j.exists_unwraps
    rw [planRows?_eq (.layer hparse ho), Option.bind_some, planRows?_eq ho]

/-! ## Plans -/

/-- A value where the planner puts its estimate. -/
inductive PlansRows : Json → Json → Prop
  | intro {entry plan : Fields} {items : List Json} {rows : Json}
      (hplan : entry.get? "Plan" = some (.obj plan))
      (hrows : Fields.get? plan "Plan Rows" = some rows) :
      PlansRows (.arr (.obj entry :: items)) rows

/-- A number as a floating point number. -/
inductive IsDouble : Json → Double → Prop
  | float (x : Double) : IsDouble (.float x) x
  | int (i : ℤ) : IsDouble (.int i) (.ofInt i)

theorem double?_eq_some_iff {rows : Json} {x : Double} :
    rows.double? = some x ↔ IsDouble rows x := by
  constructor
  · intro h
    cases rows with
    | int i => exact Option.some.inj h ▸ IsDouble.int i
    | float y => exact Option.some.inj h ▸ IsDouble.float y
    | _ => cases h
  · rintro (_ | _) <;> rfl

theorem field?_eq_some_iff {key : String} {value : Json} :
    j.field? key = some value ↔
      ∃ fields, j = .obj fields ∧ Fields.get? fields key = some value := by
  constructor
  · intro h
    cases j with
    | obj fields => exact ⟨fields, rfl, h⟩
    | _ => cases h
  · rintro ⟨_, rfl, h⟩
    exact h

theorem first?_eq_some_iff {item : Json} :
    j.first? = some item ↔ ∃ items, j = .arr (item :: items) := by
  constructor
  · intro h
    cases j with
    | arr items =>
      cases items with
      | nil => cases h
      | cons _ items =>
        cases h
        exact ⟨items, rfl⟩
    | _ => cases h
  · rintro ⟨_, rfl⟩
    rfl

/-- Looking the estimate up step by step finds the value at its place. -/
theorem lookup_eq_some_iff {rows : Json} :
    ((plan.first?.bind (Json.field? "Plan")).bind (Json.field? "Plan Rows")) = some rows ↔
      PlansRows plan rows := by
  simp only [Option.bind_eq_some_iff, first?_eq_some_iff, field?_eq_some_iff]
  constructor
  · rintro ⟨_, ⟨_, ⟨_, rfl⟩, _, rfl, hplan⟩, _, rfl, hrows⟩
    exact .intro hplan hrows
  · rintro ⟨hplan, hrows⟩
    exact ⟨_, ⟨_, ⟨_, rfl⟩, _, rfl, hplan⟩, _, rfl, hrows⟩

/-- **The estimate in a plan that is no text** is there exactly if a finite number is at its
place. -/
theorem rowsOfPlan?_eq_some_iff {r : ℤ} :
    rowsOfPlan? plan = some r ↔ ∃ rows x, PlansRows plan rows ∧ IsDouble rows x ∧
      x.isFinite ∧ r = saturate x := by
  have hsteps : rowsOfPlan? plan =
      ((plan.first?.bind (Json.field? "Plan")).bind (Json.field? "Plan Rows")).bind fun rows =>
        rows.double?.bind fun x => if x.isFinite then some (saturate x) else none := by
    simp only [rowsOfPlan?, Option.bind_eq_bind, Option.bind_assoc]
  rw [hsteps]
  constructor
  · intro h
    obtain ⟨rows, hplans, h⟩ := Option.bind_eq_some_iff.1 h
    obtain ⟨x, hx, h⟩ := Option.bind_eq_some_iff.1 h
    obtain ⟨hfinite, hr⟩ := Option.ite_none_right_eq_some.1 h
    exact ⟨rows, x, lookup_eq_some_iff.1 hplans, double?_eq_some_iff.1 hx, hfinite,
      (Option.some.inj hr).symm⟩
  · rintro ⟨rows, x, hplans, hx, hfinite, rfl⟩
    rw [lookup_eq_some_iff.2 hplans, Option.bind_some, double?_eq_some_iff.2 hx, Option.bind_some,
      if_pos hfinite]

theorem saturate_eq {x : Double} {n : ℤ} (h : IsNearest x.value n) :
    saturate x = max (-2 ^ 63) (min (2 ^ 63 - 1) n) := by
  have hmax : signedMax 64 = 2 ^ 63 - 1 := by decide
  have hmin : signedMin 64 = -2 ^ 63 := by decide
  rw [saturate, hmax, hmin, x.isNearest_round.unique h]

/-- **The estimate in any value.**  It does not depend on how many texts there are around a value
that is read back from its text; in any value they come to an end, and each is read and replaced
by its value.  There is an estimate exactly if what is inside has a finite number at its place, and
then it is the integer of 64 bits nearest to that.  For a whole number of 64 bits there is one, of
the floating point number to which none is nearer. -/
theorem planRows?_spec (j : Json) :
    (∀ n, Json.parse? j.toText = some j → planRows? (j.wrapped n) = planRows? j) ∧
    (∃! o, j.Unwraps o) ∧
    (∀ text, planRows? (.str text) = (Json.parse? text).bind planRows?) ∧
    (∀ r, planRows? j = some r ↔ ∃ plan rows x n, j.Unwraps (some plan) ∧ PlansRows plan rows ∧
      IsDouble rows x ∧ x.isFinite ∧ IsNearest x.value n ∧
      r = max (-2 ^ 63) (min (2 ^ 63 - 1) n)) ∧
    (∀ plan i, j.Unwraps (some plan) → PlansRows plan (.int i) → i.natAbs < 2 ^ 64 →
      ∃ (x : Double) (n : ℤ), planRows? j = some (max (-2 ^ 63) (min (2 ^ 63 - 1) n)) ∧
        IsNearest x.value n ∧ ∀ y : Double, y.isFinite → |x.value - i| ≤ |y.value - i|) := by
  obtain ⟨o, ho⟩ := j.exists_unwraps
  have hiff : ∀ r, planRows? j = some r ↔ ∃ plan rows x n, j.Unwraps (some plan) ∧
      PlansRows plan rows ∧ IsDouble rows x ∧ x.isFinite ∧ IsNearest x.value n ∧
      r = max (-2 ^ 63) (min (2 ^ 63 - 1) n) := by
    intro r
    rw [planRows?_eq ho, Option.bind_eq_some_iff]
    constructor
    · rintro ⟨plan, rfl, hrows⟩
      obtain ⟨rows, x, hplans, hx, hfinite, rfl⟩ := rowsOfPlan?_eq_some_iff.1 hrows
      exact ⟨plan, rows, x, x.round, ho, hplans, hx, hfinite, x.isNearest_round,
        saturate_eq x.isNearest_round⟩
    · rintro ⟨plan, rows, x, n, hunwraps, hplans, hx, hfinite, hn, rfl⟩
      exact ⟨plan, ho.unique hunwraps, rowsOfPlan?_eq_some_iff.2
        ⟨rows, x, hplans, hx, hfinite, (saturate_eq hn).symm⟩⟩
  refine ⟨fun n h => ?_, ⟨o, ho, fun o' ho' => ho'.unique ho⟩, planRows?_str, hiff,
    fun plan i hj hplans hi => ?_⟩
  · rw [planRows?_eq (ho.wrapped h n), planRows?_eq ho]
  · obtain ⟨hfinite, hnearest⟩ := Double.ofInt_nearest hi
    exact ⟨.ofInt i, (Double.ofInt i).round, (hiff _).2 ⟨plan, .int i, .ofInt i, _, hj, hplans,
      .int i, hfinite, Double.isNearest_round _, rfl⟩, Double.isNearest_round _, hnearest⟩

/-- A plan with an estimate of `1234.5` rows. -/
def estimated : Json :=
  .arr [.obj [("Plan", .obj [("Node Type", .str "Seq \"Scan\""),
    ("Plan Rows", .float (.ofRatio false 2469 2))])]]

/-- Inside three texts there is the same estimate as in the plan itself. -/
theorem planRows?_spec_estimated :
    Json.parse? estimated.toText = some estimated ∧
    planRows? (estimated.wrapped 3) = planRows? estimated ∧ planRows? estimated = some 1235 := by
  have hparse : Json.parse? estimated.toText = some estimated := by decide +kernel
  exact ⟨hparse, (planRows?_spec estimated).1 3 hparse, by decide +kernel⟩

end QueryClient.Statement
