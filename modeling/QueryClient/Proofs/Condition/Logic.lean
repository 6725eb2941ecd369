/-
  Conditions and what they mean.

  A test of a column against a value holds, fails, or is unknown, as it is where something is
  absent.  Conditions are put together from tests by the three-valued connectives.  Nothing is
  said about what tests come to: that is left to an interpretation.

  * `Condition.truth` is the meaning of a condition, as it is written in a statement;
  * `Filter.meaning` is what a filter stands for, without regard to how it is written.
-/
import QueryClient.Filter

namespace QueryClient

/-! ## Truth -/

inductive Truth where
  | holds | fails | unknown
  deriving DecidableEq, Repr

namespace Truth

def ofBool (b : Bool) : Truth := if b then holds else fails

def not : Truth → Truth
  | holds => fails
  | fails => holds
  | unknown => unknown

/-- What fails decides a conjunction. -/
def and : Truth → Truth → Truth
  | holds, b => b
  | fails, _ => fails
  | unknown, fails => fails
  | unknown, _ => unknown

/-- What holds decides a disjunction. -/
def or : Truth → Truth → Truth
  | fails, b => b
  | holds, _ => holds
  | unknown, holds => holds
  | unknown, _ => unknown

/-- The conjunction of all; without any it holds. -/
def all (ts : List Truth) : Truth := ts.foldr and holds

/-- The disjunction of all; without any it fails. -/
def any (ts : List Truth) : Truth := ts.foldr or fails

@[simp] theorem and_holds (a : Truth) : a.and holds = a := by cases a <;> rfl

@[simp] theorem or_fails (a : Truth) : a.or fails = a := by cases a <;> rfl

end Truth

/-! ## Tests -/

/-- How a column is tested against a value. -/
inductive Test where
  | compare (op : CompareOp)
  | pattern (op : PatternOp)
  | distinct
  | notDistinct
  | contain (op : ContainOp)
  /-- A text search, with the configurations for the text and for what is searched. -/
  | search (text query : Option String) (mode : SearchMode)
  deriving DecidableEq

/-- What the tests of columns, given by their names, come to. -/
abbrev Interpretation := Test → String → Value → Truth

/-! ## Conditions -/

/-- A condition as it is written. -/
inductive Condition where
  | constant (b : Bool)
  | test (t : Test) (column : String) (value : Value)
  /-- Being in a list, or not. -/
  | member (column : String) (values : List Value) (negated : Bool)
  | not (c : Condition)
  | and (c d : Condition)
  | or (c d : Condition)

namespace Condition

variable (I : Interpretation)

/-- Being in a list is being equal to one of its values. -/
def truth : Condition → Truth
  | .constant b => .ofBool b
  | .test t column value => I t column value
  | .member column values negated =>
    let found := Truth.any (values.map (I (.compare .eq) column))
    if negated then found.not else found
  | .not c => c.truth.not
  | .and c d => c.truth.and d.truth
  | .or c d => c.truth.or d.truth

/-- Conditions joined one after the other. -/
def chain (join : Condition → Condition → Condition) : Condition → List Condition → Condition
  | c, [] => c
  | c, d :: ds => join c (chain join d ds)

theorem truth_chain_and (c : Condition) (cs : List Condition) :
    (chain .and c cs).truth I = Truth.all ((c :: cs).map (truth I)) := by
  induction cs generalizing c with
  | nil => exact (Truth.and_holds _).symm
  | cons d ds ih =>
    rw [chain, truth, ih]
    rfl

theorem truth_chain_or (c : Condition) (cs : List Condition) :
    (chain .or c cs).truth I = Truth.any ((c :: cs).map (truth I)) := by
  induction cs generalizing c with
  | nil => exact (Truth.or_fails _).symm
  | cons d ds ih =>
    rw [chain, truth, ih]
    rfl

end Condition

/-! ## Filters -/

namespace Filter

variable (I : Interpretation)

/-- What a comparison comes to. -/
def outcome (c : Comparison) : Truth := I (.compare c.op) c.column.name c.value

/-- What a filter stands for. -/
def meaning : Filter → Truth
  | .compare c => outcome I c
  | .pattern column op value => I (.pattern op) column.name value
  | .is column value => I .notDistinct column.name value
  | .member column values negated =>
    let equal := Truth.any (values.map fun v => outcome I ⟨column, .eq, v⟩)
    if negated then equal.not else equal
  | .distinct column value => I .distinct column.name value
  | .contain column op value => I (.contain op) column.name value
  | .not c => (outcome I c).not
  | .search column query config mode =>
    I (.search (config.map Ident.name) (config.map Ident.name) mode) column.name query
  | .all pairs => Truth.all (pairs.map fun (column, value) => outcome I ⟨column, .eq, value⟩)
  | .any comparisons => Truth.any (comparisons.map (outcome I))

/-- What filters stand for together. -/
def meaningOfAll (filters : List Filter) : Truth := Truth.all (filters.map (meaning I))

/-! ## Filters from texts -/

/-- The filters that can be built from texts. -/
inductive Built : Filter → Prop
  | comparison {column op value f} : ofComparison column op value = .ok f → Built f
  | pattern {column op pattern f} : ofPattern column op pattern = .ok f → Built f
  | test {column value f} : ofTest column value = .ok f → Built f
  | list {column values negated f} : ofList column values negated = .ok f → Built f
  | distinct {column value f} : ofDistinct column value = .ok f → Built f
  | containment {column op value f} : ofContainment column op value = .ok f → Built f
  | negation {column op value f} : ofNegation column op value = .ok f → Built f
  | search {column query config mode f} : ofSearch column query config mode = .ok f → Built f
  | record {pairs f} : ofRecord pairs = .ok f → Built f
  | alternatives {alternatives f} : ofAlternatives alternatives = .ok f → Built f

/-- A filter made of several conditions has at least one. -/
def HasParts : Filter → Prop
  | .all pairs => pairs ≠ []
  | .any comparisons => comparisons ≠ []
  | _ => True

end Filter

end QueryClient
