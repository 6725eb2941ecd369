/-
  Filters: the conditions under which a row belongs to a result.

  A filter compares columns with bound values.  It is built from texts by the functions named
  for the conditions (`Filter.ofComparison`, `Filter.ofList`, …), which refuse what is no identifier
  and what makes no condition; a filter itself holds identifiers only.

  * `Filter.values` are the bound values in the order of their placeholders.
-/
import QueryClient.Ident.Basic
import QueryClient.Value

namespace QueryClient

/-! ## Operators -/

/-- How a comparison compares. -/
inductive CompareOp where
  | eq | neq | gt | gte | lt | lte
  deriving DecidableEq, Repr

def CompareOp.name : CompareOp → String
  | .eq => "eq"
  | .neq => "neq"
  | .gt => "gt"
  | .gte => "gte"
  | .lt => "lt"
  | .lte => "lte"

/-- Whether the case of letters counts for a pattern. -/
inductive PatternOp where
  | like | ilike
  deriving DecidableEq, Repr

/-- How two arrays, ranges or documents contain each other. -/
inductive ContainOp where
  | contains | containedBy | overlaps
  deriving DecidableEq, Repr

/-- How the text of a full text search is read. -/
inductive SearchMode where
  /-- With the operators of the search language. -/
  | operators
  | plain
  | phrase
  | websearch
  deriving DecidableEq, Repr

def SearchMode.name : SearchMode → String
  | .operators => "default"
  | .plain => "plain"
  | .phrase => "phrase"
  | .websearch => "websearch"

/-! ## Filters -/

/-- A column compared with a value. -/
structure Comparison where
  column : Ident
  op : CompareOp
  value : Value

/-- A condition on rows. -/
inductive Filter where
  | compare (c : Comparison)
  | pattern (column : Ident) (op : PatternOp) (pattern : Value)
  /-- A test for null, true or false. -/
  | is (column : Ident) (value : Value)
  /-- Being in a list, or not. -/
  | member (column : Ident) (values : List Value) (negated : Bool)
  | distinct (column : Ident) (value : Value)
  | contain (column : Ident) (op : ContainOp) (value : Value)
  | not (c : Comparison)
  | search (column : Ident) (query : Value) (config : Option Ident) (mode : SearchMode)
  /-- Equality of all the columns with their values. -/
  | all (pairs : List (Ident × Value))
  /-- One of the comparisons. -/
  | any (comparisons : List Comparison)

/-- The comparison of the column with the given name. -/
def Comparison.parse (column : String) (op : CompareOp) (value : Value) :
    Except Error Comparison := do
  pure ⟨← Ident.parse .column column, op, value⟩

namespace Filter

/-- The bound values, in the order of their placeholders. -/
def values : Filter → List Value
  | .compare c | .not c => [c.value]
  | .pattern _ _ v | .is _ v | .distinct _ v | .contain _ _ v | .search _ v _ _ => [v]
  | .member _ vs _ => vs
  | .all pairs => pairs.map (·.2)
  | .any comparisons => comparisons.map (·.value)

/-- The number of bound values. -/
def valueCount : Filter → Nat
  | .member _ vs _ => vs.length
  | .all pairs => pairs.length
  | .any comparisons => comparisons.length
  | _ => 1

theorem length_values (f : Filter) : f.values.length = f.valueCount := by
  cases f <;> simp [values, valueCount]

/-! ## Filters from texts -/

def ofComparison (column : String) (op : CompareOp) (value : Value) : Except Error Filter :=
  (Comparison.parse column op value).map .compare

def ofPattern (column : String) (op : PatternOp) (pattern : String) : Except Error Filter := do
  pure (.pattern (← Ident.parse .column column) op (.text pattern))

/-- Only null and truth values can be tested for. -/
def ofTest (column : String) (value : Value) : Except Error Filter :=
  match value with
  | .null | .bool _ => do pure (.is (← Ident.parse .column column) value)
  | _ =>
    .error (.validation
      ("is() on column '" ++ column ++ "' accepts only null, true, or false"))

def ofList (column : String) (values : List Value) (negated : Bool) : Except Error Filter := do
  pure (.member (← Ident.parse .column column) values negated)

def ofDistinct (column : String) (value : Value) : Except Error Filter := do
  pure (.distinct (← Ident.parse .column column) value)

def ofContainment (column : String) (op : ContainOp) (value : Value) : Except Error Filter := do
  pure (.contain (← Ident.parse .column column) op value)

def ofNegation (column : String) (op : CompareOp) (value : Value) : Except Error Filter :=
  (Comparison.parse column op value).map .not

def ofSearch (column query : String) (config : Option String) (mode : SearchMode) :
    Except Error Filter := do
  let column ← Ident.parse .column column
  let config ← config.mapM (Ident.parse .searchConfig)
  pure (.search column (.text query) config mode)

/-- At least one column has to be given. -/
def ofRecord (pairs : List (String × Value)) : Except Error Filter := do
  let pairs ← pairs.mapM fun (column, value) => do
    pure (← Ident.parse .column column, value)
  if pairs.isEmpty then .error (.validation "match() requires at least one column")
  else .ok (.all pairs)

/-- At least one comparison has to be given. -/
def ofAlternatives (alternatives : List (CompareOp × String × Value)) :
    Except Error Filter := do
  let comparisons ← alternatives.mapM fun (op, column, value) =>
    Comparison.parse column op value
  if comparisons.isEmpty then .error (.validation "or() requires at least one condition")
  else .ok (.any comparisons)

end Filter

end QueryClient
