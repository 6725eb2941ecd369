/-
  Queries: everything that is known about one statement before it is compiled.

  Names stand as the texts they were given as; filters and orders hold identifiers already.
-/
import QueryClient.Filter

namespace QueryClient

/-- What a statement does. -/
inductive Operation where
  | select (columns : String)
  /-- The payload is an object, one row, or an array of objects. -/
  | insert (payload : Json)
  /-- An insert that says what becomes of rows that exist already. -/
  | upsert (payload : Json) (onConflict : List String) (ignoreDuplicates : Bool)
  | update (assignments : List (String × Value))
  | delete
  /-- A call of a function. -/
  | rpc (function : String) (args : List Value)

namespace Operation

def name : Operation → String
  | .select _ => "select"
  | .insert _ => "insert"
  | .upsert _ _ _ => "upsert"
  | .update _ => "update"
  | .delete => "delete"
  | .rpc _ _ => "rpc"

/-- Whether the statement only reads. -/
def isQuery : Operation → Bool
  | .select _ | .rpc _ _ => true
  | _ => false

/-- Whether the statement changes rows. -/
def isMutation (o : Operation) : Bool := !o.isQuery

/-- Whether the statement adds rows. -/
def isInsertion : Operation → Bool
  | .insert _ | .upsert _ _ _ => true
  | _ => false

end Operation

inductive Direction where
  | ascending | descending
  deriving DecidableEq, Repr

/-- Where nulls stand in an order. -/
inductive NullsOrder where
  /-- Where the server puts them. -/
  | unstated
  | first
  | last
  deriving DecidableEq, Repr

/-- How rows are ordered by a column. -/
structure Order where
  direction : Direction := .ascending
  nulls : NullsOrder := .unstated
  deriving DecidableEq, Repr

/-- An order in words. -/
def Order.text (o : Order) : String :=
  (match o.direction with
    | .ascending => "asc"
    | .descending => "desc") ++
  (match o.nulls with
    | .unstated => ""
    | .first => " nulls first"
    | .last => " nulls last")

/-- A column to order by. -/
structure OrderTerm where
  column : Ident
  order : Order
  deriving DecidableEq

/-- How many rows the caller expects. -/
inductive Shape where
  | many
  /-- Exactly one row. -/
  | single
  /-- One row or none. -/
  | maybeSingle
  deriving DecidableEq, Repr

def Shape.name : Shape → String
  | .many => "many"
  | .single => "single"
  | .maybeSingle => "maybe_single"

/-- How rows are counted. -/
inductive CountMode where
  | exact
  /-- By the estimate of the planner. -/
  | planned
  /-- Like `planned`. -/
  | estimated
  deriving DecidableEq, Repr

def CountMode.name : CountMode → String
  | .exact => "exact"
  | .planned => "planned"
  | .estimated => "estimated"

/-- One statement to be. -/
structure Query where
  schema : String
  table : String
  operation : Operation := .select "*"
  filters : List Filter := []
  order : List OrderTerm := []
  limit : Option Nat := none
  offset : Option Nat := none
  shape : Shape := .many
  /-- The columns to give back from the rows that a mutation changed. -/
  returning : Option String := none
  /-- How to count the rows as well. -/
  count : Option CountMode := none
  /-- The first error among the calls that made the query. -/
  error : Option Error := none

namespace Query

/-- The selection of all columns of a table. -/
def ofTable (schema table : String) : Query := { schema, table }

/-- The call of a function. -/
def ofFunction (schema function : String) (args : List Value) : Query :=
  { schema, table := function, operation := .rpc function args }

end Query

end QueryClient
