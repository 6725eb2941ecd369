/-
  Calls that make a query, one after the other.

  A call whose input is refused changes nothing but the query's error, and the error that is
  there first stays; later calls go on to take effect.
-/
import QueryClient.Bounds
import QueryClient.Query.Basic

namespace QueryClient

open QueryClient.Text

/-- One step in making a query.  A payload is the JSON of what the caller gave, or the text of
the error with which it could not be turned into JSON. -/
inductive Call where
  | schema (name : String)
  /-- The columns to select; of a mutation, the columns to give back. -/
  | select (columns : String)
  | insert (payload : Except String Json)
  | upsert (payload : Except String Json) (onConflict : List String) (ignoreDuplicates : Bool)
  | update (values : Except String Json)
  | set (column : String) (value : Value)
  | delete
  | returning (columns : String)
  | filter (f : Except Error Filter)
  | order (column : String) (order : Order)
  | limit (n : Int)
  /-- The rows from one index to another one, counted from zero and included. -/
  | range (first last : Int)
  | shape (s : Shape)
  | count (mode : CountMode)

/-- Rows to add, if the payload of the call `what` gives any. -/
def rowsOf (what : String) : Except String Json → Except Error Json
  | .error text => .error (.validation (what ++ "() payload: " ++ text))
  | .ok (.obj fields) => .ok (.obj fields)
  | .ok (.arr items) => .ok (.arr items)
  | .ok _ =>
    .error (.validation (what ++ "() payload must be an object or an array of objects"))

/-- The assignments of an update, if its payload gives any. -/
def assignmentsOf : Except String Json → Except Error (List (String × Value))
  | .error text => .error (.validation ("update() values: " ++ text))
  | .ok (.obj fields) => .ok (fields.map fun (k, v) => (k, Value.ofJson v))
  | .ok _ => .error (.validation "update() values must be a JSON object")

namespace Query

/-- Keeps an error if it is the first one. -/
def fail (q : Query) (e : Error) : Query :=
  { q with error := q.error.or (some e) }

/-- Stores what an input gives, or keeps its error. -/
def store {α : Type} (q : Query) (input : Except Error α) (put : α → Query → Query) : Query :=
  match input with
  | .ok a => put a q
  | .error e => q.fail e

/-- The effect of asking for columns. -/
def select (q : Query) (columns : String) : Query :=
  match q.operation with
  | .rpc _ _ =>
    if trim columns = "*" then q
    else q.fail (.validation
      "rpc results cannot be narrowed with select(); wrap the function in a view")
  | .select _ => { q with operation := .select columns }
  | _ => { q with returning := some columns }

/-- The effect of giving a column a value: an update goes on, anything else becomes one. -/
def assign (q : Query) (column : String) (value : Value) : Query :=
  let earlier := match q.operation with
    | .update assignments => assignments
    | _ => []
  { q with operation := .update (earlier ++ [(column, value)]) }

/-- The effect of one call. -/
def record (q : Query) : Call → Query
  | .schema name => { q with schema := name }
  | .select columns => q.select columns
  | .insert payload =>
    q.store (rowsOf "insert" payload) fun rows q => { q with operation := .insert rows }
  | .upsert payload onConflict ignoreDuplicates =>
    q.store (rowsOf "upsert" payload) fun rows q =>
      { q with operation := .upsert rows onConflict ignoreDuplicates }
  | .update values =>
    q.store (assignmentsOf values) fun assignments q =>
      { q with operation := .update assignments }
  | .set column value => q.assign column value
  | .delete => { q with operation := .delete }
  | .returning columns => { q with returning := some columns }
  | .filter f => q.store f fun f q => { q with filters := q.filters ++ [f] }
  | .order column order =>
    q.store (Ident.parse .column column) fun column q =>
      { q with order := q.order ++ [⟨column, order⟩] }
  | .limit n => q.store (Bounds.limit n) fun n q => { q with limit := some n }
  | .range first last =>
    q.store (Bounds.range first last) fun (first, last) q =>
      { q with offset := some first, limit := some (last - first + 1) }
  | .shape s => { q with shape := s }
  | .count mode => { q with count := some mode }

/-- The effect of some calls, in their order. -/
def recordAll (q : Query) (calls : List Call) : Query :=
  calls.foldl record q

end Query

end QueryClient
