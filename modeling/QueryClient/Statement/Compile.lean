/-
  Queries compiled to statements.

  Everything is checked first, and what is refused is refused with an error of validation; the
  pieces of the statement are then put together without a further check.

  * `compile` makes the statement of a query;
  * `compileCount` makes the statement that counts its rows.
-/
import QueryClient.Ident.Columns
import QueryClient.Query.Basic
import QueryClient.Statement.Condition
import QueryClient.Statement.Rows
import QueryClient.Text.Blank

namespace QueryClient

open Piece

def ColumnList.pieces : ColumnList → List Piece
  | .all => [symbol .star]
  | .only columns => names columns

namespace Order

def pieces (o : Order) : List Piece :=
  let direction := match o.direction with
    | .ascending => Word.asc
    | .descending => Word.desc
  let nulls := match o.nulls with
    | .unstated => []
    | .first => [Word.nulls, .first]
    | .last => [Word.nulls, .last]
  phrase (direction :: nulls)

end Order

namespace Statement

/-! ## Parts of statements -/

/-- A table or a function in a schema. -/
def target (schema entity : Ident) : List Piece := [name schema, symbol .dot, name entity]

/-- A function of a schema applied to arguments. -/
def application (schema function : Ident) (args : List Value) : List Piece :=
  target schema function ++ inParens (binds args)

def ordering : List OrderTerm → List Piece
  | [] => []
  | terms => clause [.order, .by] ++
      commas (terms.map fun t => name t.column :: space :: t.order.pieces)

/-- The part of the rows that is asked for.  Where the caller expects at most one row and
states no limit, the limit is one. -/
def paging (q : Query) : List Piece :=
  let limit := match q.limit with
    | some n => clause [.limit] ++ [number n]
    | none => if q.shape = .many then [] else clause [.limit] ++ [Piece.bind (.int 1)]
  let offset := match q.offset with
    | some n => clause [.offset] ++ [number n]
    | none => []
  limit ++ offset

def giveBack : Option ColumnList → List Piece
  | some columns => clause [.returning] ++ columns.pieces
  | none => []

def rowPieces (schema table : Ident) (rows : Rows) : List Piece :=
  phrase [.insert, .into] ++ space :: target schema table ++
    space :: inParens (names rows.columns) ++ clause [.values] ++
    commas (rows.rows.map fun row => inParens (binds row))

/-- What an upsert does on a conflict: nothing, or overwrite the columns by which no conflict
is found. -/
def resolution (columns conflict : List Ident) (ignoreDuplicates : Bool) : List Piece :=
  let updated := columns.filter (· ∉ conflict)
  let target := if conflict.isEmpty then [] else inParens (names conflict) ++ [space]
  let action :=
    if ignoreDuplicates || updated.isEmpty then phrase [.doWord, .nothing]
    else phrase [.doWord, .update, .setWord] ++ space :: commas (updated.map fun c =>
      [name c, space, symbol .equal, space, word .excluded, symbol .dot, name c])
  clause [.on, .conflict] ++ target ++ action

def assignments (pairs : List (Ident × Value)) : List Piece :=
  commas (pairs.map fun (column, value) => compared column [symbol .equal] value)

/-! ## Checks -/

/-- Refuses parts of a query that its operation does not have. -/
def checkParts (q : Query) : Except Error Unit := do
  let operation := q.operation.name
  if q.operation.isInsertion && !q.filters.isEmpty then
    throw (.validation ("Filters are not supported on " ++ operation))
  if q.operation.isMutation && (!q.order.isEmpty || q.limit.isSome || q.offset.isSome) then
    throw (.validation
      ("order, limit, and range apply to select and rpc, not " ++ operation))
  if !q.operation.isMutation && q.returning.isSome then
    throw (.validation
      ("returning() applies to insert, upsert, update, and delete, not " ++ operation))

/-- The columns by which an upsert finds conflicts; without any it can only ignore them. -/
def conflictColumns (onConflict : List String) (ignoreDuplicates : Bool) :
    Except Error (List Ident) := do
  let columns ← onConflict.mapM fun c => Ident.parse .column (Text.trim c)
  if columns.isEmpty && !ignoreDuplicates then
    .error (.validation "Upsert with updates requires at least one conflict column")
  else .ok columns

/-- The columns that an update sets, with their values. -/
def updateColumns (pairs : List (String × Value)) : Except Error (List (Ident × Value)) :=
  if pairs.isEmpty then .error (.validation "Update requires at least one column to set")
  else pairs.mapM fun (column, value) => do pure (← Ident.parse .column column, value)

/-- Refuses a query whose making failed. -/
def checkError (q : Query) : Except Error Unit :=
  match q.error with
  | some e => .error e
  | none => .ok ()

/-! ## Statements -/

/-- The statement of a query whose schema is `schema`. -/
def compileIn (safety : Safety) (q : Query) (schema : Ident) : Except Error (List Piece) := do
  let table := Ident.parse .table q.table
  let returning := q.returning.mapM ColumnList.parse
  match q.operation with
  | .select columns =>
    let table ← table
    let columns ← ColumnList.parse columns
    Filter.checkAll safety q.filters
    pure (word .select :: space :: columns.pieces ++ clause [.fromWord] ++ target schema table ++
      Filter.condition q.filters ++ ordering q.order ++ paging q)
  | .rpc function args =>
    let function ← Ident.parse .function function
    pure (word .select :: space :: symbol .star :: clause [.fromWord] ++
      application schema function args ++ ordering q.order ++ paging q)
  | .insert payload =>
    let table ← table
    let rows ← Rows.ofPayload safety "Insert" payload
    pure (rowPieces schema table rows ++ giveBack (← returning))
  | .upsert payload onConflict ignoreDuplicates =>
    let table ← table
    let rows ← Rows.ofPayload safety "Upsert" payload
    let conflict ← conflictColumns onConflict ignoreDuplicates
    pure (rowPieces schema table rows ++ resolution rows.columns conflict ignoreDuplicates ++
      giveBack (← returning))
  | .update pairs =>
    let table ← table
    let pairs ← updateColumns pairs
    Filter.checkAll safety q.filters
    pure (word .update :: space :: target schema table ++ clause [.setWord] ++
      assignments pairs ++ Filter.condition q.filters ++ giveBack (← returning))
  | .delete =>
    let table ← table
    Filter.checkAll safety q.filters
    pure (phrase [.delete, .fromWord] ++ space :: target schema table ++
      Filter.condition q.filters ++ giveBack (← returning))

/-- The statement of a query. -/
def compile (safety : Safety) (q : Query) : Except Error Statement := do
  checkError q
  checkParts q
  let schema ← Ident.parse .schema q.schema
  let pieces ← compileIn safety q schema
  pure ⟨pieces⟩

/-- The name under which an exact count is given. -/
def countColumn : Ident := ⟨"count", Ident.isIdent_of_flaw?_eq_none rfl⟩

/-- What a counting statement begins with. -/
def countFront : CountMode → List Piece
  | .exact =>
    [word .select, space, word .count, symbol .opening, symbol .star, symbol .closing] ++
      clause [.asWord] ++ name countColumn :: clause [.fromWord]
  | .planned | .estimated =>
    [word .explain, space, symbol .opening] ++ phrase [.format, .json] ++
      [symbol .closing, space, word .select, space, symbol .star] ++ clause [.fromWord]

/-- The statement that counts the rows of a query, which has to be one that reads.  Its order
and its limit do not matter. -/
def compileCount (safety : Safety) (q : Query) (mode : CountMode) : Except Error Statement := do
  checkError q
  let schema ← Ident.parse .schema q.schema
  let source ← match q.operation with
    | .select _ => do pure (target schema (← Ident.parse .table q.table))
    | .rpc function args => do
      pure (application schema (← Ident.parse .function function) args)
    | other =>
      .error (.validation ("Count queries apply to select and rpc, not " ++ other.name))
  Filter.checkAll safety q.filters
  pure ⟨countFront mode ++ source ++ Filter.condition q.filters⟩

end Statement

end QueryClient
