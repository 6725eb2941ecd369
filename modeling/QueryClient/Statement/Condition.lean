/-
  Filters as the condition of a statement.
-/
import QueryClient.Config.Basic
import QueryClient.Statement.Piece

namespace QueryClient

open Piece

def CompareOp.symbol : CompareOp → Symbol
  | .eq => .equal
  | .neq => .unequal
  | .gt => .greater
  | .gte => .atLeast
  | .lt => .less
  | .lte => .atMost

def PatternOp.word : PatternOp → Word
  | .like => .like
  | .ilike => .ilike

def ContainOp.symbol : ContainOp → Symbol
  | .contains => .contains
  | .containedBy => .containedBy
  | .overlaps => .overlaps

/-- The function that reads the text of a search. -/
def SearchMode.word : SearchMode → Word
  | .operators => .textQuery
  | .plain => .plainQuery
  | .phrase => .phraseQuery
  | .websearch => .websearchQuery

/-- A column compared with a value by an operator. -/
def compared (column : Ident) (op : List Piece) (value : Value) : List Piece :=
  name column :: (space :: (op ++ [space, bind value]))

def Comparison.pieces (c : Comparison) : List Piece :=
  compared c.column [symbol c.op.symbol] c.value

namespace Filter

/-- The configuration of a search as the first of two arguments. -/
def configPieces : Option Ident → List Piece
  | some config => [literal config, symbol .comma, space]
  | none => []

/-- The filter as a predicate.  Being in the empty list is false. -/
def pieces : Filter → List Piece
  | .compare c => c.pieces
  | .pattern column op value => compared column [word op.word] value
  | .is column value => compared column (phrase [.is, .not, .distinct, .fromWord]) value
  | .member _ [] negated => [word (if negated then .trueWord else .falseWord)]
  | .member column values negated =>
    name column :: clause (if negated then [.not, .inWord] else [.inWord]) ++
      inParens (binds values)
  | .distinct column value => compared column (phrase [.is, .distinct, .fromWord]) value
  | .contain column op value => compared column [symbol op.symbol] value
  | .not c => word .not :: space :: inParens c.pieces
  | .search column query config mode =>
    word .textVector :: inParens (configPieces config ++ [name column]) ++
      [space, symbol .found, space] ++
      word mode.word :: inParens (configPieces config ++ [bind query])
  | .all pairs =>
    inParens ((clause [.and]).intercalate
      (pairs.map fun (column, value) => compared column [symbol .equal] value))
  | .any comparisons =>
    inParens ((clause [.or]).intercalate (comparisons.map Comparison.pieces))

/-- Refuses a list that is longer than allowed. -/
def check (safety : Safety) : Filter → Except Error Unit
  | .member column values _ =>
    if safety.maxInElements < values.length then
      .error (.validation ("IN list for column '" ++ column.name ++ "' has " ++
        toString values.length ++ " elements, exceeding max_in_elements (" ++
        toString safety.maxInElements ++ ")"))
    else .ok ()
  | _ => .ok ()

/-- Refuses what is not allowed in some filters, at the first such filter. -/
def checkAll (safety : Safety) (filters : List Filter) : Except Error Unit :=
  filters.forM (check safety)

/-- The condition that all filters hold, if there are any. -/
def condition : List Filter → List Piece
  | [] => []
  | filters => clause [.whereWord] ++ (clause [.and]).intercalate (filters.map pieces)

end Filter

end QueryClient
