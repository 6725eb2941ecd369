/-
  Column lists: all columns, or some identifiers with commas between them.
-/
import QueryClient.Ident.Basic

namespace QueryClient

open QueryClient.Text

/-- The columns that a statement selects or returns. -/
inductive ColumnList where
  | all
  | only (columns : List Ident)
  deriving DecidableEq

namespace ColumnList

/-- The pieces of some characters between commas. -/
def splitCommas : List Char → List (List Char)
  | [] => [[]]
  | ',' :: rest => [] :: splitCommas rest
  | c :: rest =>
    match splitCommas rest with
    | [] => [[c]]
    | piece :: pieces => (c :: piece) :: pieces

/-- Reads `*` or a list of columns, with blanks around everything. -/
def parse (list : String) : Except Error ColumnList :=
  match trimChars list.toList with
  | ['*'] => .ok .all
  | [] => .error (.validation "Column list cannot be empty")
  | cs => do
    let columns ← (splitCommas cs).mapM fun piece =>
      Ident.parse .column (String.ofList (trimChars piece))
    pure (.only columns)

end ColumnList

end QueryClient
