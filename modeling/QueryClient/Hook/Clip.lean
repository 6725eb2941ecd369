/-
  Statements cut to a length for the log.
-/
import QueryClient.Text.Utf8

namespace QueryClient

open QueryClient.Text

/-- The note of the full length behind a statement that is cut. -/
def sizeNote (bytes : Nat) : String := "... [" ++ toString bytes ++ " bytes]"

/-- A statement within a budget of bytes, or its front up to the last boundary of characters within
the budget and a note of the full length.  Without a budget the whole statement.  Nothing if the
front would end inside a character. -/
def clip (budget : Option Nat) (sql : String) : Option String :=
  match budget with
  | none => some sql
  | some budget =>
    if sql.utf8ByteSize ≤ budget then some sql
    else (front? sql (lastBoundary sql budget)).map (· ++ sizeNote sql.utf8ByteSize)

end QueryClient
