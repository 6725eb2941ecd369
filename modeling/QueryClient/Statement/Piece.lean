/-
  The pieces of a statement's text.

  A statement is a row of pieces: words and symbols of a fixed vocabulary, names, names as
  literals, numbers, spaces and places for bound values.  Callers' texts enter a statement as
  bound values, which the text only numbers, and as identifiers.

  * `text` writes the pieces, numbering the bound values from one;
  * `values` are the bound values in the order of their numbers.
-/
import QueryClient.Filter

namespace QueryClient

/-- The words of statements. -/
inductive Word where
  | and | asWord | asc | by | conflict | count | delete | desc | distinct | doWord
  | excluded | explain | falseWord | first | format | fromWord | ilike | inWord | insert | into
  | is | json | last | like | limit | not | nothing | nulls | offset | on | or | order
  | phraseQuery | plainQuery | returning | select | setWord | textQuery | textVector
  | trueWord | update | values | websearchQuery | whereWord
  deriving DecidableEq, Repr

def Word.text : Word → String
  | .and => "AND"
  | .asWord => "AS"
  | .asc => "ASC"
  | .by => "BY"
  | .conflict => "CONFLICT"
  | .count => "COUNT"
  | .delete => "DELETE"
  | .desc => "DESC"
  | .distinct => "DISTINCT"
  | .doWord => "DO"
  | .excluded => "EXCLUDED"
  | .explain => "EXPLAIN"
  | .falseWord => "FALSE"
  | .first => "FIRST"
  | .format => "FORMAT"
  | .fromWord => "FROM"
  | .ilike => "ILIKE"
  | .inWord => "IN"
  | .insert => "INSERT"
  | .into => "INTO"
  | .is => "IS"
  | .json => "JSON"
  | .last => "LAST"
  | .like => "LIKE"
  | .limit => "LIMIT"
  | .not => "NOT"
  | .nothing => "NOTHING"
  | .nulls => "NULLS"
  | .offset => "OFFSET"
  | .on => "ON"
  | .or => "OR"
  | .order => "ORDER"
  | .phraseQuery => "phraseto_tsquery"
  | .plainQuery => "plainto_tsquery"
  | .returning => "RETURNING"
  | .select => "SELECT"
  | .setWord => "SET"
  | .textQuery => "to_tsquery"
  | .textVector => "to_tsvector"
  | .trueWord => "TRUE"
  | .update => "UPDATE"
  | .values => "VALUES"
  | .websearchQuery => "websearch_to_tsquery"
  | .whereWord => "WHERE"

/-- The punctuation and the operators of statements. -/
inductive Symbol where
  | opening | closing | comma | dot | star
  | equal | unequal | greater | atLeast | less | atMost
  | contains | containedBy | overlaps | found
  deriving DecidableEq, Repr

def Symbol.text : Symbol → String
  | .opening => "("
  | .closing => ")"
  | .comma => ","
  | .dot => "."
  | .star => "*"
  | .equal => "="
  | .unequal => "<>"
  | .greater => ">"
  | .atLeast => ">="
  | .less => "<"
  | .atMost => "<="
  | .contains => "@>"
  | .containedBy => "<@"
  | .overlaps => "&&"
  | .found => "@@"

/-- A piece of a statement. -/
inductive Piece where
  | word (w : Word)
  | symbol (s : Symbol)
  | space
  /-- A name between double quotes. -/
  | name (i : Ident)
  /-- A name between single quotes. -/
  | literal (i : Ident)
  | number (n : Nat)
  /-- The place of a bound value. -/
  | bind (v : Value)

namespace Piece

/-- A piece as it is written when `n` values are bound before it. -/
def text (n : Nat) : Piece → List Char
  | .word w => w.text.toList
  | .symbol s => s.text.toList
  | .space => [' ']
  | .name i => i.quoted
  | .literal i => '\'' :: (i.name.toList ++ ['\''])
  | .number k => Nat.toDigits 10 k
  | .bind _ => '$' :: Nat.toDigits 10 (n + 1)

/-- The value that a piece binds. -/
def value? : Piece → Option Value
  | .bind v => some v
  | _ => none

/-- Pieces as they are written when `n` values are bound before them. -/
def textFrom : Nat → List Piece → List Char
  | _, [] => []
  | n, p :: rest => p.text n ++ textFrom (if p.value?.isSome then n + 1 else n) rest

/-- The values that some pieces bind, in order. -/
def boundValues (pieces : List Piece) : List Value := pieces.filterMap value?

/-! ## Shapes of text -/

/-- Items with a comma and a space between them. -/
def commas (items : List (List Piece)) : List Piece :=
  [symbol .comma, space].intercalate items

/-- Pieces between parentheses. -/
def inParens (pieces : List Piece) : List Piece :=
  symbol .opening :: (pieces ++ [symbol .closing])

/-- Words with a space between them. -/
def phrase (words : List Word) : List Piece :=
  (words.map word).intersperse space

/-- Words with a space on either side. -/
def clause (words : List Word) : List Piece :=
  space :: (phrase words ++ [space])

/-- Names with a comma and a space between them. -/
def names (columns : List Ident) : List Piece :=
  commas (columns.map fun c => [name c])

/-- Places for values with a comma and a space between them. -/
def binds (values : List Value) : List Piece :=
  commas (values.map fun v => [bind v])

end Piece

/-- A statement: its text with the values it binds. -/
structure Statement where
  pieces : List Piece

namespace Statement

/-- The text, in which the bound values are numbered. -/
def text (s : Statement) : String := String.ofList (Piece.textFrom 0 s.pieces)

/-- The bound values, in the order of their numbers. -/
def values (s : Statement) : List Value := Piece.boundValues s.pieces

end Statement

end QueryClient
