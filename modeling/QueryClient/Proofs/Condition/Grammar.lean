/-
  Conditions read from tokens, by the precedence of SQL.

  `OR` binds least, then `AND`, then `NOT`, then the tests of columns; parentheses group.  A place
  for a bound value stands for the value with its number.

  * `Condition.expression` reads a condition, with a bound on how deep parentheses stand in each
    other, and has one line for each level of precedence;
  * `Token.clause?` are the tokens of the condition of a statement;
  * `Condition.ofText?` is the condition of a statement, given its text and its values.
-/
import QueryClient.Proofs.Condition.Logic
import QueryClient.Proofs.Statement.Token

namespace QueryClient

namespace Token

/-- A word as it stands in a text. -/
def keyword (text : String) : Token := .word text.toList

/-- An operator or a mark of punctuation as it stands in a text. -/
def mark (text : String) : Token := .symbol text.toList

/-- The value that a token is the place of. -/
def place? (values : List Value) : Token → Option Value
  | .parameter digits =>
    match Nat.ofDigitChars 10 digits 0 with
    | 0 => none
    | k + 1 => values[k]?
  | _ => none

end Token

open Token

namespace Condition

/-- What is read off the front of some tokens, and the tokens behind it. -/
abbrev Reader (α : Type) := List Token → Option (α × List Token)

/-! ## Tests -/

/-- What is written between a column and a value, with the test that it stands for. -/
def tests : List (List Token × Test) := [
  ([mark "="], .compare .eq),
  ([mark "<>"], .compare .neq),
  ([mark ">"], .compare .gt),
  ([mark ">="], .compare .gte),
  ([mark "<"], .compare .lt),
  ([mark "<="], .compare .lte),
  ([mark "@>"], .contain .contains),
  ([mark "<@"], .contain .containedBy),
  ([mark "&&"], .contain .overlaps),
  ([keyword "LIKE"], .pattern .like),
  ([keyword "ILIKE"], .pattern .ilike),
  ([keyword "IS", keyword "DISTINCT", keyword "FROM"], .distinct),
  ([keyword "IS", keyword "NOT", keyword "DISTINCT", keyword "FROM"], .notDistinct)]

/-- What stands between a column and the list that it may be in, with whether it may not. -/
def memberships : List (List Token × Bool) := [
  ([keyword "IN", mark "("], false),
  ([keyword "NOT", keyword "IN", mark "("], true)]

/-- The functions that read the text of a search. -/
def searches : List (List Token × SearchMode) := [
  ([keyword "to_tsquery", mark "("], .operators),
  ([keyword "plainto_tsquery", mark "("], .plain),
  ([keyword "phraseto_tsquery", mark "("], .phrase),
  ([keyword "websearch_to_tsquery", mark "("], .websearch)]

/-- What the first entry of a table stands for that the tokens begin with. -/
def oneOf {α : Type} (table : List (List Token × α)) : Reader α := fun tokens =>
  table.findSome? fun (written, a) => (written.isPrefixOf? tokens).map (a, ·)

variable (values : List Value)

def value : Reader Value
  | [] => none
  | t :: rest => (t.place? values).map (·, rest)

/-- Values with commas between them, up to the parenthesis that closes. -/
def valueList : Reader (List Value)
  | t :: stop :: rest => do
    let v ← t.place? values
    if stop = mark ")" then some ([v], rest)
    else if stop = mark "," then
      let (vs, rest) ← valueList rest
      some (v :: vs, rest)
    else none
  | _ => none

/-- The configuration of a text search, which may be left out. -/
def config : List Token → Option String × List Token
  | .literal cs :: stop :: rest =>
    if stop = mark "," then (some (String.ofList cs), rest) else (none, .literal cs :: stop :: rest)
  | tokens => (none, tokens)

/-- What is asked of a column whose name has been read. -/
def ofColumn (column : String) : Reader Condition := fun tokens =>
  match oneOf memberships tokens with
  | some (negated, rest) => do
    let (vs, rest) ← valueList values rest
    some (.member column vs negated, rest)
  | none => do
    let (t, rest) ← oneOf tests tokens
    let (v, rest) ← value values rest
    some (.test t column v, rest)

/-- A text search, of which the function and the parenthesis behind it have been read. -/
def ofSearch : Reader Condition := fun tokens => do
  let (text, tokens) := config tokens
  match tokens with
  | .name column :: tokens => do
    let tokens ← [mark ")", mark "@@"].isPrefixOf? tokens
    let (mode, tokens) ← oneOf searches tokens
    let (query, tokens) := config tokens
    let (v, tokens) ← value values tokens
    let tokens ← [mark ")"].isPrefixOf? tokens
    some (.test (.search text query mode) (String.ofList column) v, tokens)
  | _ => none

/-- A test of a column, or a constant. -/
def predicate : Reader Condition
  | .name column :: tokens => ofColumn values (String.ofList column) tokens
  | tokens =>
    match [keyword "to_tsvector", mark "("].isPrefixOf? tokens with
    | some rest => ofSearch values rest
    | none =>
      oneOf [([keyword "TRUE"], .constant true), ([keyword "FALSE"], .constant false)] tokens

/-! ## Connectives -/

/-- Operands with an operator between them, of which there are no more than `fuel`. -/
def joinedWithin (operator : Token) (join : Condition → Condition → Condition)
    (operand : Reader Condition) : ℕ → Reader Condition
  | 0, _ => none
  | fuel + 1, tokens => do
    let (c, rest) ← operand tokens
    match [operator].isPrefixOf? rest with
    | some rest => do
      let (d, rest) ← joinedWithin operator join operand fuel rest
      some (join c d, rest)
    | none => some (c, rest)

/-- Operands with an operator between them. -/
def joined (operator : Token) (join : Condition → Condition → Condition)
    (operand : Reader Condition) : Reader Condition := fun tokens =>
  joinedWithin operator join operand (tokens.length + 1) tokens

/-- An operand behind any number of negations. -/
def negated (operand : Reader Condition) : Reader Condition
  | [] => operand []
  | t :: rest =>
    if t = keyword "NOT" then (negated operand rest).map fun (c, rest) => (.not c, rest)
    else operand (t :: rest)

/-- A condition between parentheses, or a predicate. -/
def primary (inner : Reader Condition) : Reader Condition := fun tokens =>
  match [mark "("].isPrefixOf? tokens with
  | some rest => do
    let (c, rest) ← inner rest
    let rest ← [mark ")"].isPrefixOf? rest
    some (c, rest)
  | none => predicate values tokens

/-- A condition in which parentheses stand in each other less than `depth` times. -/
def expression : ℕ → Reader Condition
  | 0 => fun _ => none
  | depth + 1 =>
    joined (keyword "OR") .or <| joined (keyword "AND") .and <| negated <|
      primary values (expression depth)

end Condition

/-! ## Conditions of statements -/

namespace Token

/-- The words behind which a statement goes on after its condition. -/
def clauseEnds : List Token :=
  [keyword "ORDER", keyword "LIMIT", keyword "OFFSET", keyword "RETURNING"]

/-- The tokens from `WHERE` up to the next clause. -/
def clause? : List Token → Option (List Token)
  | [] => none
  | t :: rest =>
    if t = keyword "WHERE" then some (rest.takeWhile (· ∉ clauseEnds)) else clause? rest

end Token

/-- The condition of a statement, given its text and the values it binds. -/
def Condition.ofText? (text : String) (values : List Value) : Option Condition := do
  let tokens ← Token.lex text.toList
  let clause ← Token.clause? tokens
  match expression values (clause.length + 1) clause with
  | some (c, []) => some c
  | _ => none

end QueryClient
