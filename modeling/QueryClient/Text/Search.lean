/-
  Looking for a text inside another one.
-/

namespace QueryClient.Text

/-- Whether the characters of `needle` stand in a row somewhere in `hay`. -/
def hasInfix (needle : List Char) : List Char → Bool
  | [] => needle.isEmpty
  | c :: rest => needle.isPrefixOf (c :: rest) || hasInfix needle rest

/-- Whether a text occurs in another one. -/
def occursIn (needle hay : String) : Bool :=
  hasInfix needle.toList hay.toList

end QueryClient.Text
