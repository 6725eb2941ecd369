/-
  Bound values as JSON that says what kind of value each is.
-/
import QueryClient.Json.Exact
import QueryClient.Value

namespace QueryClient.Value

open QueryClient.Text

/-- The name of a kind, with what belongs to it. -/
def tag (kind : String) (content : Json) : Json := .object [("t", .str kind), ("v", content)]

/-- A value with its kind. -/
def tagged : Value → Json
  | .null => .object [("t", .str "null")]
  | .bool b => tag "bool" (.bool b)
  | .int i => tag "int" (.int i)
  | .float x => tag "float" (.str (Json.doubleDigits x))
  | .decimal d => tag "decimal" (.str d.toText)
  | .text s => tag "text" (.str s)
  | .json j => tag "json" j.exact
  | .uuid u => tag "uuid" (.str u.toText)
  | .timestamp m => tag "timestamp" (.arr [.int m.unixSeconds, .int m.time.nano])
  | .bytes b => tag "bytes" (.str (hex b))
  | .array items => tag "array" (.arr (items.map tagged))

end QueryClient.Value
