/-
  JSON values without the texts that look like credentials.  Keys stay as they are.
-/
import QueryClient.Json.Basic
import QueryClient.Text.Secret

namespace QueryClient.Json

/-- What stands in the place of a secret. -/
def redacted : String := "[REDACTED]"

mutual

/-- The value with every secret text replaced. -/
def redact : Json → Json
  | .str s => .str (if Text.looksSecret s then redacted else s)
  | .arr items => .arr (redactItems items)
  | .obj fields => .obj (redactFields fields)
  | j => j

def redactItems : List Json → List Json
  | [] => []
  | item :: rest => redact item :: redactItems rest

def redactFields : List (String × Json) → List (String × Json)
  | [] => []
  | (k, v) :: rest => (k, redact v) :: redactFields rest

end

end QueryClient.Json
