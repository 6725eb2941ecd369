/-
  JSON values as they are shown in logs: every value after the name of its kind.
-/
import QueryClient.Json.Printer
import QueryClient.Text.Quoted

namespace QueryClient.Json

open QueryClient.Text

mutual

/-- A value after the name of its kind. -/
def shown : Json → String
  | .null => "Null"
  | .bool b => "Bool(" ++ (if b then "true" else "false") ++ ")"
  | .int i => "Number(" ++ String.ofList (intText i) ++ ")"
  | .float x => "Number(" ++ String.ofList (floatText x) ++ ")"
  | .str s => "String(" ++ showText s ++ ")"
  | .arr items => "Array [" ++ shownItems items ++ "]"
  | .obj fields => "Object \x7b" ++ shownFields fields ++ "\x7d"

/-- Values with commas between them. -/
def shownItems : List Json → String
  | [] => ""
  | [item] => shown item
  | item :: rest => shown item ++ ", " ++ shownItems rest

/-- Keys and values with commas between them. -/
def shownFields : List (String × Json) → String
  | [] => ""
  | [(k, v)] => showText k ++ ": " ++ shown v
  | (k, v) :: rest => showText k ++ ": " ++ shown v ++ ", " ++ shownFields rest

end

/-- A list of values. -/
def shownList (items : List Json) : String := "[" ++ shownItems items ++ "]"

end QueryClient.Json
