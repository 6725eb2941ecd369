/-
  JSON in which no digit of a number can be lost.
-/
import QueryClient.Json.Basic
import QueryClient.Text.Hex

namespace QueryClient.Json

open QueryClient.Number QueryClient.Text

/-- A floating point number by its 64 bits, as hexadecimal digits. -/
def doubleDigits (x : Double) : String := String.ofList (hexNat 16 x.bits.toNat)

mutual

/-- The same JSON with every floating point number as an object that holds its bits. -/
def exact : Json → Json
  | .float x => .object [("$f64", .str (doubleDigits x))]
  | .arr items => .arr (exactItems items)
  | .obj fields => .obj (exactFields fields)
  | j => j

def exactItems : List Json → List Json
  | [] => []
  | item :: rest => exact item :: exactItems rest

def exactFields : List (String × Json) → List (String × Json)
  | [] => []
  | (k, v) :: rest => (k, exact v) :: exactFields rest

end

end QueryClient.Json
