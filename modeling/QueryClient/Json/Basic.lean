/-
  JSON values.

  Whole numbers are kept apart from floating point numbers.  The fields of an object stand in
  the order of their keys, by code points, and no key occurs twice: `Json.object` and
  `Fields.insert` build such objects, where a later value for a key replaces an earlier one.
-/
import QueryClient.Number.Double
import QueryClient.Number.Width

namespace QueryClient

open QueryClient.Number

/-- A JSON value. -/
inductive Json where
  | null
  | bool (b : Bool)
  | int (i : Int)
  | float (x : Double)
  | str (s : String)
  | arr (items : List Json)
  | obj (fields : List (String × Json))
  deriving Inhabited

/-- The keys of an object with their values. -/
abbrev Fields := List (String × Json)

namespace Fields

/-- Gives a key a value, keeping the keys in order. -/
def insert (key : String) (value : Json) : Fields → Fields
  | [] => [(key, value)]
  | (k, v) :: rest =>
    if key < k then (key, value) :: (k, v) :: rest
    else if key = k then (key, value) :: rest
    else (k, v) :: insert key value rest

/-- The value of a key. -/
def get? (fields : Fields) (key : String) : Option Json :=
  (fields.find? fun (k, _) => k = key).map (·.2)

def keys (fields : Fields) : List String := fields.map (·.1)

/-- Fields from pairs in any order; a later value for a key replaces an earlier one. -/
def ofList (pairs : List (String × Json)) : Fields :=
  pairs.foldl (fun fields (k, v) => insert k v fields) []

end Fields

namespace Json

/-- An object from pairs in any order. -/
def object (pairs : List (String × Json)) : Json := .obj (Fields.ofList pairs)

/-- The value of a key of an object. -/
def field? (key : String) : Json → Option Json
  | .obj fields => Fields.get? fields key
  | _ => none

/-- The first item of an array. -/
def first? : Json → Option Json
  | .arr (item :: _) => some item
  | _ => none

/-- The floating point number nearest to a number. -/
def double? : Json → Option Double
  | .int i => some (.ofInt i)
  | .float x => some x
  | _ => none

/-- A floating point number as JSON; one that is not finite is null. -/
def ofDouble (x : Double) : Json :=
  if x.isFinite then .float x else .null

/-- A whole number of 64 bits with a sign. -/
def int64? : Json → Option Int
  | .int i => if isSigned 64 i then some i else none
  | _ => none

end Json

end QueryClient
