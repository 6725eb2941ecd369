/-
  Ranges of numbers that callers give: ports, row limits, and ranges of rows.
-/
import QueryClient.Error.Basic

namespace QueryClient.Bounds

/-- A port: 1 to 65535. -/
def port (n : Int) : Except Error Nat :=
  if 1 ≤ n ∧ n ≤ 65535 then .ok n.toNat
  else .error (.validation ("Invalid port " ++ toString n ++ ": must be between 1 and 65535"))

/-- A row limit: zero or more. -/
def limit (n : Int) : Except Error Nat :=
  if 0 ≤ n then .ok n.toNat
  else .error (.validation ("Invalid limit " ++ toString n ++ ": must be >= 0"))

/-- The rows from one index to another one, both counted from zero and included. -/
def range (first last : Int) : Except Error (Nat × Nat) :=
  if 0 ≤ first ∧ first ≤ last then .ok (first.toNat, last.toNat)
  else .error (.validation ("Invalid range " ++ toString first ++ "..=" ++ toString last ++
    ": requires 0 <= from <= to"))

end QueryClient.Bounds
