/-
  The planner's estimate of a number of rows, read from its plan.
-/
import QueryClient.Json.Parser

namespace QueryClient.Statement

open QueryClient.Number

/-- The nearest whole number of 64 bits, a half going away from zero. -/
def saturate (x : Double) : Int :=
  max (signedMin 64) (min (signedMax 64) x.round)

/-- The estimate in a plan that is no text. -/
def rowsOfPlan? (plan : Json) : Option Int := do
  let rows ← (← (← plan.first?).field? "Plan").field? "Plan Rows"
  let x ← rows.double?
  if x.isFinite then some (saturate x) else none

/-- The estimate in a plan, which can be JSON or the text of a plan again; `fuel` bounds how
often it is a text. -/
def planRowsWithin : Nat → Json → Option Int
  | 0, _ => none
  | fuel + 1, .str text => (Json.parse? text).bind (planRowsWithin fuel)
  | _ + 1, plan => rowsOfPlan? plan

/-- The estimate in a plan: a text inside a text is shorter than that text. -/
def planRows? : Json → Option Int
  | .str text => planRowsWithin (text.length + 2) (.str text)
  | plan => rowsOfPlan? plan

end QueryClient.Statement
