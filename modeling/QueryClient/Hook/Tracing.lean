/-
  The hook that writes statements and failures to the log.
-/
import QueryClient.Hook.Basic
import QueryClient.Hook.Clip
import QueryClient.Json.Shown

namespace QueryClient

/-- Settings of the hook. -/
structure TracingHook where
  /-- The level of entries about statements; failures are warnings. -/
  level : Level := .debug
  /-- How many bytes of a statement are written, if that is limited. -/
  sqlBudget : Option Nat := some 512
  /-- Whether bound values are written. -/
  logParams : Bool := false
  /-- Whether statements that only count rows are left out. -/
  skipCounts : Bool := false

namespace TracingHook

/-- The name of the operation of a statement that only counts rows. -/
def countOperation : String := "count"

/-- The entry about a statement, if its text can be clipped. -/
def statementTrace? (h : TracingHook) (e : StatementEvent) : Option Trace := do
  let sql ← clip h.sqlBudget e.sql
  return ⟨h.level, Trace.statementTarget, [
    ("operation", .str e.operation),
    ("sql", .str sql),
    if h.logParams then ("params", .str (Json.shownList e.params))
    else ("param_count", .int e.params.length)]⟩

/-- The entry about a failure, if the text of the statement can be clipped. -/
def failureTrace? (h : TracingHook) (e : ErrorEvent) : Option Trace := do
  let sql ← e.sql.mapM (clip h.sqlBudget)
  return ⟨.warn, Trace.statementTarget, [
    ("operation", .str e.operation),
    ("code", .str e.error.code.name),
    ("status", .str (e.error.status?.getD "-")),
    ("sql", .str (sql.getD "-")),
    ("error", .str e.error.message),
    ("message", .str "call failed")]⟩

/-- The hook writes an entry; it panics if there is none to write. -/
def outcome : Option Trace → HookOutcome
  | some t => { traces := [t] }
  | none => { failure := some .panicked }

def hook (h : TracingHook) : Hook
  | .statement e =>
    if h.skipCounts && e.operation = countOperation then {} else outcome (h.statementTrace? e)
  | .failure e => outcome (h.failureTrace? e)

end TracingHook

end QueryClient
