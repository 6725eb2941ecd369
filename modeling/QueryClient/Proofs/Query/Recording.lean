/-
  Calls that make a query, in any order.

  * `calls_recorded_in_groups`: the first error stays, later calls still take effect, and what calls
    come to does not depend on how those of different groups are mixed.
-/
import QueryClient.Proofs.Query.Outcome
import QueryClient.Statement.Compile

namespace QueryClient

/-- **Calls make a query group by group.**  The error is that of the first call that fails: it stays
whatever calls follow, and compiling comes to it.  Later calls still take effect, as if those that
fail had not been made: the query is the outcome of the calls that succeed.  So the filters and the
terms of the order are those of the calls that succeed.  If no call fails, then none fails in any
other order that keeps the order within each group, and the query is the same, so that its statements
are. -/
theorem calls_recorded_in_groups (origin : Query.Origin) (calls : List Call) :
    (∀ e, (origin.query.recordAll calls).error = some e ↔
      ∃ front c back, calls = front ++ c :: back ∧ origin.query.Faultless front ∧
        c.fault? (origin.query.recordAll front) = some e) ∧
    (∀ e, (origin.query.recordAll calls).error = some e →
      (∀ later, (origin.query.recordAll (calls ++ later)).error = some e) ∧
      ∀ safety, Statement.compile safety (origin.query.recordAll calls) = .error e) ∧
    origin.query.recordAll calls =
      (origin.query.recordAll (origin.query.successes calls)).withError
        (origin.query.recordAll calls).error ∧
    origin.query.recordAll calls =
      (origin.outcome (origin.query.successes calls)).withError
        (origin.query.recordAll calls).error ∧
    (origin.query.recordAll calls).filters =
      (origin.query.successes calls).filterMap Call.filter? ∧
    (origin.query.recordAll calls).order =
      (origin.query.successes calls).filterMap Call.term? ∧
    ∀ calls', (∀ g, Call.ofGroup g calls = Call.ofGroup g calls') → origin.query.Faultless calls →
      origin.query.Faultless calls' ∧
      origin.query.recordAll calls = origin.query.recordAll calls' ∧
      ∀ safety, Statement.compile safety (origin.query.recordAll calls) =
          Statement.compile safety (origin.query.recordAll calls') ∧
        ∀ mode, Statement.compileCount safety (origin.query.recordAll calls) mode =
          Statement.compileCount safety (origin.query.recordAll calls') mode := by
  have herror : origin.query.error = none := by cases origin <;> rfl
  refine ⟨fun e => Query.error_recordAll_iff herror, fun e he => ⟨fun later => ?_, fun safety => ?_⟩,
    Query.recordAll_successes, Query.recordAll_eq_outcome, ?_, ?_, fun calls' hgroups hcalls => ?_⟩
  · rw [Query.recordAll_append]
    exact Query.error_recordAll_of_some he
  · rw [Statement.compile, Statement.checkError, he]
    rfl
  · rw [Query.recordAll_eq_outcome]
    rfl
  · rw [Query.recordAll_eq_outcome]
    rfl
  · have hcalls' : origin.query.Faultless calls' := by
      rw [Query.faultless_iff_ofGroup]
      exact fun g => hgroups g ▸ Query.faultless_iff_ofGroup.1 hcalls g
    have hsame : origin.query.recordAll calls = origin.query.recordAll calls' := by
      refine Query.recordAll_congr hgroups ?_
      rw [Query.error_recordAll_of_faultless herror hcalls,
        Query.error_recordAll_of_faultless herror hcalls']
    exact ⟨hcalls', hsame, fun safety => ⟨by rw [hsame], fun mode => by rw [hsame]⟩⟩

/-- Limits that are refused, and later calls that are not; then a limit before or after a
deletion. -/
theorem calls_recorded_of_limits :
    let q := Query.Origin.query (.table "public" "users")
    let e := Error.validation "Invalid limit -1: must be >= 0"
    let row := Json.obj [("id", .int 1)]
    let calls : List Call := [.limit (-1), .schema "app", .insert (.ok row), .select "id", .limit 5,
      .shape .single, .count .exact, .limit (-2)]
    q.recordAll calls =
        { Query.ofTable "app" "users" with
          operation := .insert row, returning := some "id", limit := some 5, shape := .single,
          count := some .exact, error := some e } ∧
      Statement.compile {} (q.recordAll calls) = .error e ∧
      q.Faultless [.limit 5, .delete] ∧
      q.recordAll [.limit 5, .delete] = q.recordAll [.delete, .limit 5] := by
  intro q e row calls
  have hlimits := calls_recorded_in_groups (.table "public" "users") calls
  have hmixed := calls_recorded_in_groups (.table "public" "users") [.limit 5, .delete]
  have hfaultless : q.Faultless [.limit 5, .delete] :=
    Query.faultless_cons.2 ⟨rfl, Query.faultless_cons.2 ⟨rfl, Query.faultless_nil⟩⟩
  refine ⟨hlimits.2.2.2.1, (hlimits.2.1 e rfl).2 {}, hfaultless, ?_⟩
  exact (hmixed.2.2.2.2.2.2 [.delete, .limit 5] (fun g => by cases g <;> rfl) hfaultless).2.1

end QueryClient
