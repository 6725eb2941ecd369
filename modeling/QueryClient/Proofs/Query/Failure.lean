/-
  Calls that fail.

  A call fails if its input is refused, or if it asks for columns of what a function gives.  It then
  changes nothing but the query's error, and that only if it is the first one.

  * `Call.fault?` is the error of a call, and `Query.successes` are the calls that do not fail;
  * `record_of_fault`, `record_withError_of_success`: what a call does, but for what it stores;
  * `error_recordAll_iff`: the error is that of the first call that fails;
  * `recordAll_successes`: the calls that do not fail come to the same without the others.
-/
import QueryClient.Query.Call

namespace QueryClient

open QueryClient.Text

/-- The error of an input that is refused. -/
def Call.refusal? {α : Type} : Except Error α → Option Error
  | .ok _ => none
  | .error e => some e

/-- The error of a call on a query. -/
def Call.fault? (q : Query) : Call → Option Error
  | .select columns =>
    match q.operation with
    | .rpc _ _ =>
      if trim columns = "*" then none
      else some (.validation
        "rpc results cannot be narrowed with select(); wrap the function in a view")
    | _ => none
  | .insert payload => refusal? (rowsOf "insert" payload)
  | .upsert payload _ _ => refusal? (rowsOf "upsert" payload)
  | .update values => refusal? (assignmentsOf values)
  | .filter f => refusal? f
  | .order column _ => refusal? (Ident.parse .column column)
  | .limit n => refusal? (Bounds.limit n)
  | .range first last => refusal? (Bounds.range first last)
  | .schema _ | .set _ _ | .delete | .returning _ | .shape _ | .count _ => none

namespace Query

/-- The query with another error, or with none. -/
def withError (q : Query) (e : Option Error) : Query := { q with error := e }

/-- The calls that do not fail, each made on the query that the earlier ones have come to. -/
def successes (q : Query) : List Call → List Call
  | [] => []
  | c :: calls =>
    if (c.fault? q).isSome then successes (q.record c) calls
    else c :: successes (q.record c) calls

/-- No call fails. -/
def Faultless (q : Query) (calls : List Call) : Prop :=
  ∀ front c back, calls = front ++ c :: back → c.fault? (q.recordAll front) = none

variable {q : Query} {calls calls' : List Call} {c : Call} {e : Error} {err : Option Error}

@[simp] theorem error_withError : (q.withError err).error = err := rfl

@[simp] theorem withError_error : q.withError q.error = q := rfl

@[simp] theorem recordAll_nil : q.recordAll [] = q := rfl

@[simp] theorem recordAll_cons : q.recordAll (c :: calls) = (q.record c).recordAll calls := rfl

theorem recordAll_append : q.recordAll (calls ++ calls') = (q.recordAll calls).recordAll calls' :=
  List.foldl_append

/-! ## One call -/

section
variable {α : Type} {input : Except Error α} {put : α → Query → Query}

theorem store_of_refusal (h : Call.refusal? input = some e) : q.store input put = q.fail e := by
  cases input with
  | ok a => cases h
  | error e' =>
    cases h
    rfl

/-- What is stored does not depend on the error. -/
theorem store_withError (hput : ∀ a q err, put a (q.withError err) = (put a q).withError err)
    (h : Call.refusal? input = none) :
    (q.withError err).store input put = (q.store input put).withError err := by
  cases input with
  | ok a => exact hput a q err
  | error e => cases h

end

/-- **A call that fails** changes nothing but the error, and that only if there is none. -/
theorem record_of_fault (h : c.fault? q = some e) :
    q.record c = q.withError (q.error.or (some e)) := by
  cases c with
  | insert | upsert | update | filter | order | limit | range =>
    simp only [record]
    exact store_of_refusal h
  | select columns =>
    obtain ⟨_, _, operation⟩ := q
    cases operation with
    | rpc function args =>
      by_cases hall : trim columns = "*"
      · simp [Call.fault?, hall] at h
      · obtain rfl : _ = e := by simpa [Call.fault?, hall] using h
        simp only [record, Query.select, hall, if_false]
        rfl
    | _ => cases h
  | schema | set | delete | returning | shape | count => cases h

/-- **A call that does not fail** leaves the error as it is and does the same whatever it is. -/
theorem record_withError_of_success (h : c.fault? q = none) :
    (q.withError err).record c = (q.record c).withError err := by
  cases c with
  | insert | upsert | update | filter | order | limit | range =>
    simp only [record]
    exact store_withError (fun _ _ _ => rfl) h
  | select columns =>
    obtain ⟨_, _, operation⟩ := q
    cases operation with
    | rpc function args =>
      have hall : trim columns = "*" := by simpa [Call.fault?] using h
      simp only [record, Query.select, withError, hall, if_true]
    | _ => rfl
  | schema | set | delete | returning | shape | count => rfl

theorem fault?_withError : c.fault? (q.withError err) = c.fault? q := by
  cases c <;> rfl

theorem error_record : (q.record c).error = q.error.or (c.fault? q) := by
  cases hc : c.fault? q with
  | none =>
    rw [← withError_error (q := q), record_withError_of_success hc]
    simp
  | some e => rw [record_of_fault hc, error_withError]

/-- But for the error, a call does the same whatever the error is. -/
theorem exists_record_withError (q : Query) (err : Option Error) (c : Call) :
    ∃ err', (q.withError err).record c = (q.record c).withError err' := by
  cases hc : c.fault? q with
  | none => exact ⟨err, record_withError_of_success hc⟩
  | some e =>
    rw [record_of_fault hc, record_of_fault (fault?_withError.trans hc)]
    exact ⟨_, rfl⟩

theorem withError_recordAll (err' : Option Error) :
    ((q.withError err).recordAll calls).withError err' = (q.recordAll calls).withError err' := by
  induction calls generalizing q err with
  | nil => rfl
  | cons c calls ih =>
    obtain ⟨err₁, hrecord⟩ := exists_record_withError q err c
    rw [recordAll_cons, hrecord]
    exact ih

/-! ## The first error -/

theorem faultless_nil : q.Faultless [] := fun front c back h => by simp at h

theorem faultless_cons :
    q.Faultless (c :: calls) ↔ c.fault? q = none ∧ (q.record c).Faultless calls := by
  constructor
  · exact fun h => ⟨h [] c calls rfl, fun front d back hcalls => h (c :: front) d back (hcalls ▸ rfl)⟩
  · rintro ⟨hc, h⟩ front d back hcalls
    cases front with
    | nil =>
      obtain ⟨rfl, -⟩ := List.cons.inj hcalls
      exact hc
    | cons c' front =>
      obtain ⟨rfl, hrest⟩ := List.cons.inj hcalls
      exact h front d back hrest

theorem faultless_concat :
    q.Faultless (calls ++ [c]) ↔ q.Faultless calls ∧ c.fault? (q.recordAll calls) = none := by
  induction calls generalizing q with
  | nil => simp [faultless_cons, faultless_nil]
  | cons d calls ih => rw [List.cons_append, faultless_cons, faultless_cons, ih, and_assoc]; rfl

/-- An error that is there stays. -/
theorem error_recordAll_of_some (h : q.error = some e) : (q.recordAll calls).error = some e := by
  induction calls generalizing q with
  | nil => exact h
  | cons c calls ih => exact ih (by rw [error_record, h, Option.some_or])

theorem error_recordAll_of_faultless (hq : q.error = none) (h : q.Faultless calls) :
    (q.recordAll calls).error = none := by
  induction calls generalizing q with
  | nil => exact hq
  | cons c calls ih =>
    obtain ⟨hc, h⟩ := faultless_cons.1 h
    exact ih (by rw [error_record, hq, hc, Option.none_or]) h

/-- **The error is that of the first call that fails.** -/
theorem error_recordAll_iff (hq : q.error = none) :
    (q.recordAll calls).error = some e ↔
      ∃ front c back, calls = front ++ c :: back ∧ q.Faultless front ∧
        c.fault? (q.recordAll front) = some e := by
  constructor
  · intro h
    induction calls generalizing q with
    | nil =>
      rw [recordAll_nil, hq] at h
      cases h
    | cons c calls ih =>
      cases hc : c.fault? q with
      | some e' =>
        have hfirst : (q.record c).error = some e' := by rw [error_record, hq, hc, Option.none_or]
        rw [recordAll_cons, error_recordAll_of_some hfirst] at h
        cases h
        exact ⟨[], c, calls, rfl, faultless_nil, hc⟩
      | none =>
        obtain ⟨front, d, back, rfl, hfront, hd⟩ :=
          ih (by rw [error_record, hq, hc, Option.none_or]) h
        exact ⟨c :: front, d, back, rfl, faultless_cons.2 ⟨hc, hfront⟩, hd⟩
  · rintro ⟨front, c, back, rfl, hfront, hc⟩
    rw [recordAll_append, recordAll_cons]
    refine error_recordAll_of_some ?_
    rw [error_record, error_recordAll_of_faultless hq hfront, hc, Option.none_or]

/-! ## The calls that do not fail -/

theorem successes_withError : (q.withError err).successes calls = q.successes calls := by
  induction calls generalizing q err with
  | nil => rfl
  | cons c calls ih =>
    obtain ⟨err₁, hrecord⟩ := exists_record_withError q err c
    rw [successes, successes, fault?_withError, hrecord, ih]

theorem faultless_successes : q.Faultless (q.successes calls) := by
  induction calls generalizing q with
  | nil => exact faultless_nil
  | cons c calls ih =>
    rw [successes]
    cases hc : c.fault? q with
    | none => exact faultless_cons.2 ⟨hc, ih⟩
    | some e =>
      rw [Option.isSome_some, if_pos rfl, record_of_fault hc, successes_withError]
      exact ih

/-- **Calls that fail leave only their error**: the others come to the same without them. -/
theorem recordAll_successes :
    q.recordAll calls = (q.recordAll (q.successes calls)).withError (q.recordAll calls).error := by
  induction calls generalizing q with
  | nil => rfl
  | cons c calls ih =>
    rw [recordAll_cons, successes]
    cases hc : c.fault? q with
    | none => exact ih
    | some e =>
      rw [Option.isSome_some, if_pos rfl]
      refine ih.trans ?_
      rw [record_of_fault hc]
      exact withError_recordAll _

end Query

end QueryClient
