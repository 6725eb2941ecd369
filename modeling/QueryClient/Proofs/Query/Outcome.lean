/-
  What calls leave.

  The query that calls leave is told from the list of them: the filters and the terms of the order
  are those of all calls, other parts are what the last call about them gives, and an operation is
  stated by one call and goes on with the assignments after it.

  * `Call.last?` is what the last call about something gives;
  * `Query.Origin.outcome` is the query that calls leave if none fails, and
    `recordAll_of_faultless`: they do;
  * `recordAll_eq_outcome`: calls leave the outcome of those that do not fail.
-/
import Mathlib.Data.List.DropRight
import QueryClient.Proofs.Query.Groups

namespace QueryClient

/-! ## What calls give -/

namespace Call

def schema? : Call → Option String
  | .schema name => some name
  | _ => none

/-- The operation that a call states. -/
def operation? : Call → Option Operation
  | .insert (.ok rows) => some (.insert rows)
  | .upsert (.ok rows) onConflict ignoreDuplicates => some (.upsert rows onConflict ignoreDuplicates)
  | .update (.ok (.obj fields)) =>
    some (.update (fields.map fun (column, value) => (column, Value.ofJson value)))
  | .delete => some .delete
  | _ => none

/-- The assignment that a call adds to an update. -/
def assignment? : Call → Option (String × Value)
  | .set column value => some (column, value)
  | _ => none

/-- The columns that a call selects. -/
def columns? : Call → Option String
  | .select columns => some columns
  | _ => none

/-- The columns that a call wants back from the rows that are changed. -/
def returning? : Call → Option String
  | .returning columns => some columns
  | _ => none

/-- Whether a call makes a query change rows. -/
def isMutation (c : Call) : Bool := c.operation?.isSome || c.assignment?.isSome

theorem columns?_of_isMutation {c : Call} (h : c.isMutation) : c.columns? = none := by
  cases c with
  | select => cases h
  | _ => rfl

theorem returning?_of_isMutation {c : Call} (h : c.isMutation) : c.returning? = none := by
  cases c with
  | returning => cases h
  | _ => rfl

/-- Whether some calls make a query change rows. -/
def mutate (calls : List Call) : Bool := calls.any isMutation

/-- The filter that a call adds, if it adds one. -/
def filter? : Call → Option Filter
  | .filter (.ok f) => some f
  | _ => none

/-- The term that a call adds to the order, if it adds one. -/
def term? : Call → Option OrderTerm
  | .order column direction => (Ident.parse .column column).toOption.map (⟨·, direction⟩)
  | _ => none

/-- How many rows a call asks for. -/
def limit? : Call → Option ℕ
  | .limit n => some n.toNat
  | .range first last => some (last - first + 1).toNat
  | _ => none

/-- How many rows a call leaves out. -/
def offset? : Call → Option ℕ
  | .range first _ => some first.toNat
  | _ => none

def shape? : Call → Option Shape
  | .shape s => some s
  | _ => none

def count? : Call → Option CountMode
  | .count mode => some mode
  | _ => none

/-- What the last of some calls gives that gives something. -/
def last? {α : Type} (give : Call → Option α) (calls : List Call) : Option α :=
  (calls.filterMap give).getLast?

theorem isMutation_of_operation? {c : Call} {o : Operation} (h : c.operation? = some o) :
    o.isMutation := by
  revert h
  fun_cases operation? c with
  | case1 | case2 | case3 | case4 =>
    rintro ⟨⟩
    rfl
  | case5 => exact nofun

theorem mutate_concat {c : Call} {calls : List Call} :
    mutate (calls ++ [c]) = (mutate calls || c.isMutation) := by
  simp [mutate]

section
variable {α : Type} {give : Call → Option α} {c : Call} {calls : List Call}

@[simp] theorem last?_nil : last? give [] = none := rfl

theorem last?_cons : last? give (c :: calls) = (last? give calls).or (give c) := by
  cases h : give c <;> simp [last?, h, List.getLast?_cons]

theorem last?_concat : last? give (calls ++ [c]) = (give c).or (last? give calls) := by
  cases h : give c <;> simp [last?, h]

end

end Call

/-- The operation with more assignments, which make an update of any other operation. -/
def Operation.assigned : Operation → List (String × Value) → Operation
  | o, [] => o
  | .update assignments, a :: later => .update (assignments ++ a :: later)
  | _, a :: later => .update (a :: later)

section
variable {o : Operation} {assignments later : List (String × Value)}

@[simp] theorem Operation.assigned_nil : o.assigned [] = o := by
  cases o <;> rfl

theorem Operation.assigned_append :
    o.assigned (assignments ++ later) = (o.assigned assignments).assigned later := by
  cases assignments with
  | nil => rw [List.nil_append, assigned_nil]
  | cons a assignments =>
    cases later with
    | nil => rw [List.append_nil, assigned_nil]
    | cons b later => cases o <;> simp [assigned]

theorem Operation.isMutation_assigned (h : o.isMutation) : (o.assigned assignments).isMutation := by
  cases assignments with
  | nil => rwa [assigned_nil]
  | cons a assignments => cases o <;> rfl

end

/-! ## What calls leave -/

namespace Query

/-- What a query is before any call. -/
inductive Origin where
  | table (schema name : String)
  | function (schema name : String) (args : List Value)

namespace Origin

def query : Origin → Query
  | table schema name => .ofTable schema name
  | function schema name args => .ofFunction schema name args

/-- What the query selects: of a table the columns that are asked for last, of a function all that
it gives. -/
def selection (calls : List Call) : Origin → Operation
  | table _ _ => .select ((Call.last? Call.columns? calls).getD "*")
  | function _ name args => .rpc name args

/-- How the query changes rows: the operation that is stated last, with the assignments that come
after it.  Where none is stated, the assignments make an update. -/
def mutation (calls : List Call) : Operation :=
  ((Call.last? Call.operation? calls).getD (.update [])).assigned
    ((calls.rtakeWhile (·.operation?.isNone)).filterMap Call.assignment?)

def operation (origin : Origin) (calls : List Call) : Operation :=
  if Call.mutate calls then mutation calls else origin.selection calls

/-- The columns that are wanted back: also those that are selected once the query changes rows. -/
def returning (calls : List Call) : Option String :=
  (Call.last? (fun c => c.returning?.or c.columns?) (calls.dropWhile (!·.isMutation))).or
    (Call.last? Call.returning? (calls.takeWhile (!·.isMutation)))

/-- **The query that calls leave** of which none fails. -/
def outcome (origin : Origin) (calls : List Call) : Query where
  schema := (Call.last? Call.schema? calls).getD origin.query.schema
  table := origin.query.table
  operation := origin.operation calls
  filters := calls.filterMap Call.filter?
  order := calls.filterMap Call.term?
  limit := Call.last? Call.limit? calls
  offset := Call.last? Call.offset? calls
  shape := (Call.last? Call.shape? calls).getD .many
  returning := returning calls
  count := Call.last? Call.count? calls

end Origin

variable {q : Query} {calls : List Call} {c : Call} {origin : Origin}

/-! ### Parts that the last call about them gives -/

section
variable {α : Type}

theorem last_recordAll (part : Query → Option α) {give : Call → Option α}
    (hrecord : ∀ q c, c.fault? q = none → part (q.record c) = (give c).or (part q))
    (h : q.Faultless calls) : part (q.recordAll calls) = (Call.last? give calls).or (part q) := by
  induction calls generalizing q with
  | nil => rfl
  | cons c calls ih =>
    obtain ⟨hc, hcalls⟩ := faultless_cons.1 h
    rw [recordAll_cons, ih hcalls, hrecord q c hc, Call.last?_cons]
    exact (Option.or_assoc ..).symm

theorem filterMap_recordAll {part : Query → List α} {give : Call → Option α}
    (hrecord : ∀ q c, part (q.record c) = part q ++ (give c).toList) :
    part (q.recordAll calls) = part q ++ calls.filterMap give := by
  induction calls generalizing q with
  | nil => simp
  | cons c calls ih =>
    rw [recordAll_cons, ih, hrecord]
    cases h : give c <;> simp [h]

end

theorem schema_record : some (q.record c).schema = c.schema?.or (some q.schema) := by
  cases c with
  | schema name => rfl
  | _ =>
    exact congrArg some (part_record_of_ne .schema schema (fun _ => rfl) Call.Group.noConfusion)

theorem shape_record : some (q.record c).shape = c.shape?.or (some q.shape) := by
  cases c with
  | shape s => rfl
  | _ => exact congrArg some (part_record_of_ne .shape shape (fun _ => rfl) Call.Group.noConfusion)

theorem count_record : (q.record c).count = c.count?.or q.count := by
  cases c with
  | count mode => rfl
  | _ => exact part_record_of_ne .count count (fun _ => rfl) Call.Group.noConfusion

theorem limit_record (h : c.fault? q = none) : (q.record c).limit = c.limit?.or q.limit := by
  cases c with
  | limit n =>
    by_cases hn : 0 ≤ n
    · simp only [record, store, Bounds.limit, if_pos hn]
      rfl
    · simp [Call.fault?, Bounds.limit, hn, Call.refusal?] at h
  | range first last =>
    by_cases hrange : 0 ≤ first ∧ first ≤ last
    · have hlength : last.toNat - first.toNat + 1 = (last - first + 1).toNat := by omega
      simp only [record, store, Bounds.range, if_pos hrange, hlength]
      rfl
    · simp [Call.fault?, Bounds.range, hrange, Call.refusal?] at h
  | _ => exact part_record_of_ne .paging limit (fun _ => rfl) Call.Group.noConfusion

theorem offset_record (h : c.fault? q = none) : (q.record c).offset = c.offset?.or q.offset := by
  cases c with
  | limit n => exact part_store offset (fun _ => rfl) fun _ => rfl
  | range first last =>
    by_cases hrange : 0 ≤ first ∧ first ≤ last
    · simp only [record, store, Bounds.range, if_pos hrange]
      rfl
    · simp [Call.fault?, Bounds.range, hrange, Call.refusal?] at h
  | _ => exact part_record_of_ne .paging offset (fun _ => rfl) Call.Group.noConfusion

theorem filters_record : (q.record c).filters = q.filters ++ c.filter?.toList := by
  cases c with
  | filter f =>
    cases f with
    | ok f => rfl
    | error e => exact (List.append_nil _).symm
  | _ =>
    exact (part_record_of_ne .filters filters (fun _ => rfl) Call.Group.noConfusion).trans
      (List.append_nil _).symm

theorem order_record : (q.record c).order = q.order ++ c.term?.toList := by
  cases c with
  | order column direction =>
    simp only [record, Call.term?]
    cases Ident.parse .column column with
    | ok column => rfl
    | error e => exact (List.append_nil _).symm
  | _ =>
    exact (part_record_of_ne .order order (fun _ => rfl) Call.Group.noConfusion).trans
      (List.append_nil _).symm

/-! ### What the statement does -/

theorem exists_rows {what : String} {payload : Except String Json}
    (h : Call.refusal? (rowsOf what payload) = none) :
    ∃ rows, payload = .ok rows ∧ rowsOf what payload = .ok rows := by
  cases payload with
  | error text => cases h
  | ok rows =>
    cases rows with
    | obj fields => exact ⟨.obj fields, rfl, rfl⟩
    | arr items => exact ⟨.arr items, rfl, rfl⟩
    | _ => cases h

theorem exists_fields {values : Except String Json}
    (h : Call.refusal? (assignmentsOf values) = none) : ∃ fields, values = .ok (.obj fields) := by
  cases values with
  | error text => cases h
  | ok values =>
    cases values with
    | obj fields => exact ⟨fields, rfl⟩
    | _ => cases h

theorem operation_record_of_some {o : Operation} (h : c.fault? q = none)
    (ho : c.operation? = some o) : (q.record c).operation = o := by
  cases c with
  | insert payload | upsert payload =>
    obtain ⟨rows, rfl, hrows⟩ := exists_rows h
    cases ho
    simp only [record, store, hrows]
  | update values =>
    obtain ⟨fields, rfl⟩ := exists_fields h
    cases ho
    rfl
  | delete =>
    cases ho
    rfl
  | _ => cases ho

theorem operation_record_set {column : String} {value : Value} :
    (q.record (.set column value)).operation = q.operation.assigned [(column, value)] := by
  simp only [record, assign]
  cases q.operation <;> rfl

theorem select_of_mutation {columns : String} (h : q.operation.isMutation) :
    q.select columns = { q with returning := some columns } := by
  rw [Query.select]
  split <;> simp_all [Operation.isMutation, Operation.isQuery]

theorem select_of_not_mutation {columns : String} (h : q.operation.isMutation = false) :
    (q.select columns).operation.isMutation = false ∧
      (q.select columns).returning = q.returning := by
  obtain ⟨_, _, operation⟩ := q
  cases operation with
  | select => exact ⟨rfl, rfl⟩
  | rpc =>
    simp only [Query.select]
    split <;> exact ⟨rfl, rfl⟩
  | _ => cases h

/-- A call that does not fail leaves the operation as it is if it is about something else. -/
theorem operation_record_of_none (h : c.fault? q = none) (hc : c.isMutation = false)
    (hcolumns : c.columns? = none) : (q.record c).operation = q.operation := by
  cases c with
  | insert payload | upsert payload =>
    obtain ⟨rows, rfl, -⟩ := exists_rows h
    cases hc
  | update values =>
    obtain ⟨fields, rfl⟩ := exists_fields h
    cases hc
  | delete | set => cases hc
  | select => cases hcolumns
  | returning => rfl
  | _ => exact part_record_of_ne .operation operation (fun _ => rfl) Call.Group.noConfusion

namespace Origin

variable {o : Operation}

theorem mutation_concat_of_some (h : c.operation? = some o) : mutation (calls ++ [c]) = o := by
  rw [mutation, Call.last?_concat, h, List.rtakeWhile_concat_neg _ _ _ (by simp [h])]
  rfl

theorem mutation_concat_of_none (h : c.operation? = none) :
    mutation (calls ++ [c]) = (mutation calls).assigned c.assignment?.toList := by
  rw [mutation, mutation, ← Operation.assigned_append, Call.last?_concat, h,
    List.rtakeWhile_concat_pos _ _ _ (by simp [h]), List.filterMap_append]
  cases ha : c.assignment? <;> simp [ha]

theorem mutation_of_not_mutate (h : Call.mutate calls = false) :
    mutation calls = .update [] := by
  have hnone : ∀ c ∈ calls, c.operation? = none ∧ c.assignment? = none := by
    simpa [Call.mutate, Call.isMutation] using h
  have hlast : Call.last? Call.operation? calls = none := by
    rw [Call.last?, List.filterMap_eq_nil_iff.2 fun c hc => (hnone c hc).1]
    rfl
  have hlater : ∀ c ∈ calls.rtakeWhile (·.operation?.isNone), c.assignment? = none := fun c hc =>
    (hnone c (List.IsSuffix.subset (List.rtakeWhile_suffix _ _) hc)).2
  rw [mutation, hlast, List.filterMap_eq_nil_iff.2 hlater]
  rfl

theorem isMutation_mutation : (mutation calls).isMutation := by
  have hlast : ((Call.last? Call.operation? calls).getD (.update [])).isMutation := by
    cases h : Call.last? Call.operation? calls with
    | none => rfl
    | some o =>
      obtain ⟨c, -, hc⟩ := List.mem_filterMap.1 (List.mem_of_getLast? h)
      exact Call.isMutation_of_operation? hc
  exact Operation.isMutation_assigned hlast

theorem operation_of_mutate (h : Call.mutate calls) : origin.operation calls = mutation calls :=
  if_pos h

theorem operation_of_not_mutate (h : Call.mutate calls = false) :
    origin.operation calls = origin.selection calls := by
  rw [operation, h]
  rfl

theorem selection_concat (hcolumns : c.columns? = none) :
    origin.selection (calls ++ [c]) = origin.selection calls := by
  cases origin <;> simp [selection, Call.last?_concat, hcolumns]

theorem operation_concat_of_none (ho : c.operation? = none) (ha : c.assignment? = none)
    (hcolumns : c.columns? = none) : origin.operation (calls ++ [c]) = origin.operation calls := by
  have hc : c.isMutation = false := by rw [Call.isMutation, ho, ha]; rfl
  rw [operation, operation, selection_concat hcolumns, mutation_concat_of_none ho, ha]
  simp [Call.mutate_concat, hc]

/-- Where no call has made the query change rows yet, an assignment makes it an update. -/
theorem assigned_operation {a : String × Value} :
    (origin.operation calls).assigned [a] = (mutation calls).assigned [a] := by
  cases h : Call.mutate calls with
  | true => rw [operation_of_mutate h]
  | false =>
    rw [operation_of_not_mutate h, mutation_of_not_mutate h]
    cases origin <;> rfl

end Origin

/-- What is selected matters only if no call makes the query change rows. -/
theorem operation_record_select {columns : String} (hq : q.operation = origin.operation calls) :
    (q.record (.select columns)).operation = origin.operation (calls ++ [.select columns]) := by
  have hconcat : Call.mutate (calls ++ [.select columns]) = Call.mutate calls :=
    Call.mutate_concat.trans (Bool.or_false _)
  cases hcalls : Call.mutate calls with
  | true =>
    rw [Origin.operation_of_mutate hcalls] at hq
    rw [record, select_of_mutation (hq ▸ Origin.isMutation_mutation),
      Origin.operation_of_mutate (hconcat.trans hcalls), Origin.mutation_concat_of_none rfl]
    exact hq.trans Operation.assigned_nil.symm
  | false =>
    rw [Origin.operation_of_not_mutate hcalls] at hq
    rw [Origin.operation_of_not_mutate (hconcat.trans hcalls), record, Query.select, hq]
    cases origin with
    | table => simp [Origin.selection, Call.last?_concat, Call.columns?]
    | function =>
      simp only [Origin.selection]
      split <;> exact hq

/-- **What the statement does** after one more call. -/
theorem operation_record (h : c.fault? q = none) (hq : q.operation = origin.operation calls) :
    (q.record c).operation = origin.operation (calls ++ [c]) := by
  cases ho : c.operation? with
  | some o =>
    have hmutate : Call.mutate (calls ++ [c]) := by
      simp [Call.mutate_concat, Call.isMutation, ho]
    rw [operation_record_of_some h ho, Origin.operation_of_mutate hmutate,
      Origin.mutation_concat_of_some ho]
  | none =>
    cases c with
    | set column value =>
      have hcalls : Call.mutate (calls ++ [.set column value]) :=
        Call.mutate_concat.trans (Bool.or_true _)
      rw [operation_record_set, hq, Origin.assigned_operation, Origin.operation_of_mutate hcalls,
        Origin.mutation_concat_of_none rfl]
      rfl
    | select columns => exact operation_record_select hq
    | _ =>
      rw [operation_record_of_none h (by simp [Call.isMutation, ho, Call.assignment?]) rfl, hq]
      exact (Origin.operation_concat_of_none ho rfl rfl).symm

theorem operation_recordAll (h : origin.query.Faultless calls) :
    (origin.query.recordAll calls).operation = origin.operation calls := by
  induction calls using List.reverseRecOn with
  | nil => cases origin <;> rfl
  | append_singleton calls c ih =>
    obtain ⟨hcalls, hc⟩ := faultless_concat.1 h
    rw [recordAll_append]
    exact operation_record hc (ih hcalls)

/-! ### What is given back -/

theorem isMutation_record_of_isMutation (h : c.fault? q = none) (hc : c.isMutation) :
    (q.record c).operation.isMutation := by
  cases ho : c.operation? with
  | some o =>
    rw [operation_record_of_some h ho]
    exact Call.isMutation_of_operation? ho
  | none =>
    cases c with
    | set => rfl
    | _ => simp [Call.isMutation, ho, Call.assignment?] at hc

theorem isMutation_record (h : c.fault? q = none) :
    (q.record c).operation.isMutation = (q.operation.isMutation || c.isMutation) := by
  cases hc : c.isMutation with
  | true => rw [isMutation_record_of_isMutation h hc, Bool.or_true]
  | false =>
    rw [Bool.or_false]
    cases c with
    | select columns =>
      cases hq : q.operation.isMutation with
      | true => rwa [record, select_of_mutation hq]
      | false => exact (select_of_not_mutation hq).1
    | _ => rw [operation_record_of_none h hc rfl]

theorem returning_record (hc : c.columns? = none) :
    (q.record c).returning = c.returning?.or q.returning := by
  cases c with
  | insert | upsert | update =>
    simp only [record]
    exact part_store returning (fun _ => rfl) fun _ => rfl
  | select => cases hc
  | set | delete | returning => rfl
  | _ => exact part_record_of_ne .operation returning (fun _ => rfl) Call.Group.noConfusion

/-- Once the query changes rows, the columns that are selected are those to give back. -/
theorem returning_record_of_mutation (hq : q.operation.isMutation) :
    (q.record c).returning = (c.returning?.or c.columns?).or q.returning := by
  cases hc : c.columns? with
  | none => rw [returning_record hc, Option.or_none]
  | some columns =>
    cases c with
    | select =>
      cases hc
      rw [record, select_of_mutation hq]
      rfl
    | _ => cases hc

theorem returning_record_of_not_mutation (hq : q.operation.isMutation = false) :
    (q.record c).returning = c.returning?.or q.returning := by
  cases c with
  | select columns => exact (select_of_not_mutation hq).2
  | _ => exact returning_record rfl

theorem returning_recordAll_of_mutation (h : q.Faultless calls) (hq : q.operation.isMutation) :
    (q.recordAll calls).returning =
      (Call.last? (fun c => c.returning?.or c.columns?) calls).or q.returning := by
  induction calls generalizing q with
  | nil => rfl
  | cons c calls ih =>
    obtain ⟨hc, hcalls⟩ := faultless_cons.1 h
    rw [recordAll_cons, ih hcalls (by rw [isMutation_record hc, hq, Bool.true_or]),
      returning_record_of_mutation hq, Call.last?_cons]
    exact (Option.or_assoc ..).symm

theorem returning_recordAll (h : q.Faultless calls) (hq : q.operation.isMutation = false) :
    (q.recordAll calls).returning = (Origin.returning calls).or q.returning := by
  induction calls generalizing q with
  | nil => rfl
  | cons c calls ih =>
    obtain ⟨hc, hcalls⟩ := faultless_cons.1 h
    have hreturning : (q.record c).returning = c.returning?.or q.returning :=
      returning_record_of_not_mutation hq
    have hmutation : (q.record c).operation.isMutation = c.isMutation := by
      rw [isMutation_record hc, hq, Bool.false_or]
    rw [recordAll_cons, Origin.returning]
    cases hfirst : c.isMutation with
    | true =>
      rw [returning_recordAll_of_mutation hcalls (hmutation.trans hfirst), hreturning,
        List.dropWhile_cons_of_neg (by simp [hfirst]), List.takeWhile_cons_of_neg (by simp [hfirst]),
        Call.last?_cons, Call.returning?_of_isMutation hfirst, Call.columns?_of_isMutation hfirst]
      simp
    | false =>
      rw [ih hcalls (hmutation.trans hfirst), hreturning,
        List.dropWhile_cons_of_pos (by simp [hfirst]), List.takeWhile_cons_of_pos (by simp [hfirst]),
        Call.last?_cons, Origin.returning]
      simp only [Option.or_assoc]

/-! ### All parts -/

attribute [ext] Query

/-- **Calls of which none fails leave their outcome.** -/
theorem recordAll_of_faultless (h : origin.query.Faultless calls) :
    origin.query.recordAll calls = origin.outcome calls := by
  have hschema := last_recordAll (fun q => some q.schema) (fun _ _ _ => schema_record) h
  have hshape := last_recordAll (fun q => some q.shape) (fun _ _ _ => shape_record) h
  have hlimit := last_recordAll limit (fun _ _ => limit_record) h
  have hoffset := last_recordAll offset (fun _ _ => offset_record) h
  have hcount := last_recordAll count (fun _ _ _ => count_record) h
  have hfilters : (origin.query.recordAll calls).filters = _ :=
    filterMap_recordAll fun _ _ => filters_record
  have horder : (origin.query.recordAll calls).order = _ :=
    filterMap_recordAll fun _ _ => order_record
  have hreturning := returning_recordAll h (by cases origin <;> rfl)
  rw [Option.or_some, Option.some_inj] at hschema hshape
  ext1
  · exact hschema
  · exact table_recordAll
  · exact operation_recordAll h
  · exact hfilters.trans (by cases origin <;> rfl)
  · exact horder.trans (by cases origin <;> rfl)
  · exact hlimit.trans (by cases origin <;> exact Option.or_none)
  · exact hoffset.trans (by cases origin <;> exact Option.or_none)
  · exact hshape.trans (by cases origin <;> rfl)
  · exact hreturning.trans (by cases origin <;> exact Option.or_none)
  · exact hcount.trans (by cases origin <;> exact Option.or_none)
  · exact error_recordAll_of_faultless (by cases origin <;> rfl) h

/-- Calls leave the outcome of those that do not fail, and the first error. -/
theorem recordAll_eq_outcome :
    origin.query.recordAll calls =
      (origin.outcome (origin.query.successes calls)).withError
        (origin.query.recordAll calls).error := by
  rw [← recordAll_of_faultless faultless_successes]
  exact recordAll_successes

end Query

end QueryClient
