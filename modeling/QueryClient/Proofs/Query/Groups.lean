/-
  Calls of different groups.

  Every call belongs to a group, and a group has parts of the query of its own.  A call reads and
  changes only what belongs to its group, so that calls of different groups can change places.

  * `Query.only` is what belongs to a group of calls, and no other calls change it
    (`only_record_of_ne`);
  * `faultless_iff_ofGroup`: calls fail or not without regard to those of other groups;
  * `recordAll_congr`: what calls come to does not depend on how those of different groups are
    mixed.
-/
import QueryClient.Proofs.Query.Failure

namespace QueryClient

open QueryClient.Text

/-- A group of calls, by what they are about. -/
inductive Call.Group where
  | filters | order | paging | shape | count | schema
  /-- What the statement does, and what it gives back. -/
  | operation
  deriving DecidableEq

def Call.group : Call → Group
  | .filter _ => .filters
  | .order _ _ => .order
  | .limit _ | .range _ _ => .paging
  | .shape _ => .shape
  | .count _ => .count
  | .schema _ => .schema
  | .select _ | .insert _ | .upsert _ _ _ | .update _ | .set _ _ | .delete | .returning _ =>
    .operation

/-- The calls of a group, in their order. -/
def Call.ofGroup (g : Group) (calls : List Call) : List Call := calls.filter (·.group = g)

section
variable {g : Call.Group} {c : Call} {calls : List Call}

theorem Call.ofGroup_cons_self : ofGroup c.group (c :: calls) = c :: ofGroup c.group calls :=
  List.filter_cons_of_pos (decide_eq_true rfl)

theorem Call.ofGroup_cons_of_ne (h : c.group ≠ g) : ofGroup g (c :: calls) = ofGroup g calls :=
  List.filter_cons_of_neg (by simpa using h)

theorem Call.group_of_mem_ofGroup (h : c ∈ ofGroup g calls) : c.group = g :=
  of_decide_eq_true (List.mem_filter.1 h).2

end

namespace Query

/-- What belongs to a group of calls, in a query that has nothing else. -/
def only (q : Query) : Call.Group → Query
  | .filters => { Query.ofTable "" "" with filters := q.filters }
  | .order => { Query.ofTable "" "" with order := q.order }
  | .paging => { Query.ofTable "" "" with limit := q.limit, offset := q.offset }
  | .shape => { Query.ofTable "" "" with shape := q.shape }
  | .count => { Query.ofTable "" "" with count := q.count }
  | .schema => { Query.ofTable "" "" with schema := q.schema }
  | .operation =>
    { Query.ofTable "" "" with operation := q.operation, returning := q.returning }

variable {q q' : Query} {calls calls' : List Call} {c : Call} {e : Error} {g : Call.Group}

/-- A query is what belongs to the groups of calls, its table and its error. -/
theorem eq_of_only (hparts : ∀ g, q.only g = q'.only g) (htable : q.table = q'.table)
    (herror : q.error = q'.error) : q = q' := by
  have hfilters := congrArg filters (hparts .filters)
  have horder := congrArg order (hparts .order)
  have hlimit := congrArg limit (hparts .paging)
  have hoffset := congrArg offset (hparts .paging)
  have hshape := congrArg shape (hparts .shape)
  have hcount := congrArg count (hparts .count)
  have hschema := congrArg schema (hparts .schema)
  have hoperation := congrArg operation (hparts .operation)
  have hreturning := congrArg returning (hparts .operation)
  cases q
  cases q'
  simp_all [only]

@[simp] theorem only_withError (err : Option Error) : (q.withError err).only g = q.only g := by
  cases g <;> rfl

@[simp] theorem only_fail : (q.fail e).only g = q.only g := only_withError _

@[simp] theorem only_only : (q.only g).only g = q.only g := by
  cases g <;> rfl

section
variable {α : Type} {input : Except Error α} {put : α → Query → Query}

/-- A part that is not stored, and is not the error, stays as it is. -/
theorem part_store {β : Type} (part : Query → β) (hfail : ∀ e, part (q.fail e) = part q)
    (hput : ∀ a, part (put a q) = part q) : part (q.store input put) = part q := by
  cases input with
  | ok a => exact hput a
  | error e => exact hfail e

theorem only_store_congr (hput : ∀ a, (put a q).only g = (put a (q.only g)).only g) :
    (q.store input put).only g = ((q.only g).store input put).only g := by
  cases input with
  | ok a => exact hput a
  | error e => exact only_fail.trans (only_only.symm.trans only_fail.symm)

end

/-- **A call changes only what belongs to its group.** -/
theorem only_record_of_ne (h : c.group ≠ g) : (q.record c).only g = q.only g := by
  cases c with
  | insert | upsert | update | filter | order | limit | range =>
    refine part_store (·.only g) (fun _ => only_fail) fun a => ?_
    cases g <;> first | rfl | exact absurd rfl h
  | select columns =>
    rw [record, Query.select]
    split
    · split
      · rfl
      · exact only_fail
    · cases g <;> first | rfl | exact absurd rfl h
    · cases g <;> first | rfl | exact absurd rfl h
  | _ => cases g <;> first | rfl | exact absurd rfl h

/-- A part that belongs to a group of calls is as it was after any other call. -/
theorem part_record_of_ne {β : Type} (g : Call.Group) (part : Query → β)
    (hpart : ∀ q, part (q.only g) = part q) (h : c.group ≠ g) : part (q.record c) = part q := by
  rw [← hpart, only_record_of_ne h, hpart]

theorem table_record : (q.record c).table = q.table := by
  cases c with
  | insert | upsert | update | filter | order | limit | range =>
    exact part_store table (fun _ => rfl) fun _ => rfl
  | select columns =>
    rw [record, Query.select]
    split
    · split <;> rfl
    · rfl
    · rfl
  | _ => rfl

/-- **A call reads only what belongs to its group.** -/
theorem only_record_only :
    ((q.only c.group).record c).only c.group = (q.record c).only c.group := by
  cases c with
  | insert | upsert | update | filter | order | limit | range =>
    simp only [record]
    exact (only_store_congr fun _ => rfl).symm
  | select columns =>
    obtain ⟨_, _, operation⟩ := q
    cases operation with
    | rpc => by_cases h : Text.trim columns = "*" <;> simp [record, Query.select, h] <;> rfl
    | _ => rfl
  | _ => rfl

theorem fault?_only : c.fault? (q.only c.group) = c.fault? q := by
  cases c <;> rfl

theorem fault?_congr (h : q.only c.group = q'.only c.group) : c.fault? q = c.fault? q' := by
  rw [← fault?_only, h, fault?_only]

theorem only_record_congr (h : q.only c.group = q'.only c.group) :
    (q.record c).only c.group = (q'.record c).only c.group := by
  rw [← only_record_only, h, only_record_only]

/-- What belongs to a group is what the calls of the group make of it. -/
theorem only_recordAll (h : q.only g = q'.only g) :
    (q.recordAll calls).only g = (q'.recordAll (Call.ofGroup g calls)).only g := by
  induction calls generalizing q q' with
  | nil => exact h
  | cons c calls ih =>
    by_cases hc : c.group = g
    · subst hc
      rw [Call.ofGroup_cons_self]
      exact ih (only_record_congr h)
    · rw [Call.ofGroup_cons_of_ne hc]
      exact ih ((only_record_of_ne hc).trans h)

theorem table_recordAll : (q.recordAll calls).table = q.table := by
  induction calls generalizing q with
  | nil => rfl
  | cons c calls ih => exact ih.trans table_record

theorem faultless_congr (hcalls : ∀ c ∈ calls, c.group = g) (h : q.only g = q'.only g) :
    q.Faultless calls ↔ q'.Faultless calls := by
  induction calls generalizing q q' with
  | nil => exact iff_of_true faultless_nil faultless_nil
  | cons c calls ih =>
    obtain ⟨rfl, hrest⟩ := List.forall_mem_cons.1 hcalls
    rw [faultless_cons, faultless_cons, fault?_congr h, ih hrest (only_record_congr h)]

/-- **Calls of different groups fail or not without regard to each other.** -/
theorem faultless_iff_ofGroup :
    q.Faultless calls ↔ ∀ g, q.Faultless (Call.ofGroup g calls) := by
  induction calls generalizing q with
  | nil => exact iff_of_true faultless_nil fun _ => faultless_nil
  | cons c calls ih =>
    have hrest : (q.record c).Faultless calls ↔ _ := ih
    have hother : ∀ g, c.group ≠ g →
        (q.Faultless (Call.ofGroup g calls) ↔ (q.record c).Faultless (Call.ofGroup g calls)) :=
      fun g hg => faultless_congr (fun _ => Call.group_of_mem_ofGroup) (only_record_of_ne hg).symm
    rw [faultless_cons, hrest]
    constructor
    · rintro ⟨hc, h⟩ g
      by_cases hg : c.group = g
      · subst hg
        rw [Call.ofGroup_cons_self, faultless_cons]
        exact ⟨hc, h _⟩
      · rw [Call.ofGroup_cons_of_ne hg, hother g hg]
        exact h g
    · intro h
      obtain ⟨hc, hown⟩ := faultless_cons.1 (Call.ofGroup_cons_self ▸ h c.group)
      refine ⟨hc, fun g => ?_⟩
      by_cases hg : c.group = g
      · exact hg ▸ hown
      · exact (hother g hg).1 (Call.ofGroup_cons_of_ne hg ▸ h g)

/-- **What calls come to** does not depend on how those of different groups are mixed. -/
theorem recordAll_congr (h : ∀ g, Call.ofGroup g calls = Call.ofGroup g calls')
    (herror : (q.recordAll calls).error = (q.recordAll calls').error) :
    q.recordAll calls = q.recordAll calls' := by
  refine eq_of_only (fun g => ?_) (table_recordAll.trans table_recordAll.symm) herror
  rw [only_recordAll rfl, h, ← only_recordAll rfl]

end Query

end QueryClient
