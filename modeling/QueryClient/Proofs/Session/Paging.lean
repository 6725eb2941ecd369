/-
  Ranges of rows.

  A range asks for the rows from one index to another one, and its statement states them as a limit
  and an offset.

  * `Session.between` are the rows with these indices, and `take_drop_eq_between`: the limit and the
    offset leave them;
  * `compile_range`: a query that can be compiled can be so with a range;
  * `range_selects`: what a range comes to; its limit is a number of 64 bits with a sign unless it
    is the longest of all ranges.
-/
import QueryClient.Proofs.Query.Groups
import QueryClient.Proofs.Session.SingleRow
import QueryClient.Proofs.Statement.Counterpart

namespace QueryClient

open Number

variable {q : Query} {first last : ℤ} {safety : Safety} {t : Statement}

/-! ## Rows by their indices -/

namespace Session

/-- The rows from one index to another one, counted from zero and included. -/
def between (first last : ℕ) (rows : List Row) : List Row :=
  (rows.zipIdx.filter fun r => first ≤ r.2 ∧ r.2 ≤ last).map Prod.fst

/-- The rows are counted from some index on. -/
theorem map_filter_zipIdx (first last : ℕ) (rows : List Row) (k : ℕ) :
    ((rows.zipIdx k).filter fun r => first ≤ r.2 ∧ r.2 ≤ last).map Prod.fst =
      (rows.drop (first - k)).take (last + 1 - max first k) := by
  induction rows generalizing k with
  | nil => simp
  | cons row rows ih =>
    rw [List.zipIdx_cons, List.filter_cons]
    rcases Nat.lt_or_ge k first with hlow | hlow
    · have hdrop : first - k = first - (k + 1) + 1 := by omega
      have hmax : max first k = max first (k + 1) := by omega
      rw [if_neg (by simp; omega), ih, hdrop, hmax, List.drop_succ_cons]
    · have hdrop : first - k = 0 ∧ first - (k + 1) = 0 := by omega
      rcases Nat.lt_or_ge last k with hhigh | hhigh
      · have hnone : last + 1 - max first k = 0 ∧ last + 1 - max first (k + 1) = 0 := by omega
        rw [if_neg (by simp; omega), ih, hnone.1, hnone.2, List.take_zero, List.take_zero]
      · have htake : last + 1 - max first k = last + 1 - max first (k + 1) + 1 := by omega
        rw [if_pos (by simp; omega), List.map_cons, ih, hdrop.1, hdrop.2, htake, List.drop_zero,
          List.drop_zero, List.take_succ_cons]

/-- **The limit and the offset leave the rows of the range.** -/
theorem take_drop_eq_between {first last : ℕ} (rows : List Row) :
    (rows.drop first).take (last + 1 - first) = between first last rows := by
  rw [between, map_filter_zipIdx, Nat.sub_zero, Nat.max_zero]

/-- Rows up to an index, and those behind it, are all rows. -/
theorem between_append {first middle last : ℕ} (hfirst : first ≤ middle) (hlast : middle < last)
    (rows : List Row) :
    between first middle rows ++ between (middle + 1) last rows = between first last rows := by
  have hall : last + 1 - first = (middle + 1 - first) + (last + 1 - (middle + 1)) := by omega
  have hback : rows.drop (middle + 1) = (rows.drop first).drop (middle + 1 - first) := by
    rw [List.drop_drop]
    congr 1
    omega
  rw [← take_drop_eq_between, ← take_drop_eq_between, ← take_drop_eq_between, hall, hback,
    ← List.take_add]

end Session

/-! ## Ranges that are recorded -/

namespace Query

/-- A range that is accepted. -/
theorem record_range (h : 0 ≤ first ∧ first ≤ last) :
    q.record (.range first last) =
      { q with offset := some first.toNat, limit := some (last.toNat - first.toNat + 1) } := by
  simp only [record, store, Bounds.range, if_pos h]

/-- What a range does to the error of a query. -/
theorem error_record_range : ∃ e : Error, e.code = .validation ∧
    (q.record (.range first last)).error =
      q.error.or (if first < 0 ∨ last < first then some e else none) := by
  refine ⟨.validation ("Invalid range " ++ toString first ++ "..=" ++ toString last ++
    ": requires 0 <= from <= to"), rfl, ?_⟩
  by_cases h : 0 ≤ first ∧ first ≤ last
  · rw [record_range h, if_neg (by omega), Option.or_none]
  · simp only [record, store, Bounds.range, if_neg h]
    rw [if_pos (by omega)]
    rfl

/-- Calls of other groups leave the paging as it is. -/
theorem paging_recordAll {later : List Call} (h : ∀ c ∈ later, c.group ≠ .paging) :
    (q.recordAll later).limit = q.limit ∧ (q.recordAll later).offset = q.offset := by
  induction later generalizing q with
  | nil => exact ⟨rfl, rfl⟩
  | cons c later ih =>
    obtain ⟨hc, hlater⟩ := List.forall_mem_cons.1 h
    rw [recordAll_cons, (ih hlater).1, (ih hlater).2]
    exact ⟨part_record_of_ne .paging limit (fun _ => rfl) hc,
      part_record_of_ne .paging offset (fun _ => rfl) hc⟩

end Query

/-! ## Statements with a range -/

open Piece Statement

namespace Statement

theorem error_of_compile (h : compile safety q = .ok t) : q.error = none := by
  obtain ⟨⟨⟩, herror, -⟩ := bind_eq_ok.1 h
  exact checkError_eq_ok_iff.1 herror

/-- Only a query that reads can be compiled with a limit. -/
theorem isQuery_of_compile {limit : ℕ} (h : compile safety q = .ok t)
    (hlimit : q.limit = some limit) : q.operation.isQuery := by
  have haccepted := (exists_compile_iff (error_of_compile h)).1 ⟨t, h⟩
  by_contra hread
  have hmutation : q.operation.isMutation = true := by
    rw [Operation.isMutation, Bool.eq_false_iff.2 hread]
    rfl
  have hnone : q.limit = none := (haccepted.unordered hmutation).2.1
  rw [hnone] at hlimit
  cases hlimit

/-- A query that reads and can be compiled can be so with a range. -/
theorem compile_range (hread : q.operation.isQuery) (ht : compile safety q = .ok t)
    (h : 0 ≤ first ∧ first ≤ last) :
    ∃ t, compile safety (q.record (.range first last)) = .ok t := by
  have herror := error_of_compile ht
  have haccepted := (exists_compile_iff herror).1 ⟨t, ht⟩
  have hmutation : q.operation.isMutation = false := by
    rw [Operation.isMutation, hread]
    rfl
  have hpaged : ∀ offset limit, Accepted safety { q with offset, limit } := fun _ _ =>
    { haccepted with
      unordered := fun hm => absurd (hmutation.symm.trans hm) Bool.false_ne_true }
  rw [Query.record_range h]
  exact (exists_compile_iff (by exact herror)).2 (hpaged _ _)

end Statement

section
variable {limit offset : ℕ} (ht : compile safety q = .ok t) (hlimit : q.limit = some limit)
  (hoffset : q.offset = some offset)
include ht hlimit hoffset

/-- A statement with a limit and an offset ends with them, and nothing in front pages rows. -/
theorem Statement.pieces_of_range : ∃ front, t.pieces = front ++
      (clause [.limit] ++ [number limit] ++ (clause [.offset] ++ [number offset])) ∧
    ∀ w, w.isPaging → Each (· ≠ word w) front := by
  have hpaging : paging q =
      clause [.limit] ++ [number limit] ++ (clause [.offset] ++ [number offset]) := by
    simp only [paging, hlimit, hoffset]
  rw [← hpaging]
  exact (compiled_of_compile ht).front (isQuery_of_compile ht hlimit)

/-- **The text of the statement ends with the limit and the offset**, written out. -/
theorem Statement.text_of_range : ∃ front,
    t.text = front ++ " LIMIT " ++ toString limit ++ " OFFSET " ++ toString offset := by
  obtain ⟨front, hfront, -⟩ := pieces_of_range ht hlimit hoffset
  refine ⟨String.ofList (textFrom 0 front), ?_⟩
  rw [← String.toList_inj, text, String.toList_ofList, hfront, textFrom_append]
  simp [textFrom, clause, phrase, Piece.text, Word.text]

/-- **The statement leaves the rows of its range.** -/
theorem Session.paged_of_range (rows : List Row) :
    paged t.text t.values rows = (rows.drop offset).take limit := by
  obtain ⟨front, hfront, hwords⟩ := pieces_of_range ht hlimit hoffset
  have hspaced := (compiled_of_compile ht).spaced
  obtain ⟨l, hl⟩ : ∃ l, l = Token.integer (Nat.toDigits 10 limit) := ⟨_, rfl⟩
  obtain ⟨o, ho⟩ : ∃ o, o = Token.integer (Nat.toDigits 10 offset) := ⟨_, rfl⟩
  have htokens : Token.lex t.text.toList = some (tokensFrom 0 front ++
      [.word Word.limit.text.toList, l, .word Word.offset.text.toList, o]) := by
    rw [Statement.text, String.toList_ofList, lex_textFrom hspaced, hfront, tokensFrom_append]
    simp [tokensFrom, clause, phrase, token?, hl, ho]
  have hlim : Token.behind .limit
      [.word Word.limit.text.toList, l, .word Word.offset.text.toList, o] = some l := if_pos rfl
  have hoff : Token.behind .offset
      [.word Word.limit.text.toList, l, .word Word.offset.text.toList, o] = some o := by
    rw [Token.behind, if_neg (by decide), Token.behind, if_neg (by simp [hl]), Token.behind,
      if_pos rfl]
    rfl
  have hnumber : ∀ n, Token.number? t.values (.integer (Nat.toDigits 10 n)) = some n := fun n => by
    rw [Token.number?, Nat.ofDigitChars_ten_toDigits]
  unfold paged
  rw [htokens]
  dsimp only [Option.getD_some]
  rw [Token.behind_append (word_notMem_tokensFrom rfl (hwords .offset rfl) 0),
    Token.behind_append (word_notMem_tokensFrom rfl (hwords .limit rfl) 0), hoff, hlim,
    Option.bind_some, Option.bind_some, hl, ho, hnumber, hnumber]

end

/-! ## Ranges -/

/-- The rows that a query gives with a range, of those that match it. -/
def Session.page (safety : Safety) (q : Query) (first last : ℤ) (rows : List Row) :
    Except Error (List Row) :=
  (compile safety (q.record (.range first last))).map fun t => paged t.text t.values rows

theorem Session.page_eq (hread : q.operation.isQuery) (ht : compile safety q = .ok t)
    (h : 0 ≤ first ∧ first ≤ last) (rows : List Row) :
    page safety q first last rows = .ok (between first.toNat last.toNat rows) := by
  obtain ⟨t', ht'⟩ := compile_range hread ht h
  have hlength : last.toNat - first.toNat + 1 = last.toNat + 1 - first.toNat := by omega
  rw [page, ht', Except.map,
    paged_of_range ht' (by rw [Query.record_range h]) (by rw [Query.record_range h]), hlength,
    take_drop_eq_between]

open Session in
/-- **What a range comes to.**  It is refused if it begins before the first row or ends before it
begins.  Otherwise the query has its length as the limit and its beginning as the offset; the limit
is a number of 64 bits, and with a sign too unless the range has every index there is.  Whatever is
called later, if it is no other paging, the statement states them as they are, and they leave the
rows of the range.  Two ranges next to each other give the rows of both in one. -/
theorem range_selects {first last : ℤ} (hlast : isSigned 64 last) (q : Query) :
    (∃ e : Error, e.code = .validation ∧ (q.record (.range first last)).error =
      q.error.or (if first < 0 ∨ last < first then some e else none)) ∧
    (0 ≤ first ∧ first ≤ last → ∃ offset limit : ℕ,
      (offset : ℤ) = first ∧ (limit : ℤ) = last - first + 1 ∧ limit ≤ unsignedMax 64 ∧
      (offset : ℤ) ≤ signedMax 64 ∧
      ((limit : ℤ) ≤ signedMax 64 ↔ ¬ (first = 0 ∧ last = signedMax 64)) ∧
      ∀ later : List Call, (∀ c ∈ later, c.group ≠ .paging) →
        ((q.record (.range first last)).recordAll later).limit = some limit ∧
        ((q.record (.range first last)).recordAll later).offset = some offset ∧
        ∀ safety t, compile safety ((q.record (.range first last)).recordAll later) = .ok t →
          (∃ front, t.text =
            front ++ " LIMIT " ++ toString limit ++ " OFFSET " ++ toString offset) ∧
          ∀ rows, paged t.text t.values rows = between first.toNat last.toNat rows) ∧
    (q.operation.isQuery → ∀ safety t, compile safety q = .ok t → ∀ middle,
      0 ≤ first ∧ first ≤ middle ∧ middle < last → ∀ rows, ∃ front back,
        page safety q first middle rows = .ok front ∧
        page safety q (middle + 1) last rows = .ok back ∧
        page safety q first last rows = .ok (front ++ back)) := by
  have hbits : signedMax 64 = 2 ^ 63 - 1 ∧ unsignedMax 64 = 2 ^ 64 - 1 := by decide
  have hmost : last ≤ signedMax 64 := (of_decide_eq_true hlast).2
  refine ⟨Query.error_record_range, fun h => ?_, fun hread safety t ht middle h rows => ?_⟩
  · refine ⟨first.toNat, last.toNat - first.toNat + 1, by omega, by omega, by omega, by omega,
      by omega, fun later hlater => ?_⟩
    obtain ⟨hlimit, hoffset⟩ := Query.paging_recordAll (q := q.record (.range first last)) hlater
    rw [Query.record_range h] at hlimit hoffset ⊢
    refine ⟨hlimit, hoffset, fun safety t ht => ⟨text_of_range ht hlimit hoffset, fun rows => ?_⟩⟩
    have hlength : last.toNat - first.toNat + 1 = last.toNat + 1 - first.toNat := by omega
    rw [paged_of_range ht hlimit hoffset, hlength, take_drop_eq_between]
  · obtain ⟨hlow, hfront, hback⟩ := h
    have hnext : (middle + 1).toNat = middle.toNat + 1 := by omega
    refine ⟨_, _, page_eq hread ht ⟨hlow, hfront⟩ rows,
      page_eq hread ht ⟨by omega, by omega⟩ rows, ?_⟩
    rw [page_eq hread ht ⟨hlow, by omega⟩ rows, hnext,
      between_append (by omega) (by omega)]

/-- The selection of all users. -/
def Query.users : Query := .ofTable "public" "users"

/-- Three rows. -/
def Session.threeRows : List Row := [[("id", .int 1)], [("id", .int 2)], [("id", .int 3)]]

/-- The second and the third user, in one page and in two. -/
theorem range_selects_of_users :
    (Query.users.record (.range 1 2)).error = none ∧
    (∃ t, compile {} (Query.users.record (.range 1 2)) = .ok t ∧
      t.text = "SELECT * FROM \"public\".\"users\" LIMIT 2 OFFSET 1" ∧
      Session.paged t.text t.values Session.threeRows =
        [[("id", .int 2)], [("id", .int 3)]]) ∧
    ∃ front back, Session.page {} Query.users 1 1 Session.threeRows = .ok front ∧
      Session.page {} Query.users 2 2 Session.threeRows = .ok back ∧
      Session.page {} Query.users 1 2 Session.threeRows = .ok (front ++ back) := by
  have hlast : isSigned 64 2 := by decide
  obtain ⟨-, haccepted, hpages⟩ := @range_selects 1 2 hlast Query.users
  refine ⟨rfl, ?_, hpages rfl {} _ rfl 1 (by decide) _⟩
  obtain ⟨offset, limit, -, -, -, -, -, hstated⟩ := haccepted (by decide)
  have hpaged := ((hstated [] (List.forall_mem_nil _)).2.2 {} _ rfl).2 Session.threeRows
  exact ⟨_, rfl, by decide +kernel, hpaged⟩

/-- A range with every index is accepted, and its limit is no number of 64 bits with a sign. -/
theorem limit_of_longest_range :
    isSigned 64 0 ∧ isSigned 64 9223372036854775807 ∧
    (Query.users.record (.range 0 9223372036854775807)).error = none ∧
    ∃ t, compile {} (Query.users.record (.range 0 9223372036854775807)) = .ok t ∧
      t.text = "SELECT * FROM \"public\".\"users\" LIMIT 9223372036854775808 OFFSET 0" ∧
      signedMax 64 < 9223372036854775808 := by
  refine ⟨by decide, by decide, rfl, _, rfl, ?_, by decide⟩
  decide +kernel

end QueryClient
