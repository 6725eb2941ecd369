/-
  Queries that expect one row.

  A table is asked for the rows that match a query, and gives those that the paging of the
  statement leaves of them.  The statement of a query that expects one row and states no limit
  has the limit one, so that the first row stands for all that match.

  * `paged` reads the paging off the text of a statement;
  * `paged_of_compile`: the implied limit leaves the first row;
  * `single_row_outcome`: the call keeps its promise exactly if at most one row matches.
-/
import QueryClient.Proofs.Session.Answered
import QueryClient.Proofs.Statement.Numbering
import QueryClient.Proofs.Statement.Parts
import QueryClient.Proofs.Statement.Token

namespace QueryClient

/-! ## Paging as a text states it -/

namespace Token

/-- The token behind the first occurrence of a word. -/
def behind (w : Word) : List Token → Option Token
  | [] => none
  | t :: rest => if t = .word w.text.toList then rest.head? else behind w rest

/-- The number that stands for a token: it is written out, or a bound value. -/
def number? (values : List Value) : Token → Option ℕ
  | .integer digits => some (Nat.ofDigitChars 10 digits 0)
  | .parameter digits =>
    match Nat.ofDigitChars 10 digits 0 with
    | 0 => none
    | k + 1 =>
      match values[k]? with
      | some (.int i) => some i.toNat
      | _ => none
  | _ => none

theorem behind_append {w : Word} {xs : List Token} (h : ∀ t ∈ xs, t ≠ .word w.text.toList)
    (ys : List Token) : behind w (xs ++ ys) = behind w ys := by
  induction xs with
  | nil => rfl
  | cons t xs ih =>
    rw [List.cons_append, behind, if_neg (h t List.mem_cons_self),
      ih fun t ht => h t (List.mem_cons_of_mem _ ht)]

end Token

namespace Session

/-- What the limit and the offset of a statement leave of some rows. -/
def paged (sql : String) (values : List Value) (rows : List Row) : List Row :=
  let tokens := (Token.lex sql.toList).getD []
  let rest := match (Token.behind .offset tokens).bind (Token.number? values) with
    | some n => rows.drop n
    | none => rows
  match (Token.behind .limit tokens).bind (Token.number? values) with
  | some n => rest.take n
  | none => rest

end Session

/-! ## The implied limit -/

open Piece

/-- No other word is written like a word of paging. -/
theorem Word.eq_of_text {w : Word} (hw : w.isPaging) {v : Word}
    (h : v.text.toList = w.text.toList) : v = w := by
  unfold isPaging at hw
  split at hw
  · cases v <;> first | rfl | exact absurd h (by decide)
  · cases v <;> first | rfl | exact absurd h (by decide)
  · cases hw

theorem Piece.word_notMem_tokensFrom {w : Word} (hw : w.isPaging)
    {pieces : List Piece} (h : Each (· ≠ word w) pieces) (n : ℕ) :
    ∀ t ∈ tokensFrom n pieces, t ≠ .word w.text.toList := by
  induction pieces generalizing n with
  | nil => simp [tokensFrom]
  | cons p rest ih =>
    obtain ⟨hp, hrest⟩ := each_cons.1 h
    intro t ht htw
    rcases List.mem_append.1 ht with ht | ht
    · rw [Option.mem_toList, htw] at ht
      cases p with
      | word v =>
        have htext : v.text.toList = w.text.toList := by simpa [token?] using ht
        exact hp (congrArg word (Word.eq_of_text hw htext))
      | _ => simp [token?] at ht
    · exact ih hrest _ t ht htw

/-- The words of paging stand at the end of a statement that reads only. -/
theorem Compiled.front {safety : Safety} {q : Query} {pieces : List Piece}
    (h : Compiled safety q pieces) (hread : q.operation.isQuery) :
    ∃ front, pieces = front ++ Statement.paging q ∧
      ∀ w, w.isPaging → Each (· ≠ word w) front := by
  have hfixed : ∀ w, w.isPaging → Fixed (· ≠ word w) := fun w hw =>
    { word := fun v hv h => by
        rw [Piece.word.inj h, hw] at hv
        cases hv
      symbol := fun _ => Piece.noConfusion
      space := Piece.noConfusion
      bind := fun _ => Piece.noConfusion }
  have hname : ∀ w i, name i ≠ word w := fun _ _ => Piece.noConfusion
  have hliteral : ∀ w i, literal i ≠ word w := fun _ _ => Piece.noConfusion
  have hordering : ∀ w, w.isPaging → Each (· ≠ word w) (Statement.ordering q.order) :=
    fun w hw => each_ordering (hfixed w hw) fun t _ => hname w t.column
  cases h with
  | @select text schema table list hop' =>
    refine ⟨_, rfl, fun w hw => ?_⟩
    have hP := hfixed w hw
    have hselect : word .select ≠ word w := hP.word _ rfl
    have hcolumns : Each (· ≠ word w) list.pieces := each_columnList hP fun c _ => hname w c
    have hfrom : Each (· ≠ word w) (clause [.fromWord]) := each_clause hP rfl
    have htarget := each_target hP (hname w schema) (hname w table)
    have hcondition : Each (· ≠ word w) (Filter.condition q.filters) :=
      each_condition hP (fun _ _ c _ => hname w c) fun _ _ i _ => hliteral w i
    simp only [each_append, each_cons]
    exact ⟨⟨⟨⟨⟨hselect, hP.space, hcolumns⟩, hfrom⟩, htarget⟩, hcondition⟩, hordering w hw⟩
  | @rpc text args schema function hop' =>
    refine ⟨_, rfl, fun w hw => ?_⟩
    have hP := hfixed w hw
    have hselect : word .select ≠ word w := hP.word _ rfl
    have hfrom : Each (· ≠ word w) (clause [.fromWord]) := each_clause hP rfl
    have happlication := each_application hP (hname w schema) (hname w function) args
    simp only [each_append, each_cons]
    exact ⟨⟨⟨hselect, hP.space, hP.symbol _, hfrom⟩, happlication⟩, hordering w hw⟩
  | insert hop' | upsert hop' | update hop' | delete hop' =>
    rw [hop'] at hread
    cases hread

section
variable {safety : Safety} {q : Query} {columns : String} {t : Statement}
  (hop : q.operation = .select columns) (hshape : q.shape ≠ .many) (hlimit : q.limit = none)
  (hoffset : q.offset = none) (ht : Statement.compile safety q = .ok t)
include hop hshape hlimit hoffset ht

/-- A query that expects one row and states no limit has a text that ends with a limit, and this
limit is the last bound value, which is one. -/
theorem Statement.lex_of_impliedLimit : ∃ tokens values,
    Token.lex t.text.toList = some (tokens ++ [.word Word.limit.text.toList,
      .parameter (Nat.toDigits 10 (values.length + 1))]) ∧
    t.values = values ++ [.int 1] ∧
    ∀ w : Word, w.isPaging → ∀ token ∈ tokens, token ≠ .word w.text.toList := by
  have hc := compiled_of_compile ht
  have hread : q.operation.isQuery := by rw [hop]; rfl
  obtain ⟨front, hfront, hwords⟩ := hc.front hread
  have hpaging : paging q = clause [.limit] ++ [Piece.bind (.int 1)] := by
    simp [paging, hlimit, hoffset, hshape]
  rw [hpaging] at hfront
  refine ⟨tokensFrom 0 front, boundValues front, ?_, ?_, fun w hw => ?_⟩
  · rw [text, String.toList_ofList, lex_textFrom hc.spaced, hfront, tokensFrom_append]
    simp [tokensFrom, clause, phrase, token?, value?]
  · rw [values, hfront]
    simp
  · exact word_notMem_tokensFrom hw (hwords w hw) 0

/-- The implied limit leaves the first row. -/
theorem Session.paged_of_compile (rows : List Row) :
    paged t.text t.values rows = rows.take 1 := by
  obtain ⟨tokens, values, htokens, hvalues, hwords⟩ :=
    Statement.lex_of_impliedLimit hop hshape hlimit hoffset ht
  obtain ⟨place, hplace⟩ : ∃ place, place =
      Token.parameter (Nat.toDigits 10 (values.length + 1)) := ⟨_, rfl⟩
  have hoff : Token.behind .offset [.word Word.limit.text.toList, place] = none := by
    rw [Token.behind, if_neg (by decide), Token.behind, if_neg (by simp [hplace]), Token.behind]
  have hlim : Token.behind .limit [.word Word.limit.text.toList, place] = some place :=
    if_pos rfl
  have hone : Token.number? t.values place = some 1 := by
    simp [hplace, Token.number?, Nat.ofDigitChars_ten_toDigits, hvalues]
  unfold paged
  rw [htokens, ← hplace]
  dsimp only [Option.getD_some]
  rw [Token.behind_append (hwords .offset rfl), Token.behind_append (hwords .limit rfl), hoff,
    hlim, Option.bind_some, hone]
  rfl

end

/-! ## The promise to a caller who expects one row -/

namespace Session

open Run

/-- What a caller who expects one row is promised about the rows that match: the row, or an
error that says there is none or more than one. -/
def promised (shape : Shape) : List Row → Except ErrorCode (Option Json)
  | [] => if shape = .single then .error .notFound else .ok none
  | [row] => .ok (some (.obj row))
  | _ :: _ :: _ => .error .tooManyRows

/-- The rows that come back are fitted to the shape as is promised about them. -/
theorem fit_promised {shape : Shape} (h : shape ≠ .many) (rows : List Row) :
    (shape.fit rows).mapError Error.code = promised shape rows := by
  cases shape with
  | many => exact absurd rfl h
  | single | maybeSingle =>
    rcases rows with _ | ⟨row, _ | ⟨row', rows⟩⟩ <;> rfl

/-- The first row keeps the promise about all rows only if there is no other one. -/
theorem promised_take_one (shape : Shape) (rows : List Row) :
    promised shape (rows.take 1) = promised shape rows ↔ rows.length ≤ 1 := by
  rcases rows with _ | ⟨row, _ | ⟨row', rows⟩⟩
  · simp
  · simp
  · simp [promised]

variable {σ : Type} {source : Source σ}

/-- The outcome is the one that the first row deserves. -/
theorem first_row_fits {c : Client} {q : Query} {columns : String} {t : Statement}
    {rows : List Row} (hop : q.operation = .select columns) (hshape : q.shape ≠ .many)
    (hlimit : q.limit = none) (hoffset : q.offset = none)
    (ht : Statement.compile c.config.safety q = .ok t)
    (h : Answers source t (paged t.text t.values rows)) (s : State σ) :
    ∃ r, ((c.execute q none).exec ⟨source, []⟩ s).1 = .ok r ∧
      r.toExcept.mapError Error.code = promised q.shape (rows.take 1) := by
  have hread : q.operation.isQuery := by rw [hop]; rfl
  have hd : (⟨source, []⟩ : Env σ).deadlines = [] := rfl
  obtain ⟨r, hr, hfits⟩ := Client.selected_rows hd hread ht h s
  refine ⟨r, hr, ?_⟩
  rw [hfits, paged_of_compile hop hshape hlimit hoffset ht, fit_promised hshape]

/-- **The outcome where one row is expected** is the one that the first row deserves, whatever
else matches: it is as promised if and only if at most one row matches. -/
theorem single_row_outcome {c : Client} {q : Query} {columns : String} {t : Statement}
    {rows : List Row} (hop : q.operation = .select columns) (hshape : q.shape ≠ .many)
    (hlimit : q.limit = none) (hoffset : q.offset = none)
    (ht : Statement.compile c.config.safety q = .ok t)
    (h : Answers source t (paged t.text t.values rows)) (s : State σ) :
    ∃ r, ((c.execute q none).exec ⟨source, []⟩ s).1 = .ok r ∧
      r.toExcept.mapError Error.code = promised q.shape (rows.take 1) ∧
      (r.toExcept.mapError Error.code = promised q.shape rows ↔ rows.length ≤ 1) := by
  obtain ⟨r, hr, hfirst⟩ := first_row_fits hop hshape hlimit hoffset ht h s
  refine ⟨r, hr, hfirst, ?_⟩
  rw [hfirst]
  exact promised_take_one q.shape rows

/-- A table with some rows that match every query. -/
def tableOf (rows : List Row) : Source Unit where
  acquire s := (.now (.ok ()), s)
  query _ sql values s := (.now (.ok (paged sql values rows)), s)
  execute _ _ _ s := (.now (.ok 0), s)
  stream _ sql values s :=
    (.now (.ok ((paged sql values rows).map fun row => .now (.ok row))), s)
  batch _ _ s := (.now (.ok ()), s)
  cancel _ s := (.now (.ok ()), s)
  close s := s

theorem answers_tableOf (rows : List Row) (t : Statement) :
    Answers (tableOf rows) t (paged t.text t.values rows) where
  acquire _ := ⟨rfl, rfl⟩
  query _ _ _ _ := rfl
  batch _ _ _ := rfl
  rows _ _ := rfl

/-- The selection of the only row of a table. -/
def onlyUser : Query := { schema := "public", table := "users", shape := .single }

/-- The outcome of this selection. -/
def selectOnlyUser (rows : List Row) : Except Halt (Response Json) :=
  ((Client.execute {} onlyUser none).exec ⟨tableOf rows, []⟩ { source := () }).1

/-- A table with one row keeps the promise. -/
theorem single_row_outcome_of_one :
    ∃ r, selectOnlyUser [[("id", .int 1)]] = .ok r ∧
      r.toExcept.mapError Error.code = .ok (some (.obj [("id", .int 1)])) := by
  obtain ⟨t, ht⟩ : ∃ t, Statement.compile {} onlyUser = .ok t := ⟨_, rfl⟩
  obtain ⟨r, hr, hfirst, -⟩ := single_row_outcome (c := {}) (q := onlyUser) rfl (by decide) rfl
    rfl ht (answers_tableOf [[("id", .int 1)]] t) { source := () }
  exact ⟨r, hr, hfirst⟩

/-- A table with two rows breaks it: the first one is given as if there were no other. -/
theorem promise_broken_by_two_rows :
    ∃ r, selectOnlyUser [[("id", .int 1)], [("id", .int 2)]] = .ok r ∧
      r.toExcept.mapError Error.code = .ok (some (.obj [("id", .int 1)])) ∧
      promised .single [[("id", .int 1)], [("id", .int 2)]] = .error .tooManyRows := by
  obtain ⟨t, ht⟩ : ∃ t, Statement.compile {} onlyUser = .ok t := ⟨_, rfl⟩
  obtain ⟨r, hr, hfirst⟩ := first_row_fits (c := {}) (q := onlyUser) rfl (by decide) rfl
    rfl ht (answers_tableOf [[("id", .int 1)], [("id", .int 2)]] t) { source := () }
  exact ⟨r, hr, hfirst, rfl⟩

end Session

end QueryClient
