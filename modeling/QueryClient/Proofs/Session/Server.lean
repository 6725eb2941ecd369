/-
  Servers that keep the rules of transactions.

  A transaction is active until one of its statements fails; from then on every statement fails,
  and a `COMMIT` is answered as if all were well, but undoes what was done.

  * `Follows source conn view`: by what `view` tells of it, the source keeps these rules on a
    connection; `Server.follows_source` gives a source that does;
  * `Stands`: where the transaction stands in the course of its work; one thing that happens
    preserves it (`Follows.stands_step`), and so does all of the work (`Follows.stands`);
  * `committed_iff_unfailed`: if a transaction gives a response without an error, then what succeeded
    in it was committed exactly if it had not failed when the `COMMIT` was sent, or if nothing
    succeeded.
-/
import QueryClient.Proofs.Session.Bracket

namespace QueryClient.Session

open Run State

variable {σ α : Type}

/-! ## The rules -/

/-- The state of a transaction. -/
inductive Phase where
  | idle
  /-- With the statements that have succeeded so far. -/
  | active (done : List Request)
  /-- A statement has failed. -/
  | failed

/-- What a server knows of a connection: the statements that were committed on it, and the state of
its transaction. -/
structure Server where
  committed : List Request := []
  phase : Phase := .idle

namespace Request

/-- Whether a request has to do with a connection. -/
def isOn (conn : ℕ) : Request → Bool
  | .acquire => false
  | .statement _ c _ _ | .cancel c => c = conn

/-- Whether a request is a statement on a connection that is not one of those without values, and
neither begins nor closes a transaction. -/
def isPlain (conn : ℕ) : Request → Bool
  | .statement kind c sql _ => c = conn ∧ kind ≠ .batch ∧ sql ∉ brackets
  | _ => false

/-- A statement that begins or closes a transaction. -/
abbrev bracket (conn : ℕ) (sql : String) : Request := .statement .batch conn sql []

end Request

/-- The rules of transactions on a connection, as far as a `view` tells. -/
structure Follows (source : Source σ) (conn : ℕ) (view : σ → Server) : Prop where
  elsewhere {r v st st'} : source.ask r st = (v, st') → r.isOn conn = false → view st' = view st
  begins {st st'} : source.ask (.bracket conn "BEGIN") st = (.ok (), st') →
    (view st).phase = .idle → view st' = ⟨(view st).committed, .active []⟩
  succeeds {r st st' done} : source.ask r st = (.ok (), st') → r.isPlain conn →
    (view st).phase = .active done → view st' = ⟨(view st).committed, .active (done ++ [r])⟩
  fails {r e st st' done} : source.ask r st = (.error e, st') → r.isPlain conn →
    (view st).phase = .active done → view st' = ⟨(view st).committed, .failed⟩
  /-- Every statement fails in a transaction that has failed. -/
  refuses {r v st st'} : source.ask r st = (v, st') → r.isPlain conn → (view st).phase = .failed →
    (∃ e, v = .error e) ∧ view st' = view st
  commits {st st' done} : source.ask (.bracket conn "COMMIT") st = (.ok (), st') →
    (view st).phase = .active done → view st' = ⟨(view st).committed ++ done, .idle⟩
  /-- The `COMMIT` of a transaction that has failed undoes it, and is no failure. -/
  undoes {v st st'} : source.ask (.bracket conn "COMMIT") st = (v, st') →
    (view st).phase = .failed → v = .ok () ∧ view st' = ⟨(view st).committed, .idle⟩
  /-- The statement that the server is asked to stop may fail of it. -/
  cancels {v st st'} : source.ask (.cancel conn) st = (v, st') → view st' = view st ∨
    (view st).phase ≠ .idle ∧ view st' = ⟨(view st).committed, .failed⟩

/-! ## A server -/

namespace Server

/-- The error of a statement that fails. -/
def refusal : Error := ⟨.query "the statement failed" none, []⟩

/-- What a server answers to a statement, which fails if it is among the `bad` ones. -/
def answer (bad : String → Bool) (r : Request) (sql : String) (srv : Server) : Verdict × Server :=
  match srv.phase with
  | .idle =>
    if sql = "BEGIN" then (.ok (), { srv with phase := .active [] })
    else if sql ∈ brackets then (.ok (), srv)
    else if bad sql then (.error refusal, srv)
    else (.ok (), { srv with committed := srv.committed ++ [r] })
  | .active done =>
    if sql = "COMMIT" then (.ok (), ⟨srv.committed ++ done, .idle⟩)
    else if sql = "ROLLBACK" then (.ok (), { srv with phase := .idle })
    else if sql = "BEGIN" then (.ok (), srv)
    else if bad sql then (.error refusal, { srv with phase := .failed })
    else (.ok (), { srv with phase := .active (done ++ [r]) })
  | .failed =>
    if sql = "COMMIT" ∨ sql = "ROLLBACK" then (.ok (), { srv with phase := .idle })
    else (.error refusal, srv)

/-- Answers a statement at once; what is asked on other connections is done elsewhere. -/
def serve (conn : ℕ) (bad : String → Bool) (value : α) (kind : StatementKind) (c : ℕ)
    (sql : String) (values : List Value) (srv : Server) : Answer α × Server :=
  if c = conn then
    (answer bad (.statement kind c sql values) sql srv).map
      (fun v => .now (v.map fun _ => value)) id
  else (.now (.ok value), srv)

/-- A source with a server behind a connection.  No statement has rows. -/
def source (conn : ℕ) (bad : String → Bool) : Source Server where
  acquire srv := (.now (.ok ()), srv)
  query := serve conn bad [] .query
  execute := serve conn bad 1 .execute
  stream := serve conn bad [] .stream
  batch c sql := serve conn bad () .batch c sql []
  cancel _ srv := (.now (.ok ()), srv)
  close := id

variable {conn : ℕ} {bad : String → Bool} {kind : StatementKind} {sql : String}
  {values : List Value}

theorem ask_source (hvalues : kind = .batch → values = []) (srv : Server) :
    (source conn bad).ask (.statement kind conn sql values) srv =
      answer bad (.statement kind conn sql values) sql srv := by
  cases kind with
  | batch =>
    obtain rfl := hvalues rfl
    simp only [Source.ask, source, serve, if_pos]
    rcases answer bad _ sql srv with ⟨_ | _, _⟩ <;> rfl
  | query | execute | stream =>
    simp only [Source.ask, source, serve, if_pos]
    rcases answer bad _ sql srv with ⟨_ | _, _⟩ <;> rfl

/-- What is asked elsewhere does not reach the server. -/
theorem ask_source_elsewhere {r : Request} (h : r.isOn conn = false) (srv : Server) :
    ((source conn bad).ask r srv).2 = srv := by
  cases r with
  | acquire | cancel => rfl
  | statement kind c sql values =>
    have hne : c ≠ conn := of_decide_eq_false h
    cases kind <;> simp [Source.ask, source, serve, hne]

variable (bad) in
theorem exists_answer {r : Request} (h : r.isPlain conn) (srv : Server) :
    ∃ sql ∉ brackets, (source conn bad).ask r srv = answer bad r sql srv := by
  cases r with
  | acquire | cancel => cases h
  | statement kind c sql values =>
    obtain ⟨rfl, hkind, hsql⟩ := of_decide_eq_true h
    exact ⟨sql, hsql, ask_source (fun he => absurd he hkind) srv⟩

theorem answer_active {past done : List Request} {r : Request} (h : sql ∉ brackets) :
    answer bad r sql ⟨past, .active done⟩ =
      if bad sql then (.error refusal, ⟨past, .failed⟩)
      else (.ok (), ⟨past, .active (done ++ [r])⟩) := by
  simp only [brackets, List.mem_cons, List.not_mem_nil, or_false, not_or] at h
  simp [answer, h]

theorem answer_failed {past : List Request} {r : Request} (h : sql ∉ brackets) :
    answer bad r sql ⟨past, .failed⟩ = (.error refusal, ⟨past, .failed⟩) := by
  simp only [brackets, List.mem_cons, List.not_mem_nil, or_false, not_or] at h
  simp [answer, h]

/-- What a plain statement makes of a transaction. -/
theorem eq_of_ask_active {r : Request} {past done : List Request} {v : Verdict} {srv : Server}
    (hask : (source conn bad).ask r ⟨past, .active done⟩ = (v, srv)) (hplain : r.isPlain conn) :
    srv = ⟨past, if v.isOk then .active (done ++ [r]) else .failed⟩ := by
  obtain ⟨sql, hsql, he⟩ := exists_answer bad hplain ⟨past, .active done⟩
  rw [he, answer_active hsql] at hask
  split at hask <;> cases hask <;> rfl

/-- **The server keeps the rules.** -/
theorem follows_source (conn : ℕ) (bad : String → Bool) : Follows (source conn bad) conn id where
  elsewhere {r v srv _} hask hon := by
    have hsame : ((source conn bad).ask r srv).2 = srv := ask_source_elsewhere hon srv
    rwa [hask] at hsame
  begins {srv _} hask hidle := by
    obtain ⟨past, phase⟩ := srv
    obtain rfl : phase = .idle := hidle
    rw [ask_source fun _ => rfl] at hask
    cases hask
    rfl
  succeeds {r srv _ _} hask hplain hactive := by
    obtain ⟨past, phase⟩ := srv
    obtain rfl : phase = .active _ := hactive
    exact eq_of_ask_active hask hplain
  fails {r e srv _ _} hask hplain hactive := by
    obtain ⟨past, phase⟩ := srv
    obtain rfl : phase = .active _ := hactive
    exact eq_of_ask_active hask hplain
  refuses {r v srv _} hask hplain hfailed := by
    obtain ⟨past, phase⟩ := srv
    obtain rfl : phase = .failed := hfailed
    obtain ⟨sql, hsql, he⟩ := exists_answer bad hplain ⟨past, .failed⟩
    rw [he, answer_failed hsql] at hask
    cases hask
    exact ⟨⟨_, rfl⟩, rfl⟩
  commits {srv _ _} hask hactive := by
    obtain ⟨past, phase⟩ := srv
    obtain rfl : phase = .active _ := hactive
    rw [ask_source fun _ => rfl] at hask
    cases hask
    rfl
  undoes {v srv _} hask hfailed := by
    obtain ⟨past, phase⟩ := srv
    obtain rfl : phase = .failed := hfailed
    rw [ask_source fun _ => rfl] at hask
    cases hask
    exact ⟨rfl, rfl⟩
  cancels hask := by
    cases hask
    exact Or.inl rfl

end Server

/-! ## Where a transaction stands -/

namespace Happening

/-- Whether a statement on a connection failed. -/
def isFailure (conn : ℕ) : Happening → Bool
  | .asked (.statement _ c _ _) (.error _) => c = conn
  | _ => false

/-- Whether the server was asked to stop a statement on a connection. -/
def isCancel (conn : ℕ) : Happening → Bool
  | .asked (.cancel c) _ => c = conn
  | _ => false

/-- Whether a statement was sent on a connection. -/
def isStatement (conn : ℕ) : Happening → Bool
  | .asked (.statement _ c _ _) _ => c = conn
  | _ => false

/-- The statement that succeeded on a connection, unless it begins or closes a transaction. -/
def success? (conn : ℕ) : Happening → Option Request
  | .asked r (.ok _) => if r.isPlain conn then some r else none
  | _ => none

/-- If it is a statement on a connection, then a plain one. -/
def Minor (conn : ℕ) (x : Happening) : Prop :=
  ∀ kind sql values v, x = .asked (.statement kind conn sql values) v →
    (Request.statement kind conn sql values).isPlain conn

end Happening

/-- The statements that succeeded on a connection, without those that begin and close a
transaction. -/
def successes (conn : ℕ) (trace : List Happening) : List Request :=
  trace.filterMap (·.success? conn)

/-- Where a transaction stands after a trace: it is active, and no statement has failed; or it has
failed, and so did a statement unless the server was asked to stop one. -/
inductive Stands (conn : ℕ) (past : List Request) (trace : List Happening) : Server → Prop
  | active : (∀ x ∈ trace, x.isFailure conn = false) →
    Stands conn past trace ⟨past, .active (successes conn trace)⟩
  | failed {x} : x ∈ trace → x.isFailure conn ∨ x.isCancel conn →
    Stands conn past trace ⟨past, .failed⟩

variable {source : Source σ} {conn : ℕ} {view : σ → Server} {past : List Request}
  {trace more : List Happening} {st st' : σ} {srv : Server}

namespace Happening

theorem success?_of_isStatement {x : Happening} (h : x.isStatement conn = false) :
    x.success? conn = none := by
  rcases x with ⟨_ | ⟨kind, c, sql, values⟩ | _, _ | _⟩ | e
  case asked.statement.ok =>
    have hne : c ≠ conn := of_decide_eq_false h
    simp [success?, Request.isPlain, hne]
  all_goals rfl

theorem isFailure_of_isStatement {x : Happening} (h : x.isStatement conn = false) :
    x.isFailure conn = false := by
  rcases x with ⟨_ | ⟨kind, c, sql, values⟩ | _, _ | _⟩ | e
  case asked.statement.error => exact h
  all_goals rfl

end Happening

/-- Without statements there is neither success nor failure. -/
theorem Stands.silent (h : Stands conn past trace srv) {x : Happening}
    (hx : x.isStatement conn = false) : Stands conn past (trace ++ [x]) srv := by
  cases h with
  | active hnone =>
    have hsame : successes conn (trace ++ [x]) = successes conn trace := by
      simp [successes, Happening.success?_of_isStatement hx]
    rw [← hsame]
    refine .active fun y hy => ?_
    rcases List.mem_append.1 hy with hy | hy
    · exact hnone y hy
    · rw [List.mem_singleton.1 hy]
      exact Happening.isFailure_of_isStatement hx
  | failed hmem hcause => exact .failed (List.mem_append_left _ hmem) hcause

/-- A transaction that is begun is active, and nothing has been done in it. -/
theorem stands_begun (hnone : ∀ x ∈ trace, x.isStatement conn = false) :
    Stands conn past (trace ++ [.batch conn "BEGIN" (.ok ())]) ⟨past, .active []⟩ := by
  have hbegin : (Happening.batch conn "BEGIN" (.ok ())).success? conn = none := by
    simp [Happening.success?, Request.isPlain, brackets]
  have hnothing : successes conn (trace ++ [.batch conn "BEGIN" (.ok ())]) = [] := by
    refine List.filterMap_eq_nil_iff.2 fun x hx => ?_
    rcases List.mem_append.1 hx with hx | hx
    · exact Happening.success?_of_isStatement (hnone x hx)
    · rw [List.mem_singleton.1 hx]
      exact hbegin
  rw [← hnothing]
  refine .active fun x hx => ?_
  rcases List.mem_append.1 hx with hx | hx
  · exact Happening.isFailure_of_isStatement (hnone x hx)
  · rw [List.mem_singleton.1 hx]
    rfl

/-- A transaction fails of a statement that does, or of a request to stop one. -/
theorem Stands.fail (trace : List Happening) {x : Happening}
    (h : x.isFailure conn ∨ x.isCancel conn) :
    Stands conn past (trace ++ [x]) ⟨past, .failed⟩ :=
  .failed (List.mem_append_right _ List.mem_cons_self) h

theorem Stands.committed (h : Stands conn past trace srv) : srv.committed = past := by
  cases h <;> rfl

theorem Request.isOn_of_isPlain {r : Request} (h : r.isPlain conn) : r.isOn conn := by
  cases r with
  | statement kind c sql values =>
    simp only [isPlain, Bool.decide_and, Bool.and_eq_true] at h
    exact h.1
  | acquire | cancel => cases h

theorem Happening.isFailure_of_isPlain {r : Request} (h : r.isPlain conn) (e : Error) :
    (asked r (.error e)).isFailure conn := by
  have hon := Request.isOn_of_isPlain h
  cases r with
  | statement kind c sql values => exact hon
  | acquire | cancel => cases h

theorem Happening.isStatement_of_isOn {r : Request} (h : r.isOn conn = false) (v : Verdict) :
    (asked r v).isStatement conn = false := by
  cases r with
  | statement kind c sql values => exact h
  | acquire | cancel => rfl

namespace Follows

variable (hrules : Follows source conn view)
include hrules

/-- A plain statement is done in a transaction that is active, fails it, or is refused. -/
theorem stands_plain {r : Request} {v : Verdict} (hask : source.ask r st = (v, st'))
    (hplain : r.isPlain conn) (h : Stands conn past trace (view st)) :
    Stands conn past (trace ++ [.asked r v]) (view st') := by
  generalize hview : view st = srv at h
  cases h with
  | active hnone =>
    cases v with
    | ok _ =>
      rw [hrules.succeeds hask hplain (by rw [hview]), hview]
      have hdone : successes conn (trace ++ [.asked r (.ok ())]) = successes conn trace ++ [r] := by
        simp [successes, Happening.success?, hplain]
      rw [← hdone]
      refine .active fun x hx => ?_
      rcases List.mem_append.1 hx with hx | hx
      · exact hnone x hx
      · rw [List.mem_singleton.1 hx]
        cases r <;> rfl
    | error e =>
      rw [hrules.fails hask hplain (by rw [hview]), hview]
      exact .fail trace (Or.inl (Happening.isFailure_of_isPlain hplain e))
  | failed hmem hx =>
    rw [(hrules.refuses hask hplain (by rw [hview])).2, hview]
    exact .failed (List.mem_append_left _ hmem) hx

/-- **One thing that happens** in the course of the work. -/
theorem stands_step {x : Happening} (hminor : x.Minor conn) (hleads : Leads source st [x] st')
    (h : Stands conn past trace (view st)) : Stands conn past (trace ++ [x]) (view st') := by
  cases hleads with
  | noted hnil =>
    cases hnil
    exact h.silent rfl
  | @asked _ _ r v _ hnil hv =>
    cases hnil
    have hask : source.ask r st = (v, (source.ask r st).2) := Prod.ext hv rfl
    cases hon : r.isOn conn with
    | false =>
      rw [hrules.elsewhere hask hon]
      exact h.silent (Happening.isStatement_of_isOn hon v)
    | true =>
      cases r with
      | acquire => cases hon
      | statement kind c sql values =>
        obtain rfl : c = conn := of_decide_eq_true hon
        exact hrules.stands_plain hask (hminor _ _ _ _ rfl) h
      | cancel c =>
        obtain rfl : c = conn := of_decide_eq_true hon
        rcases hrules.cancels hask with hsame | ⟨-, hfailed⟩
        · rw [hsame]
          exact h.silent rfl
        · rw [hfailed, h.committed]
          exact .fail trace (Or.inr hon)

/-- **The work of a transaction**, thing by thing. -/
theorem stands (hminor : ∀ x ∈ more, x.Minor conn) (hleads : Leads source st more st')
    (h : Stands conn past trace (view st)) : Stands conn past (trace ++ more) (view st') := by
  induction more generalizing trace st with
  | nil =>
    cases hleads
    rwa [List.append_nil]
  | cons x rest ih =>
    obtain ⟨mid, hfirst, hrest⟩ := leads_append_iff.1 (List.singleton_append ▸ hleads)
    rw [List.append_cons]
    exact ih (fun y hy => hminor y (List.mem_cons_of_mem _ hy)) hrest
      (hrules.stands_step (hminor x List.mem_cons_self) hfirst h)

/-- Without statements there is no transaction. -/
theorem idle (hnone : ∀ x ∈ trace, x.isStatement conn = false) (hleads : Leads source st trace st')
    (h : (view st).phase = .idle) : view st' = view st := by
  induction hleads with
  | nil => rfl
  | noted _ ih => exact ih (fun x hx => hnone x (List.mem_cons_of_mem _ hx)) h
  | @asked st _ r v _ _ hv ih =>
    have hask : source.ask r st = (v, (source.ask r st).2) := Prod.ext hv rfl
    have hstep : view (source.ask r st).2 = view st := by
      cases hon : r.isOn conn with
      | false => exact hrules.elsewhere hask hon
      | true =>
        cases r with
        | acquire => cases hon
        | statement kind c sql values =>
          cases hon.symm.trans (hnone _ List.mem_cons_self)
        | cancel c =>
          obtain rfl : c = conn := of_decide_eq_true hon
          exact (hrules.cancels hask).resolve_right fun hfailed => hfailed.1 h
    rw [← hstep]
    exact ih (fun x hx => hnone x (List.mem_cons_of_mem _ hx)) (hstep ▸ h)

/-- A `COMMIT` that succeeds ends the transaction: it commits what was done in one that is active,
and nothing of one that has failed. -/
theorem closes {back : List Happening} (hnone : ∀ x ∈ back, x.isStatement conn = false)
    (hleads : Leads source st (.batch conn "COMMIT" (.ok ()) :: back) st')
    (h : Stands conn past trace (view st)) :
    ((view st').committed = past ++ successes conn trace ∧
      (view st).phase = .active (successes conn trace) ∧ ∀ x ∈ trace, x.isFailure conn = false) ∨
    ((view st').committed = past ∧ (view st).phase = .failed ∧
      ∃ x ∈ trace, x.isFailure conn ∨ x.isCancel conn) := by
  cases hleads with | asked hback hv =>
  have hcommit : source.ask (.bracket conn "COMMIT") st =
      (.ok (), (source.ask (.bracket conn "COMMIT") st).2) := Prod.ext hv rfl
  generalize hview : view st = srv at h
  cases h with
  | active hfailure =>
    have hclosed := hrules.commits hcommit (by rw [hview])
    refine Or.inl ⟨?_, rfl, hfailure⟩
    rw [hrules.idle hnone hback (by rw [hclosed]), hclosed, hview]
  | @failed x hmem hcause =>
    have hclosed := (hrules.undoes hcommit (by rw [hview])).2
    refine Or.inr ⟨?_, rfl, x, hmem, hcause⟩
    rw [hrules.idle hnone hback (by rw [hclosed]), hclosed, hview]

end Follows

/-! ## Committed transactions -/

theorem Happening.isStatement_of_concerns {x : Happening} (h : ¬ x.concerns conn) :
    x.isStatement conn = false := by
  rcases x with ⟨_ | _ | _, v⟩ | e
  · rfl
  · simpa [concerns, isStatement] using h
  · rfl
  · rfl

/-- A trace with a transaction that was committed, from its parts. -/
theorem exists_parts {inner tail : List Happening} (htail : Released conn tail)
    (h : trace.filter (·.concerns conn) = .asked .acquire (.ok ()) ::
      (.batch conn "BEGIN" (.ok ()) :: (inner ++ [.batch conn "COMMIT" (.ok ())]) ++ tail)) :
    ∃ before mid back, trace = before ++ .batch conn "BEGIN" (.ok ()) :: mid ++
        .batch conn "COMMIT" (.ok ()) :: back ∧
      (∀ x ∈ before, x.isStatement conn = false) ∧ mid.filter (·.concerns conn) = inner ∧
      ∀ x ∈ back, x.isStatement conn = false := by
  obtain ⟨early, rest, rfl, hearly, -, hrest⟩ := List.filter_eq_cons_iff.1 h
  rw [List.cons_append] at hrest
  obtain ⟨late, rest', rfl, hlate, -, hrest'⟩ := List.filter_eq_cons_iff.1 hrest
  rw [List.append_assoc] at hrest'
  obtain ⟨mid, rest'', rfl, hmid, hrest''⟩ := List.filter_eq_append_iff.1 hrest'
  rw [List.singleton_append] at hrest''
  obtain ⟨idle, back, rfl, hidle, -, hback⟩ := List.filter_eq_cons_iff.1 hrest''
  refine ⟨early ++ .asked .acquire (.ok ()) :: late, mid ++ idle, back, by simp, ?_, ?_, ?_⟩
  · intro x hx
    simp only [List.mem_append, List.mem_cons] at hx
    rcases hx with hx | rfl | hx
    · exact Happening.isStatement_of_concerns (hearly x hx)
    · rfl
    · exact Happening.isStatement_of_concerns (hlate x hx)
  · rw [List.filter_append, hmid, List.filter_eq_nil_iff.2 hidle, List.append_nil]
  · intro x hx
    by_cases hconcerns : x.concerns conn
    · have hmem : x ∈ tail := hback ▸ List.mem_filter.2 ⟨hx, hconcerns⟩
      rcases htail with rfl | rfl
      · cases hmem
      · rw [List.mem_singleton.1 hmem]
        rfl
    · exact Happening.isStatement_of_concerns hconcerns

section
variable {env : Env σ} {c : Client} {s s' : State σ} {plan : Except String (Work σ α)}
  {r : Response α}

/-- A response without an error is due to a `COMMIT` that succeeded. -/
theorem exists_commit (hc : c.transaction = none) (hs : s.Sound)
    (h : (c.transact (Work.callback plan)).exec env s = (.ok r, s')) (hr : r.error = none) :
    ∃ before mid back, Observed env.source s
        (before ++ .batch (s.connections + 1) "BEGIN" (.ok ()) :: mid ++
          .batch (s.connections + 1) "COMMIT" (.ok ()) :: back) s' ∧
      (∀ x ∈ before, x.isStatement (s.connections + 1) = false) ∧
      (∀ x ∈ mid, x.Minor (s.connections + 1)) ∧
      ∀ x ∈ back, x.isStatement (s.connections + 1) = false := by
  obtain ⟨trace, hobs, hcourse⟩ := Client.course_of_transact hc env hs plan
  rw [h] at hobs hcourse
  generalize ht : trace.filter (·.concerns (s.connections + 1)) = t at hcourse
  cases hcourse with
  | unacquired _ _ => cases hr
  | acquired _ hbegins hreleased =>
    cases hbegins with
    | unbegun _ _ => cases hr
    | closed _ _ _ _ hperforms hcloses =>
      rcases hcloses with hcompletes | ⟨_, he, _⟩
      · cases hcompletes with
        | committed =>
          obtain ⟨before, mid, back, rfl, hbefore, hmid, hback⟩ := exists_parts hreleased ht
          refine ⟨before, mid, back, hobs, hbefore, ?_, hback⟩
          rintro x hx kind sql values v rfl
          have hconcerns : Happening.asked (.statement kind (s.connections + 1) sql values) v ∈
              mid.filter (·.concerns (s.connections + 1)) :=
            List.mem_filter.2 ⟨hx, by simp [Happening.concerns]⟩
          rw [hmid] at hconcerns
          obtain ⟨r', v', he, hscoped⟩ := hperforms.asks _ hconcerns
          cases he
          simpa [Request.isPlain] using And.intro hscoped.2.1 hscoped.2.2.1
        | uncommitted | failed => cases hr
      · cases he

/-- **A response without an error** comes of a `COMMIT` that succeeded.  What had succeeded by then
is committed exactly if the transaction had not failed, or if nothing had succeeded: it has failed
if a statement has, and only if one has or the server was asked to stop one. -/
theorem committed_iff_unfailed (hc : c.transaction = none) (hs : s.Sound)
    (hrules : Follows env.source (s.connections + 1) view)
    (hidle : (view s.source).phase = .idle)
    (h : (c.transact (Work.callback plan)).exec env s = (.ok r, s')) (hr : r.error = none) :
    ∃ front back st, Leads env.source s.source front st ∧
      Observed env.source s (front ++ .batch (s.connections + 1) "COMMIT" (.ok ()) :: back) s' ∧
      ((view s'.source).committed =
          (view s.source).committed ++ successes (s.connections + 1) front ↔
        (view st).phase ≠ .failed ∨ successes (s.connections + 1) front = []) ∧
      ((∃ x ∈ front, x.isFailure (s.connections + 1)) → (view st).phase = .failed) ∧
      ((view st).phase = .failed → ∃ x ∈ front, x.isFailure (s.connections + 1) ∨
        x.isCancel (s.connections + 1)) := by
  obtain ⟨before, mid, back, hobs, hbefore, hmid, hback⟩ := exists_commit hc hs h hr
  obtain ⟨st, hfront, hclosing⟩ := leads_append_iff.1 hobs.leads
  refine ⟨before ++ .batch (s.connections + 1) "BEGIN" (.ok ()) :: mid, back, st, hfront, hobs, ?_⟩
  obtain ⟨st₀, hquiet, hbegun⟩ := leads_append_iff.1 hfront
  cases hbegun with | asked hwork hv =>
  have hview : view st₀ = view s.source := hrules.idle hbefore hquiet hidle
  have hactive := hrules.begins (Prod.ext hv rfl) (hview ▸ hidle)
  have hstands := hrules.stands hmid hwork (hactive ▸ stands_begun hbefore)
  rw [List.append_assoc, List.singleton_append, hview] at hstands
  rcases hrules.closes hback hclosing hstands with ⟨hcommitted, hphase, hnone⟩ |
    ⟨hcommitted, hphase, x, hx, hcause⟩
  · refine ⟨iff_of_true hcommitted (Or.inl (by simp [hphase])), ?_, fun hfailed => ?_⟩
    · rintro ⟨x, hx, hfailure⟩
      cases hfailure.symm.trans (hnone x hx)
    · cases hphase.symm.trans hfailed
  · exact ⟨by simp [hcommitted, hphase], fun _ => hphase, fun _ => ⟨x, hx, hcause⟩⟩

end

/-- Whether a call was answered without an error. -/
def Reply.succeeded : Reply → Bool
  | .response r => r.error.isNone
  | _ => false

/-- Two deletions as the work of a transaction, which goes on whatever comes of them; its value says
which of them succeeded. -/
def careless : Work σ (Bool × Bool) :=
  let delete (table : String) : Call σ :=
    .execute { schema := "public", table, operation := .delete } none none
  .ask (delete "users") fun r => .ask (delete "orders") fun r' => .done (r.succeeded, r'.succeeded)

/-- What comes of the deletions if those of `bad` fail, and the state they leave. -/
def neglect (bad : String → Bool) : Except Halt (Response (Bool × Bool)) × State Server :=
  (Client.transact {} (Work.callback (.ok careless))).exec ⟨Server.source 1 bad, []⟩
    { source := {} }

theorem committed_iff_unfailed_of_deletions :
    ∃ front back st, Leads (Server.source 1 fun _ => false) {} front st ∧
      Observed (Server.source 1 fun _ => false) { source := {} }
        (front ++ .batch 1 "COMMIT" (.ok ()) :: back) (neglect fun _ => false).2 ∧
      ((neglect fun _ => false).2.source.committed = [] ++ successes 1 front ↔
        st.phase ≠ .failed ∨ successes 1 front = []) ∧
      ((∃ x ∈ front, x.isFailure 1) → st.phase = .failed) ∧
      (st.phase = .failed → ∃ x ∈ front, x.isFailure 1 ∨ x.isCancel 1) := by
  have hsound : State.Sound ({ source := {} } : State Server) := fun _ hc => nomatch hc
  have hresponse : (neglect fun _ => false).1 = .ok (.ok (some (true, true)) none) := rfl
  have hneglect : (Client.transact {} (Work.callback (.ok careless))).exec
      ⟨Server.source 1 fun _ => false, []⟩ { source := {} } =
        (.ok (.ok (some (true, true)) none), (neglect fun _ => false).2) :=
    hresponse ▸ (Prod.eta (neglect fun _ => false)).symm
  have houtside : Client.transaction {} = none := rfl
  have hunfailed := committed_iff_unfailed houtside hsound (Server.follows_source 1 fun _ => false)
    rfl hneglect rfl
  -- Without the view, so that nothing is left to be computed.
  simp only [id_eq] at hunfailed
  exact hunfailed

/-- The statement that deletes all orders. -/
def isOrders (sql : String) : Bool := sql = "DELETE FROM \"public\".\"orders\""

/-- The server keeps the rules, one deletion succeeds and the other fails; the response has no
error, and nothing is committed. -/
theorem success_without_commit :
    Follows (Server.source 1 isOrders) 1 id ∧
      (neglect isOrders).1 = .ok (.ok (some (true, false)) none) ∧
      (neglect isOrders).2.source.committed = [] :=
  ⟨Server.follows_source 1 isOrders, rfl, rfl⟩

end QueryClient.Session
