/-
  Calls that are answered.

  The caller neither aborts nor gives up, and every request is answered after some time.

  * `Inquired`: some deeds are some requests, which are answered by the end;
  * `Working.inquired`: what is done on a connection, and what it comes to by the answers;
  * `Answers`: every request is answered, and a statement by some rows;
  * `Client.selected_rows`: a query that reads is then answered by the rows of its statement, fitted
    to its shape, however long the answers take and whatever the other statements of the call come
    to.
-/
import QueryClient.Proofs.Session.Abort
import QueryClient.Proofs.Session.Termination
import QueryClient.Proofs.Session.Requests

namespace QueryClient.Session

open Run

/-! ## Requests and their answers -/

section
variable {c : Client} {q : Query} {statement : Statement} {conn m m' : ℕ} {ds : List Deed}
  {r : Request}

/-- The requests that count the rows of a query: there is one at most. -/
inductive Recounts (c : Client) (q : Query) (conn : ℕ) : List Inquiry → Prop
  | none : Recounts c q conn []
  | once {mode statement i} : q.count = some mode →
    Statement.compileCount c.config.safety q mode = .ok statement →
    i.request = statement.request .query conn → Recounts c q conn [i]

/-- Requests that are answered by some moment. -/
def Inquired (ds : List Deed) (m' : ℕ) (is : List Inquiry) : Prop :=
  ds.filterMap Deed.inquiry? = is ∧ ∀ i ∈ is, i.AnsweredBy m'

theorem Inquired.append {ds' : List Deed} {is is' : List Inquiry} {m₁ : ℕ}
    (h : Inquired ds m₁ is) (h' : Inquired ds' m' is') (hle : m₁ ≤ m') :
    Inquired (ds ++ ds') m' (is ++ is') := by
  refine ⟨by rw [List.filterMap_append, h.1, h'.1], fun i hi => ?_⟩
  rcases List.mem_append.1 hi with hi | hi
  · obtain ⟨w, hw, hle'⟩ := h.2 i hi
    exact ⟨w, hw, hle'.trans hle⟩
  · exact h'.2 i hi

/-- A statement is answered. -/
theorem Exchange.inquired {o : Except Error Yield} (hr : r.isStep = false)
    (h : Exchange conn none r m (o.mapError .failed) ds m') :
    m ≤ m' ∧ ∃ i, Inquired ds m' [i] ∧ i.request = r ∧ i.answer.result = o := by
  obtain ⟨a, w, rfl, hw, rfl, hresult⟩ := h.unaborted
  have hinquiry : Deed.inquiry? (.asked m r a) = some ⟨m, r, a⟩ := by rw [Deed.inquiry?, hr]; rfl
  refine ⟨Nat.le_add_right _ _, ⟨m, r, a⟩, ⟨List.filterMap_cons_some hinquiry, fun i hi => ?_⟩,
    rfl, hresult⟩
  rw [List.mem_singleton.1 hi]
  exact ⟨w, hw, Nat.le_refl _⟩

/-- The statements of a query are answered. -/
theorem Running.inquired {o : Except Error Outcome}
    (h : Running c conn q statement none m (o.mapError .failed) ds m') :
    m ≤ m' ∧ ∃ i counting, Inquired ds m' (i :: counting) ∧
      i.request = statement.request (Client.statementKind q) conn ∧ Recounts c q conn counting ∧
      Decided c q counting i.answer.result o := by
  generalize ho : o.mapError Halt.failed = o' at h
  cases h with
  | unanswered hexchange =>
    cases o with
    | ok _ => cases ho
    | error e =>
      cases ho
      obtain ⟨hle, i, hi, hrequest, hresult⟩ :=
        Exchange.inquired (o := .error e) isStep_request hexchange
      exact ⟨hle, i, [], hi, hrequest, .none, hresult ▸ .failed⟩
  | @misfit y e _ _ hexchange hdata =>
    obtain rfl : o = .error e := mapError_failed_inj ho
    obtain ⟨hle, i, hi, hrequest, hresult⟩ :=
      Exchange.inquired (o := .ok y) isStep_request hexchange
    exact ⟨hle, i, [], hi, hrequest, .none, hresult ▸ .misfit hdata⟩
  | @fitted y data _ _ hexchange hdata hcount =>
    obtain rfl : o = .ok (data, tallyOf q y) := mapError_failed_inj ho
    obtain ⟨hle, i, hi, hrequest, hresult⟩ :=
      Exchange.inquired (o := .ok y) isStep_request hexchange
    exact ⟨hle, i, [], hi, hrequest, .none, hresult ▸ .fitted hdata (.known hcount)⟩
  | @counted y data mode _ _ n _ _ hexchange hdata hcount hmutation hcounting =>
    obtain ⟨hle, i, hi, hrequest, hresult⟩ :=
      Exchange.inquired (o := .ok y) isStep_request hexchange
    cases hcounting with
    | uncompiled _ =>
      obtain rfl : o = .ok (data, none) := mapError_failed_inj ho
      rw [List.append_nil]
      exact ⟨hle, i, [], hi, hrequest, .none, hresult ▸ .fitted hdata (.lost hcount hmutation)⟩
    | @counted _ rows _ _ hs hexchange' =>
      obtain rfl : o = .ok (data, rows.head?.bind mode.read) := mapError_failed_inj ho
      obtain ⟨hle', j, hj, hrequest', hresult'⟩ :=
        Exchange.inquired (o := .ok (.rows rows)) rfl hexchange'
      have htallied : Tallied c q y [j] (rows.head?.bind mode.read) :=
        .counted hcount hmutation hs List.mem_cons_self hrequest' hresult'
      exact ⟨hle.trans hle', i, [j], hi.append hj hle', hrequest, .once hcount hs hrequest',
        hresult ▸ .fitted hdata htallied⟩
    | @failed _ e _ _ hs hexchange' =>
      obtain rfl : o = .ok (data, none) := mapError_failed_inj ho
      obtain ⟨hle', j, hj, hrequest', -⟩ := Exchange.inquired (o := .error e) rfl hexchange'
      exact ⟨hle.trans hle', i, [j], hi.append hj hle', hrequest, .once hcount hs hrequest',
        hresult ▸ .fitted hdata (.lost hcount hmutation)⟩
    | givenUp _ hfailed _ =>
      cases o with
      | ok _ => cases ho
      | error e =>
        cases ho
        exact absurd rfl (hfailed e)

theorem Limiting.inquired (h : Limiting c conn m (.ok ()) ds m') :
    m ≤ m' ∧ ∃ limits, Inquired ds m' limits ∧ limits.map Inquiry.request =
      (c.config.safety.statementTimeout.map (c.timeLimit conn)).toList := by
  cases h with
  | unlimited hnone => exact ⟨Nat.le_refl _, [], ⟨rfl, List.forall_mem_nil _⟩, by rw [hnone]; rfl⟩
  | @answered limit a w hlimit hw =>
    refine ⟨Nat.le_add_right _ _, [⟨m, c.timeLimit conn limit, a⟩],
      ⟨List.filterMap_cons_some (inquiry?_timeLimit limit a), fun i hi => ?_⟩, by rw [hlimit]; rfl⟩
    rw [List.mem_singleton.1 hi]
    exact ⟨w, hw, Nat.le_refl _⟩

/-- What is done on a connection is answered. -/
theorem Working.inquired {o : Except Error Outcome}
    (h : Working c conn q statement none m (o.mapError .failed) ds m') :
    m ≤ m' ∧ ∃ limits i counting, Inquired ds m' (limits ++ i :: counting) ∧
      limits.map Inquiry.request =
        (c.config.safety.statementTimeout.map (c.timeLimit conn)).toList ∧
      i.request = statement.request (Client.statementKind q) conn ∧ Recounts c q conn counting ∧
      Decided c q counting i.answer.result o := by
  obtain ⟨ds₁, m₁, ds₂, rfl, hlimiting, hrunning⟩ := h.of_ended
  obtain ⟨hle, limits, hlimits, hrequests⟩ := hlimiting.inquired
  obtain ⟨hle', i, counting, hinquired, hdecided⟩ := hrunning.inquired
  exact ⟨hle.trans hle', limits, i, counting, hlimits.append hinquired hle', hrequests, hdecided⟩

end

/-! ## Sources that answer -/

/-- Every request is answered after some time, a connection is handed out, and the statement has
some rows. -/
structure Answers {σ : Type} (source : Source σ) (statement : Statement) (rows : List Row) :
    Prop where
  acquire : ∀ st, (source.acquire st).1.wait.isSome ∧ (source.acquire st).1.result = .ok ()
  query : ∀ conn sql values st, (source.query conn sql values st).1.wait.isSome
  batch : ∀ conn sql st, (source.batch conn sql st).1.wait.isSome
  rows : ∀ conn st,
    (source.query conn statement.text statement.values st).1.result = .ok rows

section
variable {σ : Type} {source : Source σ} {c : Client} {q : Query} {statement : Statement}
  {rows : List Row} {m m' : ℕ} {o : Except Error Outcome} {ds : List Deed}

/-- The answers among some deeds are those of the source. -/
def AnsweredFrom (source : Source σ) (ds : List Deed) : Prop :=
  ∀ {m r a}, .asked m r a ∈ ds → ∃ st, a = (source.respond r st).1

theorem Passage.answeredFrom {s s' : State σ} {entries : List Entry}
    (h : Passage source s ds entries s') : AnsweredFrom source ds := by
  intro m r a hmem
  obtain ⟨front, back, rfl⟩ := List.append_of_mem hmem
  obtain ⟨s₁, _, _, _, _, _, hmoves, _⟩ := h.split
  cases hmoves with | asks => exact ⟨s₁.source, rfl⟩

theorem statementKind_of_isQuery (hq : q.operation.isQuery) :
    Client.statementKind q = .query := by
  simp [Client.statementKind, Operation.isMutation, hq]

namespace Answers

/-- What a call asks for that executes a query that reads is answered after some time. -/
theorem wait_isSome (h : Answers source statement rows) (hq : q.operation.isQuery) {r : Request}
    (hr : c.MayAsk q statement none r) (st : σ) : (source.respond r st).1.wait.isSome := by
  cases hr with
  | acquire => exact (h.acquire st).1
  | limit | count _ _ => exact h.query _ _ _ st
  | statement =>
    rw [statementKind_of_isQuery hq]
    exact h.query _ _ _ st
  | reset => exact h.batch _ _ st
  | cancel ht => cases ht

/-- An attempt comes to the rows of the statement, fitted to the shape of the query. -/
theorem fits (h : Answers source statement rows) (hq : q.operation.isQuery)
    (hds : AnsweredFrom source ds)
    (hattempting : Attempting c q statement none m (o.mapError .failed) ds m') :
    o.map Prod.fst = q.shape.fit rows := by
  generalize ho : o.mapError Halt.failed = o' at hattempting
  cases hattempting with
  | unconnected hconnecting =>
    cases o with
    | ok _ => cases ho
    | error e =>
      cases ho
      obtain ⟨-, a, _, rfl, -, -, hresult⟩ := hconnecting.unaborted_error
      obtain ⟨st, rfl⟩ := hds List.mem_cons_self
      have hconnects : (source.respond .acquire st).1.result = .ok .done :=
        congrArg (Except.map fun _ => Yield.done) (h.acquire st).2
      cases hresult.symm.trans hconnects
  | @connected conn _ _ _ _ _ _ husing =>
    subst ho
    obtain ⟨dsw, _, dsr, rfl, hworking, -⟩ := husing.of_ended
    obtain ⟨-, limits, i, counting, hinquired, -, hrequest, -, hdecided⟩ := hworking.inquired
    obtain ⟨d, hd, hi⟩ : ∃ d ∈ dsw, d.inquiry? = some i :=
      List.mem_filterMap.1 (hinquired.1 ▸ by simp)
    have hasked : .asked i.moment i.request i.answer ∈ dsw := Deed.eq_of_inquiry? hi ▸ hd
    obtain ⟨st, ha⟩ := hds (List.mem_append_right _ (List.mem_append_left _ hasked))
    have hrows : i.answer.result = .ok (.rows rows) := by
      rw [ha, hrequest, statementKind_of_isQuery hq]
      exact congrArg (Except.map Yield.rows) (h.rows conn st)
    exact (hrows ▸ hdecided).data

/-- The first attempt is the only one. -/
theorem fits_retrying (h : Answers source statement rows) (hq : q.operation.isQuery)
    (hds : AnsweredFrom source ds) {left number : ℕ}
    (hretrying : Retrying c q statement none left number m (o.mapError .failed) ds m') :
    o.map Prod.fst = q.shape.fit rows := by
  have hpermanent : ∀ {e ds m'}, AnsweredFrom source ds →
      Attempting c q statement none m (.error (.failed e)) ds m' → e.isRetriable = false :=
    fun hds hattempting => isRetriable_of_fit (h.fits (o := .error _) hq hds hattempting).symm
  generalize ho : o.mapError Halt.failed = o' at hretrying
  cases hretrying with
  | last hattempting | done hattempting _ => exact h.fits hq hds (ho ▸ hattempting)
  | again hattempting hretriable _ _ =>
    have hlast := hpermanent (fun hmem => hds (List.mem_append_left _ hmem)) hattempting
    cases hretriable.symm.trans hlast
  | undelayed hattempting hretriable _ => cases hretriable.symm.trans (hpermanent hds hattempting)

end Answers

theorem toExcept_responseOf : (responseOf o).toExcept = o.map Prod.fst := by
  cases o <;> rfl

/-- **A query that reads is answered by the rows of its statement**, fitted to its shape. -/
theorem Client.selected_rows {env : Env σ} (hd : env.deadlines = []) (hq : q.operation.isQuery)
    (hs : Statement.compile c.config.safety q = .ok statement)
    (h : Answers env.source statement rows) (s : State σ) :
    ∃ r, ((c.execute q none).exec env s).1 = .ok r ∧ r.toExcept = q.shape.fit rows := by
  obtain ⟨ds, entries, hpassage, hexecuting, hends⟩ := c.responds_or_waits hd q s
  have hwaits : ¬ Unanswered ds := by
    rintro ⟨m, r, a, hmem, hwait⟩
    obtain ⟨st, rfl⟩ := hpassage.answeredFrom hmem
    have hcomes := h.wait_isSome hq (hexecuting.asksOnly hs _ _ _ hmem) st
    rw [hwait] at hcomes
    cases hcomes
  obtain ⟨r, hr⟩ := hends.resolve_right fun ⟨_, hunanswered⟩ => hwaits hunanswered
  refine ⟨r, hr, ?_⟩
  rw [hr] at hexecuting
  generalize ((c.execute q none).exec env s).2.now = m' at hexecuting
  cases hexecuting with
  | late ht _ => cases ht
  | uncompiled _ he => cases hs.symm.trans he
  | @tried _ _ _ o _ hs' hretrying =>
    obtain rfl : statement = _ := Except.ok.inj (hs.symm.trans hs')
    exact toExcept_responseOf.trans (h.fits_retrying hq hpassage.answeredFrom hretrying)

end

end QueryClient.Session
