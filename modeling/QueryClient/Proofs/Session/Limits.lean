/-
  Limits that statements are sent under.

  If the settings limit the time of statements, the limit is set on a connection before a statement
  of a query is sent on it, in a transaction or not.  It is set to the whole milliseconds of the
  settings.  A limit below one millisecond is set to zero, which is none.

  * `Timely`: requests in an order in which the limit comes before the statements of queries;
  * `Call.Answering.timely` and `Transacted.timely`: calls and transactions keep this order;
  * `LimitsTo`: the same of a chronicle;
  * `timeout_set`: what the limit is set to, and when;
  * `unlimited_of_short_timeout`: a limit that is accepted, and set to zero.
-/
import QueryClient.Proofs.Session.Restored

namespace QueryClient.Session

open Run

variable {σ α : Type} {limit : Duration} {inside : Bool} {front front' rs rs' : List Request}
  {r : Request}

/-! ## The order of requests -/

/-- The request that limits the time of the statements on a connection, up to the end of the
transaction if there is one. -/
def timeSetting (limit : Duration) (inside : Bool) (conn : ℕ) : Request :=
  .statement .query conn limitStatement [.text (toString limit.millis ++ "ms"), .bool inside]

/-- What a request may be after others. -/
inductive Timed (limit : Duration) (inside : Bool) (front : List Request) : Request → Prop
  | acquire : Timed limit inside front .acquire
  | cancel {conn} : Timed limit inside front (.cancel conn)
  | setting {conn} : Timed limit inside front (timeSetting limit inside conn)
  /-- The statements that begin and end transactions are not limited. -/
  | batch {conn sql values} : sql ≠ limitStatement →
    Timed limit inside front (.statement .batch conn sql values)
  | limited {kind conn sql values} : sql ≠ limitStatement →
    timeSetting limit inside conn ∈ front →
    Timed limit inside front (.statement kind conn sql values)

/-- Requests that may follow each other after others. -/
def Timely (limit : Duration) (inside : Bool) : List Request → List Request → Prop
  | _, [] => True
  | front, r :: rs => Timed limit inside front r ∧ Timely limit inside (front ++ [r]) rs

theorem Timed.mono (h : Timed limit inside front r) (hsub : front ⊆ front') :
    Timed limit inside front' r := by
  cases h with
  | acquire => exact .acquire
  | cancel => exact .cancel
  | setting => exact .setting
  | batch hsql => exact .batch hsql
  | limited hsql hmem => exact .limited hsql (hsub hmem)

namespace Timely

theorem nil : Timely limit inside front [] := trivial

theorem single (h : Timed limit inside front r) : Timely limit inside front [r] := ⟨h, trivial⟩

theorem mono (h : Timely limit inside front rs) (hsub : front ⊆ front') :
    Timely limit inside front' rs := by
  induction rs generalizing front front' with
  | nil => exact nil
  | cons r rs ih =>
    exact ⟨h.1.mono hsub, ih h.2 (List.append_subset.2
      ⟨List.subset_append_of_subset_left _ hsub, List.subset_append_right _ _⟩)⟩

theorem append (h : Timely limit inside front rs) (h' : Timely limit inside (front ++ rs) rs') :
    Timely limit inside front (rs ++ rs') := by
  induction rs generalizing front with
  | nil => rwa [List.append_nil] at h'
  | cons r rs ih => exact ⟨h.1, ih h.2 (by rwa [List.append_assoc])⟩

/-- What may be requested after nothing may be requested after anything. -/
theorem append_of_nil (h : Timely limit inside front rs) (h' : Timely limit inside [] rs') :
    Timely limit inside front (rs ++ rs') :=
  h.append (h'.mono (List.nil_subset _))

theorem timed {xs ys : List Request} (h : Timely limit inside front (xs ++ r :: ys)) :
    Timed limit inside (front ++ xs) r := by
  induction xs generalizing front with
  | nil => exact h.1.mono (List.subset_append_left _ _)
  | cons x xs ih => rw [List.append_cons]; exact ih h.2

end Timely

/-! ## The requests of calls -/

/-- The requests among some deeds, without those that cleanups make. -/
def requestsOf (ds : List Deed) : List Request :=
  (ds.filterMap Deed.inquiry?).map Inquiry.request

variable {c : Client} {q : Query} {statement : Statement} {conn m m' : ℕ} {abort : Option ℕ}
  {ds ds' : List Deed}

@[simp] theorem requestsOf_append : requestsOf (ds ++ ds') = requestsOf ds ++ requestsOf ds' := by
  simp [requestsOf]

theorem timely_asked (a : Answer Yield) (h : Timed limit inside front r) :
    Timely limit inside front (requestsOf [.asked m r a]) := by
  cases hstep : r.isStep <;> simp only [requestsOf, List.filterMap_cons, Deed.inquiry?, hstep]
  · exact .single h
  · exact .nil

theorem Raced.timely {o : Except Halt (Option (Except Error Yield))}
    (h : Raced abort (fun a ds => ds = [.asked m r a]) m o ds m')
    (hr : Timed limit inside front r) : Timely limit inside front (requestsOf ds) := by
  obtain ⟨-, rfl | ⟨a, rfl⟩⟩ := h.asked_once
  · exact .nil
  · exact timely_asked a hr

theorem Cleaning.requests {steps : List CleanupStep} {o : Except Halt Unit}
    (h : Cleaning conn steps m o ds m') : requestsOf ds = [] := by
  rw [requestsOf, h.inquiries, List.map_nil]

theorem Exchange.timely {o : Except Halt Yield} (h : Exchange conn abort r m o ds m')
    (hr : Timed limit inside front r) : Timely limit inside front (requestsOf ds) := by
  cases h with
  | answered hraced | givenUp hraced => exact hraced.timely hr
  | stopped hraced hcleaning | halted hraced hcleaning =>
    rw [requestsOf_append, hcleaning.requests, List.append_nil]
    exact hraced.timely hr

/-! ### Leases -/

namespace Lease

variable {l : Lease}

theorem requests_letsGo : requestsOf (l.letsGo m) = [] := by
  rw [requestsOf, l.inquiries_letsGo, List.map_nil]

theorem requests_discards : requestsOf (l.discards m) = [] := by
  rw [discards, requestsOf_append, requests_letsGo]
  split <;> rfl

theorem Releasing.requests {interrupted : Bool} {o : Except Halt Unit}
    (h : l.Releasing interrupted m o ds m') : requestsOf ds = [] := by
  cases h with
  | past hcleaning => rw [requestsOf_append, hcleaning.requests, requests_letsGo, List.nil_append]
  | givenUp hcleaning =>
    rw [requestsOf_append, hcleaning.requests, requests_discards, List.nil_append]

/-- A lease that ends asks for nothing more than what is done under it. -/
theorem Using.requests {B : Account α} {o : Except Halt α} (h : l.Using B o ds m') :
    ∃ o ds₁ m₁, B o ds₁ m₁ ∧ requestsOf ds = requestsOf ds₁ := by
  cases h with
  | halted _ hB =>
    refine ⟨_, _, _, hB, ?_⟩
    rw [requestsOf_append, requests_discards, List.append_nil]
  | released hB hreleasing | givenUp hB hreleasing =>
    refine ⟨_, _, _, hB, ?_⟩
    rw [requestsOf_append, hreleasing.requests, List.append_nil]

end Lease

/-! ### Queries -/

theorem Connecting.timely {o : Except Halt ℕ} (h : Connecting c abort m o ds m') :
    Timely limit inside front (requestsOf ds) := by
  cases h with
  | shared _ _ | refusedShared _ _ _ => exact .nil
  | acquired _ hraced =>
    rw [requestsOf_append]
    exact (hraced.timely .acquire).append .nil
  | refused _ hraced | stopped _ hraced | givenUp _ hraced => exact hraced.timely .acquire

/-- The statement of a query may be sent where the limit is set. -/
theorem timed_request (h : ∃ i, Piece.name i ∈ statement.pieces) (kind : StatementKind)
    (hset : timeSetting limit inside conn ∈ front) :
    Timed limit inside front (statement.request kind conn) :=
  .limited (statement.text_ne h (by decide)) hset

theorem Counting.timely {mode : CountMode} {o : Except Halt (Option ℤ)}
    (h : Counting c conn q abort mode m o ds m') (hset : timeSetting limit inside conn ∈ front) :
    Timely limit inside front (requestsOf ds) := by
  cases h with
  | uncompiled _ => exact .nil
  | counted hs h | failed hs h | givenUp hs _ h =>
    exact h.timely (timed_request (counted_of_compileCount hs).exists_name _ hset)

theorem Running.timely {o : Except Halt Outcome}
    (hs : Statement.compile c.config.safety q = .ok statement)
    (h : Running c conn q statement abort m o ds m')
    (hset : timeSetting limit inside conn ∈ front) :
    Timely limit inside front (requestsOf ds) := by
  have hstatement : Timed limit inside front
      (statement.request (Client.statementKind q) conn) :=
    timed_request (compiled_of_compile hs).exists_name _ hset
  cases h with
  | unanswered h | misfit h _ | fitted h _ _ => exact h.timely hstatement
  | counted h _ _ _ hcounting =>
    rw [requestsOf_append]
    exact (h.timely hstatement).append (hcounting.timely (List.mem_append_left _ hset))

section
variable (hlimit : c.config.safety.statementTimeout = some limit)
include hlimit

theorem Limiting.requests {o : Except Halt Unit} (h : Limiting c conn m o ds m') :
    requestsOf ds = [timeSetting limit c.inTransaction conn] := by
  cases h with
  | unlimited hnone =>
    rw [hnone] at hlimit
    cases hlimit
  | answered hlimit' _ | givenUp hlimit' _ _ _ =>
    rw [hlimit] at hlimit'
    cases hlimit'
    rfl

theorem Working.timely {o : Except Halt Outcome}
    (hs : Statement.compile c.config.safety q = .ok statement)
    (h : Working c conn q statement abort m o ds m') :
    Timely limit c.inTransaction [] (requestsOf ds) := by
  cases h with
  | unlimited h =>
    rw [h.requests hlimit]
    exact .single .setting
  | limited h hrunning =>
    rw [requestsOf_append, h.requests hlimit]
    exact (Timely.single .setting).append (hrunning.timely hs List.mem_cons_self)

theorem Attempting.timely {o : Except Halt Outcome}
    (hs : Statement.compile c.config.safety q = .ok statement)
    (h : Attempting c q statement abort m o ds m') :
    Timely limit c.inTransaction [] (requestsOf ds) := by
  cases h with
  | unconnected h => exact h.timely
  | connected h husing =>
    obtain ⟨o, ds₁, m₁, hworking, he⟩ := husing.requests
    rw [requestsOf_append, he]
    exact h.timely.append_of_nil (hworking.timely hlimit hs)

/-- One attempt after the other limits the time of its statements. -/
theorem Retrying.timely {left number : ℕ} {o : Except Halt Outcome}
    (hs : Statement.compile c.config.safety q = .ok statement)
    (h : Retrying c q statement abort left number m o ds m') :
    Timely limit c.inTransaction [] (requestsOf ds) := by
  induction h with
  | last h | done h _ | undelayed h _ _ => exact h.timely hlimit hs
  | again h _ _ _ ih =>
    rw [requestsOf_append]
    exact (h.timely hlimit hs).append_of_nil ih

theorem Executing.timely {o : Except Halt (Response Json)}
    (h : Executing c q abort m o ds m') : Timely limit c.inTransaction [] (requestsOf ds) := by
  cases h with
  | late _ _ | uncompiled _ _ => exact .nil
  | tried _ hs h | givenUp _ hs _ h => exact h.timely hlimit hs

theorem Opening.timely {o : Except Halt (List (Answer Row))}
    (hs : Statement.compile c.config.safety q = .ok statement)
    (h : Opening c conn statement abort m o ds m') :
    Timely limit c.inTransaction [] (requestsOf ds) := by
  cases h with
  | unlimited h =>
    rw [h.requests hlimit]
    exact .single .setting
  | limited h hexchange =>
    rw [requestsOf_append, h.requests hlimit]
    exact (Timely.single .setting).append (hexchange.timely
      (timed_request (compiled_of_compile hs).exists_name _ List.mem_cons_self))

theorem Streaming.timely {o : Except Halt RowStream}
    (hs : Statement.compile c.config.safety q = .ok statement)
    (h : Streaming c statement abort m o ds m') :
    Timely limit c.inTransaction [] (requestsOf ds) := by
  cases h with
  | unconnected h => exact h.timely
  | opened h hopening =>
    rw [requestsOf_append]
    exact h.timely.append_of_nil (hopening.timely hlimit hs)
  | refused h hopening hreleasing | givenUp h hopening hreleasing =>
    rw [requestsOf_append, requestsOf_append, hreleasing.requests, List.append_nil]
    exact h.timely.append_of_nil (hopening.timely hlimit hs)
  | halted h hopening _ =>
    rw [requestsOf_append, requestsOf_append, Lease.requests_discards, List.append_nil]
    exact h.timely.append_of_nil (hopening.timely hlimit hs)

theorem Selecting.timely {o : Except Halt RowStream} (h : Selecting c q abort m o ds m') :
    Timely limit c.inTransaction [] (requestsOf ds) := by
  cases h with
  | refused => exact .nil
  | compiled _ hs h => exact h.timely hlimit hs

end

/-! ### Streams that are open -/

namespace RowStream

variable {s s' : RowStream}

theorem requests_finishes {interrupted : Bool} : requestsOf (s.finishes interrupted m) = [] :=
  Lease.requests_discards

theorem requests_drops : requestsOf (s.drops m) = [] := by
  unfold drops
  split
  · rfl
  · exact requests_finishes

theorem Polling.requests {item : Item} (h : s.Polling m item s' ds) : requestsOf ds = [] := by
  cases h with
  | past _ | row _ _ _ _ _ | pending _ _ _ _ => rfl
  | aborted _ _ _ | exhausted _ _ _ | failed _ _ _ _ _ => exact requests_finishes

theorem Awaiting.requests {o : Except Halt (Item × RowStream)} (h : s.Awaiting m o ds m') :
    requestsOf ds = [] := by
  cases h with
  | polled h | waited _ _ h => exact h.requests
  | givenUp _ _ _ => rfl

theorem Closing.requests {o : Except Halt Unit} (h : s.Closing m o ds m') :
    requestsOf ds = [] := by
  cases h with
  | past _ => rfl
  | closed _ h => exact h.requests

end RowStream

/-! ### All calls -/

/-- A call that does nothing, or goes on with a stream, requests nothing. -/
theorem Call.Answering.timely_of_quiet (h : requestsOf ds = []) :
    Timely limit inside [] (requestsOf ds) := by
  rw [h]
  exact .nil

/-- **A call limits the time of its statements** before it sends them. -/
theorem Call.Answering.timely {call : Call σ} {streams : List RowStream}
    {o : Except Halt (Reply × List RowStream)}
    (hlimit : c.config.safety.statementTimeout = some limit)
    (h : call.Answering c streams m o ds m') :
    Timely limit c.inTransaction [] (requestsOf ds) := by
  cases call with
  | execute q abort patience =>
    obtain ⟨o', hpatient, -⟩ := h
    cases hpatient with
    | ended h | givenUp h | halted h => exact h.timely hlimit
  | stream q abort patience =>
    obtain ⟨o', hpatient, -⟩ := h
    cases hpatient with
    | ended htried => cases htried with | ended h => exact h.timely hlimit
    | givenUp htried | halted htried => cases htried with | halted _ h => exact h.timely hlimit
  | next i patience =>
    cases h with
    | absent _ => exact .nil
    | present _ h =>
      obtain ⟨o', hawaiting, -⟩ := h
      exact timely_of_quiet hawaiting.requests
  | closeStream i patience =>
    cases h with
    | absent _ => exact .nil
    | present _ h =>
      obtain ⟨o', hpatient, -⟩ := h
      cases hpatient with
      | ended h | givenUp h | halted h => exact timely_of_quiet h.requests
  | dropStream i =>
    cases h with
    | absent _ => exact .nil
    | present _ h =>
      obtain ⟨-, rfl, -⟩ := h
      exact timely_of_quiet RowStream.requests_drops
  | close =>
    obtain ⟨-, rfl, -⟩ := h
    refine timely_of_quiet ?_
    cases hin : c.inTransaction <;> simp [Client.closes, hin, requestsOf, Deed.inquiry?]
  | abortStream | transact =>
    obtain ⟨-, rfl, -⟩ := h
    exact .nil
  | wait time =>
    obtain ⟨o', hwaits, -⟩ := h
    cases hwaits <;> exact .nil

/-! ### Transactions -/

theorem Timely.of_prefix (h : Timely limit inside front rs) (hrs : rs' <+: rs) :
    Timely limit inside front rs' := by
  obtain ⟨rest, rfl⟩ := hrs
  induction rs' generalizing front with
  | nil => exact .nil
  | cons r rs' ih => exact ⟨h.1, ih h.2⟩

theorem timely_of_forall (h : ∀ r ∈ rs, ∀ front, Timed limit inside front r) :
    Timely limit inside front rs := by
  induction rs generalizing front with
  | nil => exact .nil
  | cons r rs ih =>
    obtain ⟨hr, hrest⟩ := List.forall_mem_cons.1 h
    exact ⟨hr front, ih hrest⟩

theorem timely_countScript (hset : timeSetting limit inside conn ∈ front) :
    Timely limit inside front (c.countScript conn q) := by
  unfold Client.countScript
  split
  · exact .nil
  split
  · exact .nil
  split
  · exact .nil
  · next hs => exact .single (timed_request (counted_of_compileCount hs).exists_name _ hset)

section
variable (hlimit : c.config.safety.statementTimeout = some limit)
include hlimit

theorem limitScript_eq : c.limitScript conn = [timeSetting limit true conn] := by
  rw [Client.limitScript, hlimit]
  rfl

theorem timely_executeScript : Timely limit true [] (c.executeScript conn q) := by
  unfold Client.executeScript
  split
  · exact .nil
  · next hs =>
    rw [limitScript_eq hlimit]
    exact ⟨.setting, timed_request (compiled_of_compile hs).exists_name _ List.mem_cons_self,
      timely_countScript (by simp)⟩

theorem timely_streamScript : Timely limit true [] (c.streamScript conn q) := by
  unfold Client.streamScript
  split
  · next hs =>
    rw [limitScript_eq hlimit]
    exact ⟨.setting, timed_request (compiled_of_compile hs).exists_name _ List.mem_cons_self, .nil⟩
  · exact .nil

/-- **The statements of a call** in a transaction come after the limit. -/
theorem Call.timely_script (call : Call σ) : Timely limit true [] (call.script c conn) := by
  cases call with
  | execute q abort patience => exact timely_executeScript hlimit
  | stream q abort patience => exact timely_streamScript hlimit
  | _ => exact .nil

theorem Call.timely_of_prefix {call : Call σ} {t : List Happening}
    (ht : t.map Happening.request? <+: (call.script c conn).map some) :
    Timely limit true [] (t.filterMap Happening.request?) := by
  have hprefix := ht.filterMap id
  simp only [List.filterMap_map, Function.id_comp, List.filterMap_some] at hprefix
  exact Timely.of_prefix (call.timely_script hlimit) hprefix

/-- **The work of a transaction** limits the time of its statements, call by call. -/
theorem Work.Performs.timely {work : Work σ α} {o : Except Halt α} {t : List Happening}
    (h : work.Performs c conn o t) : Timely limit true [] (t.filterMap Happening.request?) := by
  induction h with
  | done | fail | panic => exact .nil
  | ask ht _ _ ih =>
    rw [List.filterMap_append]
    exact (Call.timely_of_prefix hlimit ht).append_of_nil ih
  | givenUp ht _ => exact Call.timely_of_prefix hlimit ht

/-- The statements that begin and close a transaction need no limit. -/
theorem Transacts.timely {plan : Except String (Work σ α)} {t : List Happening}
    (h : Transacts c conn plan t) : Timely limit true [] (t.filterMap Happening.request?) := by
  have hbracket : ∀ {sql : String} (front : List Request), sql ∈ brackets →
      Timed limit true front (.statement .batch conn sql []) := by
    intro sql front hsql
    have hlimit : limitStatement ∉ brackets := by decide
    exact .batch fun he => hlimit (he ▸ hsql)
  cases h with
  | idle => exact .single (hbracket [] (by decide))
  | @working _ _ _ v inner ending hperforms hcloses =>
    have hending : ∀ r ∈ ending.filterMap Happening.request?, ∀ front,
        Timed limit true front r := by
      intro r hr front
      obtain ⟨x, hx, hxr⟩ := List.mem_filterMap.1 hr
      obtain ⟨sql, hsql, v, rfl⟩ := hcloses.batches x hx
      cases hxr
      exact hbracket front hsql
    have hinner := hperforms.timely (c := c.inside conn) hlimit
    have hwork : Timely limit true [] ((inner ++ ending).filterMap Happening.request?) := by
      rw [List.filterMap_append]
      exact hinner.append (timely_of_forall hending)
    exact (Timely.single (hbracket [] (by decide))).append_of_nil hwork

end

theorem Request.isStep_eq_false (h : ∀ conn, r.sessionStep? conn = none) : r.isStep = false := by
  have hstep : ∀ {conn} {step : CleanupStep}, (step.request conn).sessionStep? conn ≠ none := by
    intro conn step hnone
    cases step <;> simp [CleanupStep.request, Request.sessionStep?] at hnone
  by_contra hcleanup
  obtain ⟨conn, step, rfl⟩ : ∃ conn, ∃ step : CleanupStep, r = step.request conn := by
    cases r with
    | acquire => exact absurd rfl hcleanup
    | cancel conn => exact ⟨conn, .cancel, rfl⟩
    | statement kind conn sql values =>
      cases kind with
      | batch =>
        obtain ⟨rfl, hvalues⟩ := of_decide_eq_true (Bool.of_not_eq_false hcleanup)
        exact ⟨conn, .reset, by rw [List.isEmpty_iff.1 hvalues]; rfl⟩
      | query | execute | stream => exact absurd rfl hcleanup
  exact hstep (h conn)

/-- What is requested by a deed that is confined to a connection. -/
theorem Deed.ConfinedTo.requests {d : Deed} (h : d.ConfinedTo conn)
    (hd : ∀ x ∈ concerning conn [d], ∃ r v, x = .asked r v ∧ ∀ conn', r.sessionStep? conn' = none) :
    requestsOf [d] = (concerning conn [d]).filterMap Happening.request? := by
  cases d with
  | asked m r a =>
    cases r with
    | acquire => exact h.elim
    | cancel conn' => rfl
    | statement kind conn' sql values =>
      obtain rfl : conn' = conn := h
      rw [concerning_statement] at hd ⊢
      obtain ⟨_, _, he, hnone⟩ := hd _ List.mem_cons_self
      cases he
      simp [requestsOf, Deed.inquiry?, Request.isStep_eq_false hnone, Happening.request?]
  | left => rfl
  | closed | held | letGo => exact h.elim

theorem requestsOf_confined (h : ∀ d ∈ ds, d.ConfinedTo conn)
    (hds : ∀ x ∈ concerning conn ds, ∃ r v, x = .asked r v ∧ ∀ conn', r.sessionStep? conn' = none) :
    requestsOf ds = (concerning conn ds).filterMap Happening.request? := by
  induction ds with
  | nil => rfl
  | cons d ds ih =>
    obtain ⟨hd, hrest⟩ := List.forall_mem_cons.1 h
    rw [← List.singleton_append, concerning_append] at hds ⊢
    rw [requestsOf_append, List.filterMap_append,
      hd.requests fun x hx => hds x (List.mem_append_left _ hx),
      ih hrest fun x hx => hds x (List.mem_append_right _ hx)]

/-- **A transaction** limits the time of the statements of its work. -/
theorem Transacted.timely (hlimit : c.config.safety.statementTimeout = some limit)
    {plan : Except String (Work σ α)} (h : Transacted c plan m ds) :
    Timely limit true [] (requestsOf ds) := by
  cases h with
  | nested _ => exact .nil
  | unacquired h => exact h.timely
  | acquired h hconfined htransacts =>
    rw [requestsOf_append, requestsOf_append,
      requestsOf_confined hconfined htransacts.sessionStep?_eq_none]
    exact h.timely.append_of_nil ((htransacts.timely hlimit).append_of_nil .nil)

/-! ## What the limit is set to -/

/-- In a chronicle the limit is only ever set to the whole milliseconds of `limit`, and it is set on
a connection before the statements of queries are sent on it. -/
def LimitsTo (limit : Duration) (inside : Bool) (entries : List Entry) : Prop :=
  ∀ front m kind conn sql values a back,
    entries = front ++ .asked m (.statement kind conn sql values) a :: back →
    (sql = limitStatement →
      kind = .query ∧ values = [.text (toString limit.millis ++ "ms"), .bool inside]) ∧
    (sql ≠ limitStatement → kind ≠ .batch →
      ∃ m' a', .asked m' (timeSetting limit inside conn) a' ∈ front)

theorem mem_of_mem_inquiries {entries : List Entry} (h : r ∈ (inquiries entries).map (·.request)) :
    ∃ m a, .asked m r a ∈ entries := by
  obtain ⟨i, hi, rfl⟩ := List.mem_map.1 h
  obtain ⟨x, hx, hxi⟩ := List.mem_filterMap.1 hi
  cases x with
  | noted _ _ => cases hxi
  | asked m r a =>
    obtain ⟨-, he⟩ := Option.ite_none_left_eq_some.1 hxi
    cases he
    exact ⟨m, a, hx⟩

theorem limitsTo_of_timely {entries : List Entry}
    (h : Timely limit inside [] ((inquiries entries).map (·.request))) :
    LimitsTo limit inside entries := by
  rintro front m kind conn sql values a back rfl
  cases hstep : (Request.statement kind conn sql values).isStep with
  | true =>
    -- a cleanup restores the session by a statement without values
    cases kind with
    | batch =>
      obtain ⟨hsql, -⟩ := of_decide_eq_true hstep
      exact ⟨fun he => absurd (hsql.symm.trans he) (by decide), fun _ hkind => absurd rfl hkind⟩
    | query | execute | stream => cases hstep
  | false =>
    have hfirst : inquiries (.asked m (.statement kind conn sql values) a :: back) =
        ⟨m, .statement kind conn sql values, a⟩ :: inquiries back :=
      List.filterMap_cons_some (if_neg (Bool.eq_false_iff.1 hstep))
    rw [inquiries_append, List.map_append, hfirst, List.map_cons] at h
    cases h.timed with
    | setting => exact ⟨fun _ => ⟨rfl, rfl⟩, fun hsql => absurd rfl hsql⟩
    | batch hsql => exact ⟨fun he => absurd he hsql, fun _ hkind => absurd rfl hkind⟩
    | limited hsql hset => exact ⟨fun he => absurd he hsql, fun _ _ => mem_of_mem_inquiries hset⟩

theorem Run.Acts.limitsTo {env : Env σ} {run : Run σ α} {s : State σ}
    (h : Acts env s.now run fun _ ds _ => Timely limit inside [] (requestsOf ds)) :
    ∃ entries, LimitsTo limit inside entries ∧
      Chronicles env.source s entries (run.exec env s).2 := by
  obtain ⟨ds, entries, hpassage, htimely⟩ := h.passes s rfl
  refine ⟨entries, limitsTo_of_timely ?_, hpassage.chronicles⟩
  rw [hpassage.inquiries]
  exact htimely

/-- **What the time of statements is limited to**, by a call outside of a transaction or in one, and
by a transaction with all of its calls: the whole milliseconds of the settings.  That is some time
exactly if the settings say a millisecond or more. -/
theorem timeout_set (hlimit : c.config.safety.statementTimeout = some limit) (source : Source σ)
    (deadlines : List ℕ) (s : State σ) :
    (∀ (call : Call σ) (streams : List RowStream), (call.isTransaction → c.inTransaction) →
      ∃ entries, LimitsTo limit c.inTransaction entries ∧
        Chronicles source s entries ((call.answer c streams).exec ⟨source, deadlines⟩ s).2) ∧
    (∀ plan : Except String (Work σ α), ∃ entries, LimitsTo limit true entries ∧
      Chronicles source s entries
        ((c.transact (Work.callback plan)).exec ⟨source, deadlines⟩ s).2) ∧
    (0 < limit.millis ↔ 1000000 ≤ limit.nanos) := by
  refine ⟨fun call streams hcall => ?_, fun plan => ?_, ?_⟩
  · have hanswer : Acts ⟨source, deadlines⟩ s.now (call.answer c streams) _ :=
      Call.acts_answer hcall
    exact (hanswer.mono fun _ _ _ h => h.timely hlimit).limitsTo
  · have htransact : Acts ⟨source, deadlines⟩ s.now (c.transact (Work.callback plan)) _ :=
      Client.acts_transact c plan
    exact (htransact.mono fun _ _ _ h => h.timely hlimit).limitsTo
  · exact Nat.div_pos_iff.trans (and_iff_right (by decide))

/-- What the time of statements is limited to, where an event does that. -/
def Event.limit? : Event → Option String
  | .sent .query _ sql [.text value, .bool _] => if sql = limitStatement then some value else none
  | _ => none

/-- What the time of statements is limited to when all users are selected. -/
def limitsOf (c : Client) : List String :=
  ((c.execute allUsers none).exec ⟨Script.source, []⟩ { source := {} }).2.history.filterMap
    Event.limit?

theorem timeout_set_of_limited : limitsOf limitedClient = ["1500ms"] ∧
    limitedClient.config.safety.statementTimeout = some (.ofMillis 1500) ∧
    (∀ (call : Call Script) (streams : List RowStream),
      (call.isTransaction → limitedClient.inTransaction) →
      ∃ entries, LimitsTo (.ofMillis 1500) false entries ∧
        Chronicles Script.source { source := {} } entries
          ((call.answer limitedClient streams).exec ⟨Script.source, []⟩ { source := {} }).2) :=
  ⟨by decide +kernel, rfl, (timeout_set (α := Json) rfl Script.source [] _).1⟩

/-- A limit that is accepted, and below one millisecond, is set to zero. -/
theorem unlimited_of_short_timeout : ∃ c : Client, c.config.validate = .ok () ∧
    (∃ limit, c.config.safety.statementTimeout = some limit ∧ 0 < limit.nanos) ∧
    limitsOf c = ["0ms"] :=
  ⟨{ config := { safety := { statementTimeout := some ⟨999999⟩ } } }, by decide +kernel,
    ⟨⟨999999⟩, rfl, by decide⟩, by decide +kernel⟩

end QueryClient.Session
