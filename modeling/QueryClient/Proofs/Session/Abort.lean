/-
  Calls whose caller aborts.

  What has come when the caller aborts counts, and nothing is started after that but what restores
  the connection.

  * `Upshot`: which answers decide what comes of a call, if the caller aborts at some moment;
  * `Worked` and `Attempted`: what an attempt comes to, and that it stops when it has to;
  * `aborted_execute`: a call that ends after the caller aborts asks for nothing more, has the
    server stop at most once, and responds as was decided by then.
-/
import QueryClient.Proofs.Session.Attempts
import QueryClient.Proofs.Session.Bracket

namespace QueryClient.Session

open Run

variable {σ α : Type}

/-! ## Answers by a moment -/

namespace Inquiry

/-- The statement of a query is sent. -/
def Sends (q : Query) (statement : Statement) (i : Inquiry) : Prop :=
  ∃ conn, i.request = statement.request (Client.statementKind q) conn

/-- The statement of a query has succeeded by a moment. -/
def SucceededBy (q : Query) (statement : Statement) (t : ℕ) (i : Inquiry) : Prop :=
  i.Sends q statement ∧ i.AnsweredBy t ∧ ∃ y, i.answer.result = .ok y

end Inquiry

/-- Whether a connection is asked for, as every attempt does outside a transaction. -/
def Inquiry.isAcquire (i : Inquiry) : Bool :=
  match i.request with
  | .acquire => true
  | _ => false

/-- The number of attempts that ask for a connection. -/
def attemptsIn (is : List Inquiry) : ℕ := is.countP Inquiry.isAcquire

theorem attemptsIn_append (is js : List Inquiry) :
    attemptsIn (is ++ js) = attemptsIn is + attemptsIn js := List.countP_append

/-- The number of rows that may be given back with data. -/
inductive Tallied (c : Client) (q : Query) (y : Yield) (is : List Inquiry) : Option Int → Prop
  /-- It needs no counting. -/
  | known : q.count = none ∨ q.operation.isMutation → Tallied c q y is (tallyOf q y)
  | lost {mode} : q.count = some mode → q.operation.isMutation = false → Tallied c q y is none
  | counted {mode statement i conn rows} : q.count = some mode →
    q.operation.isMutation = false →
    Statement.compileCount c.config.safety q mode = .ok statement → i ∈ is →
    i.request = statement.request .query conn → i.answer.result = .ok (.rows rows) →
    Tallied c q y is (rows.head?.bind mode.read)

/-- What comes of an attempt whose statement was answered. -/
inductive Decided (c : Client) (q : Query) (is : List Inquiry) :
    Except Error Yield → Except Error Outcome → Prop
  | failed {e} : Decided c q is (.error e) (.error e)
  | misfit {y e} : dataOf q y = .error e → Decided c q is (.ok y) (.error e)
  | fitted {y data n} : dataOf q y = .ok data → Tallied c q y is n →
    Decided c q is (.ok y) (.ok (data, n))

/-- What comes of a call that ends at some moment and makes some requests, where the caller aborts
at a moment `t`: it is aborted, unless there was an answer in time that decides. -/
inductive Upshot (c : Client) (q : Query) (statement : Statement) (t : ℕ) (is : List Inquiry)
    (m' : ℕ) : Except Error Outcome → Prop
  /-- The statement of the query has not succeeded. -/
  | aborted {message} : t ≤ m' → (∀ i ∈ is, ¬ i.SucceededBy q statement t) →
    Upshot c q statement t is m' (.error (.aborted message))
  /-- In the end there was no connection. -/
  | refused {front i e w} : is = front ++ [i] → i.request = .acquire → i.answer.wait = some w →
    i.moment + w = m' → m' ≤ t → i.answer.result = .error e →
    (∀ i ∈ is, ¬ i.SucceededBy q statement t) → Upshot c q statement t is m' (.error e)
  /-- The statement was answered in the last attempt. -/
  | decided {front i back o} : is = front ++ i :: back → i.Sends q statement → i.AnsweredBy t →
    (∀ j ∈ back, j.request ≠ .acquire) → (∀ j ∈ front, ¬ j.SucceededBy q statement t) →
    Decided c q is i.answer.result o → Upshot c q statement t is m' o

/-- How an exchange ends that is not given up, where the caller aborts at a moment `t`. -/
inductive Exchanged (conn t : ℕ) (r : Request) (m : ℕ) :
    Except Error Yield → List Deed → ℕ → Prop
  | answered {a w} : m < t → a.wait = some w → m + w ≤ t →
    Exchanged conn t r m a.result [.asked m r a] (m + w)
  | unasked {a m'} : t ≤ m' →
    Exchanged conn t r m (.error (.aborted "query aborted by caller"))
      [.asked m (.cancel conn) a] m'
  | stopped {a a' m'} : m < t → (∀ w ∈ a.wait, t < m + w) → t ≤ m' →
    Exchanged conn t r m (.error (.aborted "query aborted by caller"))
      [.asked m r a, .asked t (.cancel conn) a'] m'

/-- The server is asked to stop once on a connection, or not at all. -/
def CancelsOnce (conn : ℕ) (ds : List Deed) : Prop :=
  ∃ own : Option ℕ, (own = none ∨ own = some conn ∧ ∃ m a, .asked m (.cancel conn) a ∈ ds) ∧
    ∀ conn', cancelsOf conn' ds = if own = some conn' then 1 else 0

/-- What is done under a lease that ends at some moment, where the caller aborts at a moment `t`, and
only `late` requests are made from then on. -/
structure Worked (c : Client) (q : Query) (statement : Statement) (conn t : ℕ)
    (late : Inquiry → Prop) (o : Except Error Outcome) (ds : List Deed) (m' : ℕ) : Prop where
  asks : ∀ d ∈ ds, ∃ m r a, d = .asked m r a ∧ r ≠ .acquire
  ceases : ∀ i ∈ ds.filterMap Deed.inquiry?, t ≤ i.moment → late i
  cancels : CancelsOnce conn ds
  upshot : Upshot c q statement t (ds.filterMap Deed.inquiry?) m' o
  /-- Where there can be another attempt, nothing was stopped, and the statement did not succeed. -/
  again : ∀ e, o = .error e → e.isRetriable → (∀ conn', cancelsOf conn' ds = 0) ∧
    ∀ i ∈ ds.filterMap Deed.inquiry?, ¬ i.SucceededBy q statement t

section
variable {c : Client} {q : Query} {statement : Statement} {conn t m m' k n : ℕ} {y : Yield}
  {is : List Inquiry} {tally : Option Int} {a : Except Error Yield} {o : Except Error Outcome}
  {ds : List Deed}

theorem Tallied.mono (h : Tallied c q y is tally) {is' : List Inquiry}
    (hsub : ∀ i ∈ is, i ∈ is') : Tallied c q y is' tally := by
  cases h with
  | known hcount => exact .known hcount
  | lost hcount hmutation => exact .lost hcount hmutation
  | counted hcount hmutation hs hi hrequest hresult =>
    exact .counted hcount hmutation hs (hsub _ hi) hrequest hresult

/-- The data is decided by the answer to the statement. -/
theorem Decided.data (h : Decided c q is a o) : o.map Prod.fst = a.bind (dataOf q) := by
  cases h with
  | failed => rfl
  | misfit hdata | fitted hdata _ => exact hdata.symm

theorem Decided.mono (h : Decided c q is a o) {is' : List Inquiry} (hsub : ∀ i ∈ is, i ∈ is') :
    Decided c q is' a o := by
  cases h with
  | failed => exact .failed
  | misfit hdata => exact .misfit hdata
  | fitted hdata htally => exact .fitted hdata (htally.mono hsub)

/-- Earlier requests do not matter, if the statement did not succeed. -/
theorem Upshot.after (h : Upshot c q statement t is m' o) {front : List Inquiry}
    (hfront : ∀ i ∈ front, ¬ i.SucceededBy q statement t) :
    Upshot c q statement t (front ++ is) m' o := by
  cases h with
  | aborted ht hnone =>
    refine .aborted ht fun i hi => ?_
    rcases List.mem_append.1 hi with hi | hi
    · exact hfront i hi
    · exact hnone i hi
  | @refused front' i _ _ his hrequest hw hm hle hresult hnone =>
    have hfront' : front ++ is = front ++ front' ++ [i] := by rw [his, List.append_assoc]
    refine .refused hfront' hrequest hw hm hle hresult fun i hi => ?_
    rcases List.mem_append.1 hi with hi | hi
    · exact hfront i hi
    · exact hnone i hi
  | @decided front' i back _ his hsends hanswered hback hfront' hdecided =>
    have hlast : front ++ is = front ++ front' ++ i :: back := by rw [his, List.append_assoc]
    refine .decided hlast hsends hanswered hback (fun i hi => ?_)
      (hdecided.mono fun i hi => List.mem_append_right _ hi)
    rcases List.mem_append.1 hi with hi | hi
    · exact hfront i hi
    · exact hfront' i hi

/-- Where no connection was asked for, the call may as well end later. -/
theorem Upshot.later (h : Upshot c q statement t is m o) (hle : m ≤ m')
    (hacquire : ∀ i ∈ is, i.request ≠ .acquire) : Upshot c q statement t is m' o := by
  cases h with
  | aborted ht hnone => exact .aborted (ht.trans hle) hnone
  | refused his hrequest _ _ _ _ _ =>
    refine absurd hrequest (hacquire _ ?_)
    rw [his]
    exact List.mem_append_right _ List.mem_cons_self
  | decided his hsends hanswered hback hfront hdecided =>
    exact .decided his hsends hanswered hback hfront hdecided

/-! ## What is asked for -/

theorem isStep_request : (statement.request (Client.statementKind q) conn).isStep = false := by
  unfold Client.statementKind
  split <;> rfl

/-- The request for a connection sends no statement. -/
theorem not_sends_acquire (a : Answer Yield) : ¬ Inquiry.Sends q statement ⟨m, .acquire, a⟩ := by
  rintro ⟨conn, h⟩
  cases h

/-- The limit is no statement of a query. -/
theorem not_sends_timeLimit (hs : Statement.compile c.config.safety q = .ok statement)
    (limit : Duration) (a : Answer Yield) :
    ¬ Inquiry.Sends q statement ⟨m, c.timeLimit conn limit, a⟩ := by
  rintro ⟨conn', h⟩
  obtain ⟨-, -, htext, -⟩ : StatementKind.query = _ ∧ conn = conn' ∧
      limitStatement = statement.text ∧ _ = statement.values := by
    simpa [Client.timeLimit, Statement.request] using h
  exact statement.text_ne (compiled_of_compile hs).exists_name (by decide) htext.symm

@[simp] theorem cancels_cancel (a : Answer Yield) (conn' : ℕ) :
    Deed.cancels conn' (.asked m (.cancel conn) a) = if conn = conn' then 1 else 0 := rfl

/-! ## How an exchange ends -/

theorem Exchange.exchanged {r : Request} {o : Except Error Yield}
    (h : Exchange conn (some t) r m (o.mapError .failed) ds m') :
    Exchanged conn t r m o ds m' := by
  generalize ho : o.mapError Halt.failed = o' at h
  cases h with
  | answered hraced =>
    obtain rfl := mapError_failed_inj ho
    cases hraced with | answered hasks hearly hw =>
    subst hasks
    exact .answered (hearly t rfl).1 hw (hearly t rfl).2
  | stopped hraced hcleaning =>
    obtain rfl : o = .error (.aborted "query aborted by caller") := mapError_failed_inj ho
    cases hcleaning with | answered hw hdone =>
    cases hdone
    cases hraced with
    | late ht hle =>
      cases ht
      exact .unasked (hle.trans (Nat.le_add_right _ _))
    | stopped hasks ht hlt hlonger =>
      cases ht
      subst hasks
      exact .stopped hlt hlonger (Nat.le_add_right _ _)
  | halted _ hcleaning =>
    exact absurd ho (mapError_failed_ne (hcleaning.givenUp_of_error rfl))
  | givenUp hraced =>
    cases hraced with | givenUp _ hgiven =>
    exact absurd ho (mapError_failed_ne hgiven)

namespace Exchanged

variable {r : Request}

theorem asks (h : Exchanged conn t r m a ds m') :
    ∀ d ∈ ds, ∃ m₁ r' b, d = .asked m₁ r' b ∧ (r' = r ∨ r' = .cancel conn) := by
  intro d hd
  cases h with
  | answered _ _ _ =>
    rw [List.mem_singleton.1 hd]
    exact ⟨_, _, _, rfl, Or.inl rfl⟩
  | unasked _ =>
    rw [List.mem_singleton.1 hd]
    exact ⟨_, _, _, rfl, Or.inr rfl⟩
  | stopped _ _ _ =>
    simp only [List.mem_cons, List.not_mem_nil, or_false] at hd
    rcases hd with rfl | rfl
    · exact ⟨_, _, _, rfl, Or.inl rfl⟩
    · exact ⟨_, _, _, rfl, Or.inr rfl⟩

theorem moment_lt (h : Exchanged conn t r m a ds m') :
    ∀ i ∈ ds.filterMap Deed.inquiry?, i.moment < t := by
  intro i hi
  obtain ⟨d, hd, hinquiry⟩ := List.mem_filterMap.1 hi
  obtain rfl := Deed.eq_of_inquiry? hinquiry
  have hcancel : ∀ {m : ℕ} {b : Answer Yield},
      Deed.asked i.moment i.request i.answer ≠ .asked m (.cancel conn) b := by
    intro m b he
    rw [he] at hinquiry
    cases hinquiry
  cases h with
  | answered hlt _ _ =>
    obtain ⟨hmoment, -, -⟩ := Deed.asked.inj (List.mem_singleton.1 hd)
    exact hmoment ▸ hlt
  | unasked _ => exact absurd (List.mem_singleton.1 hd) hcancel
  | stopped hlt _ _ =>
    simp only [List.mem_cons, List.not_mem_nil, or_false] at hd
    rcases hd with hd | hd
    · obtain ⟨hmoment, -, -⟩ := Deed.asked.inj hd
      exact hmoment ▸ hlt
    · exact absurd hd hcancel

theorem cancels (h : Exchanged conn t r m a ds m') (hr : ∀ (m : ℕ) b conn',
    Deed.cancels conn' (.asked m r b) = 0) : CancelsOnce conn ds := by
  cases h with
  | answered _ _ _ => exact ⟨none, Or.inl rfl, fun conn' => by simp [hr]⟩
  | unasked _ =>
    exact ⟨some conn, Or.inr ⟨rfl, _, _, List.mem_cons_self⟩, fun conn' => by simp⟩
  | stopped _ _ _ =>
    exact ⟨some conn, Or.inr ⟨rfl, _, _, List.mem_cons_of_mem _ List.mem_cons_self⟩,
      fun conn' => by simp [hr]⟩

/-- A statement succeeds in time. -/
theorem of_ok (h : Exchanged conn t r m a ds m') (ha : a = .ok y) : ∃ b w,
    ds = [.asked m r b] ∧ m < t ∧ b.wait = some w ∧ m + w ≤ t ∧ m' = m + w ∧ b.result = .ok y := by
  cases h with
  | answered hlt hw hle => exact ⟨_, _, rfl, hlt, hw, hle, rfl, ha⟩
  | unasked _ => cases ha
  | stopped _ _ _ => cases ha

end Exchanged

/-! ## Attempts -/

theorem isRetriable_aborted (message : String) : (Error.aborted message).isRetriable = false := rfl

theorem cancels_request (kind : StatementKind) (conn' : ℕ) (b : Answer Yield) :
    Deed.cancels conn' (.asked m (statement.request kind conn) b) = 0 := rfl

theorem inquiry?_request (b : Answer Yield) :
    Deed.inquiry? (.asked m (statement.request (Client.statementKind q) conn) b) =
      some ⟨m, statement.request (Client.statementKind q) conn, b⟩ := by
  rw [Deed.inquiry?, isStep_request]
  rfl

/-- Where no connection is asked for, no request is one for a connection. -/
theorem request_ne_acquire (h : ∀ d ∈ ds, ∃ m r a, d = .asked m r a ∧ r ≠ .acquire) :
    ∀ i ∈ ds.filterMap Deed.inquiry?, i.request ≠ .acquire := by
  intro i hi
  obtain ⟨d, hd, hinquiry⟩ := List.mem_filterMap.1 hi
  obtain ⟨m, r, a, rfl, hr⟩ := h d hd
  obtain ⟨-, rfl, -⟩ := Deed.asked.inj (Deed.eq_of_inquiry? hinquiry)
  exact hr

theorem countP_isAcquire_eq_zero (h : ∀ i ∈ is, i.request ≠ .acquire) :
    is.countP Inquiry.isAcquire = 0 := by
  refine List.countP_eq_zero.2 fun i hi hacquire => h i hi ?_
  unfold Inquiry.isAcquire at hacquire
  split at hacquire
  · assumption
  · cases hacquire

theorem asks_of_exchanged {r : Request} (hr : r ≠ .acquire)
    (h : Exchanged conn t r m a ds m') : ∀ d ∈ ds, ∃ m r a, d = .asked m r a ∧ r ≠ .acquire := by
  intro d hd
  obtain ⟨m₂, r', b, rfl, rfl | rfl⟩ := h.asks d hd
  · exact ⟨_, _, _, rfl, hr⟩
  · exact ⟨_, _, _, rfl, fun he => nomatch he⟩

/-- A statement that succeeded in time decides, whatever is done to count rows. -/
theorem worked_of_succeeded {w : ℕ} {b : Answer Yield} (hlt : m < t) (hw : b.wait = some w)
    (hle : m + w ≤ t) (hb : b.result = .ok y) {ds₂ : List Deed}
    (hcounting : ds₂ = [] ∨ ∃ (counting : Statement) (m₁ : ℕ) (a₂ : Except Error Yield),
      Exchanged conn t (counting.request .query conn) m₁ a₂ ds₂ m')
    (hdecided : Decided c q (ds₂.filterMap Deed.inquiry?) (.ok y) o)
    (hpermanent : ∀ e, o = .error e → e.isRetriable = false) :
    Worked c q statement conn t (fun _ => False) o
      (.asked m (statement.request (Client.statementKind q) conn) b :: ds₂) m' := by
  have hasks : ∀ d ∈ ds₂, ∃ m r a, d = .asked m r a ∧ r ≠ .acquire := by
    rcases hcounting with rfl | ⟨_, _, _, hcounting⟩
    · exact List.forall_mem_nil _
    · exact asks_of_exchanged Request.noConfusion hcounting
  have hcancels : CancelsOnce conn ds₂ := by
    rcases hcounting with rfl | ⟨_, _, _, hcounting⟩
    · exact ⟨none, Or.inl rfl, fun _ => rfl⟩
    · exact hcounting.cancels fun _ _ _ => rfl
  have hceases : ∀ i ∈ ds₂.filterMap Deed.inquiry?, i.moment < t := by
    rcases hcounting with rfl | ⟨_, _, _, hcounting⟩
    · exact List.forall_mem_nil _
    · exact hcounting.moment_lt
  constructor
  case asks =>
    intro d hd
    rcases List.mem_cons.1 hd with rfl | hd
    · exact ⟨_, _, _, rfl, fun he => nomatch he⟩
    · exact hasks d hd
  case ceases =>
    intro i hi ht
    rw [List.filterMap_cons_some (inquiry?_request b)] at hi
    rcases List.mem_cons.1 hi with rfl | hi
    · exact not_lt.2 ht hlt
    · exact not_lt.2 ht (hceases i hi)
  case cancels =>
    obtain ⟨own, hown, hcancels⟩ := hcancels
    refine ⟨own, hown.imp id fun ⟨ho, m₂, a, hmem⟩ => ⟨ho, m₂, a, List.mem_cons_of_mem _ hmem⟩,
      fun conn' => ?_⟩
    rw [cancelsOf_cons, cancels_request, hcancels, Nat.zero_add]
  case upshot =>
    rw [List.filterMap_cons_some (inquiry?_request b)]
    refine .decided (List.nil_append _).symm ⟨conn, rfl⟩ ⟨w, hw, hle⟩ (request_ne_acquire hasks)
      (List.forall_mem_nil _) ?_
    rw [hb]
    exact hdecided.mono fun i hi => List.mem_cons_of_mem _ hi
  case again =>
    intro e he hretriable
    rw [hpermanent e he] at hretriable
    cases hretriable

/-- A statement that failed decides, and one that was stopped does not. -/
theorem worked_of_failed {e : Error}
    (h : Exchanged conn t (statement.request (Client.statementKind q) conn) m a ds m')
    (ha : a = .error e) : Worked c q statement conn t (fun _ => False) (.error e) ds m' where
  asks := asks_of_exchanged Request.noConfusion h
  ceases := fun i hi ht => not_lt.2 ht (h.moment_lt i hi)
  cancels := h.cancels fun _ _ _ => rfl
  upshot := by
    cases h with
    | @answered b w _ hw hle =>
      rw [List.filterMap_cons_some (inquiry?_request b)]
      refine .decided (List.nil_append _).symm ⟨conn, rfl⟩ ⟨w, hw, hle⟩ (List.forall_mem_nil _)
        (List.forall_mem_nil _) ?_
      rw [ha]
      exact .failed
    | unasked ht =>
      cases ha
      exact .aborted ht (List.forall_mem_nil _)
    | @stopped b _ _ _ hlonger ht =>
      cases ha
      refine .aborted ht fun i hi => ?_
      rw [List.filterMap_cons_some (inquiry?_request b)] at hi
      obtain rfl := List.mem_singleton.1 hi
      rintro ⟨-, ⟨w, hw, hle⟩, -⟩
      exact not_lt.2 hle (hlonger w hw)
  again := by
    intro e' he hretriable
    cases he
    cases h with
    | @answered b _ _ _ _ =>
      refine ⟨fun _ => rfl, fun i hi hsucceeded => ?_⟩
      rw [List.filterMap_cons_some (inquiry?_request b)] at hi
      obtain rfl := List.mem_singleton.1 hi
      obtain ⟨-, -, y, hy⟩ := hsucceeded
      cases ha.symm.trans hy
    | unasked _ =>
      cases ha
      rw [isRetriable_aborted] at hretriable
      cases hretriable
    | stopped _ _ _ =>
      cases ha
      rw [isRetriable_aborted] at hretriable
      cases hretriable

/-- Rows that do not fit the shape are no reason to try again. -/
theorem isRetriable_of_fit {shape : Shape} {rows : List Row} {e : Error}
    (h : shape.fit rows = .error e) : e.isRetriable = false := by
  unfold Shape.fit at h
  split at h <;> cases h <;> rfl

theorem isRetriable_of_dataOf {e : Error} (h : dataOf q y = .error e) : e.isRetriable = false := by
  cases y with
  | rows rows => exact isRetriable_of_fit h
  | _ => cases h

theorem Running.worked (h : Running c conn q statement (some t) m (o.mapError .failed) ds m') :
    Worked c q statement conn t (fun _ => False) o ds m' := by
  generalize ho : o.mapError Halt.failed = o' at h
  cases h with
  | @unanswered halt _ _ hexchange =>
    cases o with
    | ok _ => cases ho
    | error e =>
      cases ho
      exact worked_of_failed (Exchange.exchanged (o := .error e) hexchange) rfl
  | @misfit y e _ _ hexchange hdata =>
    obtain rfl : o = .error e := mapError_failed_inj ho
    obtain ⟨b, w, rfl, hlt, hw, hle, -, hb⟩ :=
      (Exchange.exchanged (o := .ok y) hexchange).of_ok rfl
    exact worked_of_succeeded hlt hw hle hb (Or.inl rfl)
      (.misfit hdata) fun e' he => by cases he; exact isRetriable_of_dataOf hdata
  | @fitted y data _ _ hexchange hdata hcount =>
    obtain rfl : o = .ok (data, tallyOf q y) := mapError_failed_inj ho
    obtain ⟨b, w, rfl, hlt, hw, hle, -, hb⟩ :=
      (Exchange.exchanged (o := .ok y) hexchange).of_ok rfl
    exact worked_of_succeeded hlt hw hle hb (Or.inl rfl)
      (.fitted hdata (.known hcount)) fun e' he => nomatch he
  | @counted y data mode _ _ n _ _ hexchange hdata hcount hmutation hcounting =>
    obtain ⟨b, w, rfl, hlt, hw, hle, rfl, hb⟩ :=
      (Exchange.exchanged (o := .ok y) hexchange).of_ok rfl
    cases hcounting with
    | uncompiled _ =>
      obtain rfl : o = .ok (data, none) := mapError_failed_inj ho
      exact worked_of_succeeded hlt hw hle hb (Or.inl rfl)
        (.fitted hdata (.lost hcount hmutation)) fun e' he => nomatch he
    | @counted counting rows _ _ hs hexchange' =>
      obtain rfl : o = .ok (data, rows.head?.bind mode.read) := mapError_failed_inj ho
      have hexchanged := Exchange.exchanged (o := .ok (.rows rows)) hexchange'
      obtain ⟨b', w', rfl, -, -, -, -, hb'⟩ := hexchanged.of_ok rfl
      have hmem : (⟨m + w, counting.request .query conn, b'⟩ : Inquiry) ∈
          [Deed.asked (m + w) (counting.request .query conn) b'].filterMap Deed.inquiry? :=
        List.mem_cons_self
      exact worked_of_succeeded hlt hw hle hb (Or.inr ⟨_, _, _, hexchanged⟩)
        (.fitted hdata (.counted hcount hmutation hs hmem rfl hb')) fun e' he => nomatch he
    | failed _ hexchange' =>
      obtain rfl : o = .ok (data, none) := mapError_failed_inj ho
      have hexchanged := Exchange.exchanged (o := .error _) hexchange'
      exact worked_of_succeeded hlt hw hle hb (Or.inr ⟨_, _, _, hexchanged⟩)
        (.fitted hdata (.lost hcount hmutation)) fun e' he => nomatch he
    | givenUp _ hfailed _ =>
      cases o with
      | ok _ => cases ho
      | error e =>
        cases ho
        exact absurd rfl (hfailed e)

theorem inquiry?_timeLimit (limit : Duration) (b : Answer Yield) :
    Deed.inquiry? (.asked m (c.timeLimit conn limit) b) =
      some ⟨m, c.timeLimit conn limit, b⟩ := rfl

theorem Working.worked (hs : Statement.compile c.config.safety q = .ok statement)
    (h : Working c conn q statement (some t) m (o.mapError .failed) ds m') :
    Worked c q statement conn t
      (fun i => i.moment = m ∧ ∃ limit, i.request = c.timeLimit conn limit) o ds m' := by
  obtain ⟨ds₁, m₁, ds₂, rfl, hlimiting, hrunning⟩ := h.of_ended
  have hworked := hrunning.worked
  cases hlimiting with
  | unlimited _ =>
    exact ⟨hworked.asks, fun i hi ht => (hworked.ceases i hi ht).elim, hworked.cancels,
      hworked.upshot, hworked.again⟩
  | @answered limit b w _ _ =>
    have hlimit : ∀ i ∈ [(⟨m, c.timeLimit conn limit, b⟩ : Inquiry)],
        ¬ i.SucceededBy q statement t := by
      intro i hi hsucceeded
      rw [List.mem_singleton.1 hi] at hsucceeded
      exact not_sends_timeLimit hs limit b hsucceeded.1
    constructor
    case asks =>
      intro d hd
      rcases List.mem_cons.1 hd with rfl | hd
      · exact ⟨_, _, _, rfl, Request.noConfusion⟩
      · exact hworked.asks d hd
    case ceases =>
      intro i hi ht
      rcases List.mem_cons.1 hi with rfl | hi
      · exact ⟨rfl, limit, rfl⟩
      · exact (hworked.ceases i hi ht).elim
    case cancels =>
      obtain ⟨own, hown, hcancels⟩ := hworked.cancels
      refine ⟨own, hown.imp id fun ⟨ho, m₂, a, hmem⟩ => ⟨ho, m₂, a, List.mem_cons_of_mem _ hmem⟩,
        fun conn' => (Nat.zero_add _).trans (hcancels conn')⟩
    case upshot => exact hworked.upshot.after hlimit
    case again =>
      intro e he hretriable
      obtain ⟨hcancels, hnone⟩ := hworked.again e he hretriable
      refine ⟨fun conn' => (Nat.zero_add _).trans (hcancels conn'), fun i hi => ?_⟩
      rcases List.mem_cons.1 hi with rfl | hi
      · exact hlimit _ List.mem_cons_self
      · exact hnone i hi

/-! ## The end of a lease -/

theorem Cleaning.inquiries {steps : List CleanupStep} {o : Except Halt Unit}
    (h : Cleaning conn steps m o ds m') : ds.filterMap Deed.inquiry? = [] := by
  induction h with
  | done => rfl
  | answered _ _ ih => simpa [Deed.inquiry?] using ih
  | givenUp _ _ _ => simp [Deed.inquiry?]

theorem Cleaning.cancels_eq_zero {steps : List CleanupStep} {o : Except Halt Unit}
    (h : Cleaning conn steps m o ds m') (hsteps : CleanupStep.cancel ∉ steps) (conn' : ℕ) :
    cancelsOf conn' ds = 0 := by
  induction h with
  | done => rfl
  | @answered step _ _ _ _ _ _ _ _ _ ih =>
    cases step with
    | cancel => simp at hsteps
    | reset => simpa [CleanupStep.request, Deed.cancels] using ih (by simpa using hsteps)
  | @givenUp step _ _ _ _ _ _ _ _ =>
    cases step with
    | cancel => simp at hsteps
    | reset => simp [CleanupStep.request, Deed.cancels]

theorem Lease.inquiries_letsGo (l : Lease) (m : ℕ) :
    (l.letsGo m).filterMap Deed.inquiry? = [] := by
  unfold letsGo
  split <;> rfl

theorem Lease.cancels_letsGo (l : Lease) (m conn' : ℕ) : cancelsOf conn' (l.letsGo m) = 0 := by
  unfold letsGo
  split <;> rfl

theorem cancel_notMem_cleanupSteps (reset : Bool) :
    CleanupStep.cancel ∉ cleanupSteps false reset := by
  cases reset <;> decide

/-- A lease that ends, and was not interrupted, stops nothing and asks for nothing. -/
theorem Lease.Releasing.quiet {l : Lease} {o : Except Halt Unit} (h : l.Releasing false m o ds m')
    (ho : o = .ok ()) :
    m ≤ m' ∧ ds.filterMap Deed.inquiry? = [] ∧ ∀ conn', cancelsOf conn' ds = 0 := by
  cases h with
  | past hcleaning =>
    refine ⟨hcleaning.le, ?_, fun conn' => ?_⟩
    · rw [List.filterMap_append, hcleaning.inquiries, l.inquiries_letsGo, List.append_nil]
    · rw [cancelsOf_append, hcleaning.cancels_eq_zero (cancel_notMem_cleanupSteps _),
        l.cancels_letsGo]
  | givenUp _ => cases ho

/-! ## Whole attempts -/

/-- The server is asked to stop what it does on a connection that the call holds. -/
def CancelsHeld (conn : ℕ) (ds : List Deed) : Prop :=
  ∃ front m₁ mid m₂ a back, ds = front ++ .held m₁ conn ::
    (mid ++ .asked m₂ (.cancel conn) a :: back) ∧ ∀ m, .letGo m conn ∉ mid

/-- What up to `n` attempts come to that end at some moment, where the caller aborts at a moment
`t`. -/
structure Attempted (c : Client) (q : Query) (statement : Statement) (t n : ℕ)
    (o : Except Error Outcome) (ds : List Deed) (m' : ℕ) : Prop where
  ceases : ∀ i ∈ ds.filterMap Deed.inquiry?, t ≤ i.moment → i.moment = t ∧
    ∃ conn limit, i.request = c.timeLimit conn limit ∧ .held t conn ∈ ds
  cancels : ∃ own : Option ℕ, (∀ conn, cancelsOf conn ds = if own = some conn then 1 else 0) ∧
    ∀ conn, own = some conn → c.transaction = some conn ∨ CancelsHeld conn ds
  upshot : Upshot c q statement t (ds.filterMap Deed.inquiry?) m' o
  /-- Where there could be another attempt, all were made, and none of them stopped anything. -/
  again : ∀ e, o = .error e → e.isRetriable → (∀ conn', cancelsOf conn' ds = 0) ∧
    (∀ i ∈ ds.filterMap Deed.inquiry?, ¬ i.SucceededBy q statement t) ∧
    (c.inTransaction ∨ attemptsIn (ds.filterMap Deed.inquiry?) = n)

/-- Nothing is asked for, and the call is aborted. -/
theorem attempted_aborted {message : String} (ht : t ≤ m') :
    Attempted c q statement t n (.error (.aborted message)) [] m' := by
  refine ⟨List.forall_mem_nil _, ⟨none, fun _ => rfl, fun _ he => nomatch he⟩,
    .aborted ht (List.forall_mem_nil _), fun e he hretriable => ?_⟩
  cases he
  rw [isRetriable_aborted] at hretriable
  cases hretriable

/-- How an attempt ends that does not come by a connection. -/
theorem Connecting.attempted {e : Error}
    (h : Connecting c (some t) m (.error (.failed e)) ds m') :
    Attempted c q statement t 1 (.error e) ds m' := by
  have hunsent : ∀ (b : Answer Yield), ∀ i ∈ [(⟨m, .acquire, b⟩ : Inquiry)],
      ¬ i.SucceededBy q statement t := by
    intro b i hi hsucceeded
    rw [List.mem_singleton.1 hi] at hsucceeded
    exact not_sends_acquire b hsucceeded.1
  have hunheld : ∀ {e : Error} (b : Answer Yield), m < t →
      Upshot c q statement t [⟨m, .acquire, b⟩] m' (.error e) →
      Attempted c q statement t 1 (.error e) [.asked m .acquire b] m' := by
    intro e b hlt hupshot
    refine ⟨fun i hi ht => ?_, ⟨none, fun _ => rfl, fun _ he => nomatch he⟩, hupshot,
      fun _ _ _ => ⟨fun _ => rfl, hunsent b, Or.inr rfl⟩⟩
    obtain rfl := List.mem_singleton.1 hi
    exact absurd hlt (not_lt.2 ht)
  cases h with
  | refusedShared _ ht hle =>
    cases ht
    exact attempted_aborted hle
  | refused _ hraced =>
    generalize hresult : some (Except.error e) = result at hraced
    cases hraced with
    | late _ _ => cases hresult
    | stopped _ _ _ _ => cases hresult
    | @answered b _ w hasks hearly hw =>
      subst hasks
      obtain ⟨hlt, hle⟩ := hearly t rfl
      exact hunheld b hlt (.refused (List.nil_append _).symm rfl hw rfl hle
        (Option.some.inj hresult).symm (hunsent b))
  | stopped _ hraced =>
    cases hraced with
    | late ht hle =>
      cases ht
      exact attempted_aborted hle
    | @stopped b _ _ hasks ht hlt _ =>
      cases ht
      subst hasks
      exact hunheld b hlt (.aborted (Nat.le_refl _) (hunsent b))
  | givenUp _ hraced =>
    cases hraced with | givenUp _ hgiven => cases hgiven

/-- How an attempt comes by a connection. -/
theorem Connecting.of_ok (h : Connecting c (some t) m (.ok conn) ds m') :
    (c.transaction = some conn ∧ ds = [] ∧ m' = m ∧ m < t) ∨
      ∃ a, ds = [.asked m .acquire a, .held m' conn] ∧ m < t ∧ m' ≤ t := by
  cases h with
  | shared hconn hearly => exact Or.inl ⟨hconn, rfl, rfl, hearly t rfl⟩
  | acquired _ hraced =>
    generalize hresult : some (Except.ok Yield.done) = result at hraced
    cases hraced with
    | late _ _ => cases hresult
    | stopped _ _ _ _ => cases hresult
    | @answered b _ w hasks hearly _ =>
      subst hasks
      exact Or.inr ⟨b, rfl, hearly t rfl⟩

/-- To come by a connection sends no statement. -/
theorem Connecting.unsent (h : Connecting c (some t) m (.ok conn) ds m') :
    ∀ i ∈ ds.filterMap Deed.inquiry?, ¬ i.SucceededBy q statement t := by
  rcases h.of_ok with ⟨_, rfl, _⟩ | ⟨a, rfl, _⟩
  · exact List.forall_mem_nil _
  · intro i hi hsucceeded
    obtain rfl := List.mem_singleton.1 hi
    exact not_sends_acquire a hsucceeded.1

theorem CancelsHeld.of_mem {front back : List Deed} {m₁ m₂ : ℕ} {b : Answer Yield}
    (hasks : ∀ d ∈ ds, ∃ m r a, d = .asked m r a ∧ r ≠ .acquire)
    (hmem : .asked m₂ (.cancel conn) b ∈ ds) :
    CancelsHeld conn (front ++ .held m₁ conn :: (ds ++ back)) := by
  obtain ⟨mid, rest, rfl⟩ := List.append_of_mem hmem
  refine ⟨front, m₁, mid, m₂, b, rest ++ back, by simp, fun m hm => ?_⟩
  obtain ⟨_, _, _, he, _⟩ := hasks _ (List.mem_append_left _ hm)
  cases he

section
variable {ds₁ back : List Deed} {m₁ : ℕ} (h : Connecting c (some t) m (.ok conn) ds₁ m₁)
include h

/-- To come by a connection stops nothing. -/
theorem Connecting.cancelsOf_append_eq (conn' : ℕ) :
    cancelsOf conn' (ds₁ ++ ds) = cancelsOf conn' ds := by
  rcases h.of_ok with ⟨_, rfl, _⟩ | ⟨a, rfl, _⟩
  · rfl
  · simp [Deed.cancels]

/-- Where a request comes late, the connection has come just then. -/
theorem Connecting.ceases
    (hceases : ∀ i ∈ is, t ≤ i.moment →
      i.moment = m₁ ∧ ∃ limit, i.request = c.timeLimit conn limit) :
    ∀ i ∈ ds₁.filterMap Deed.inquiry? ++ is, t ≤ i.moment → i.moment = t ∧
      ∃ conn limit, i.request = c.timeLimit conn limit ∧ .held t conn ∈ ds₁ := by
  intro i hi ht
  rcases h.of_ok with ⟨_, rfl, rfl, hlt⟩ | ⟨a, rfl, hlt, hle⟩
  · obtain ⟨hmoment, -⟩ := hceases i hi ht
    omega
  · rcases List.mem_cons.1 hi with rfl | hi
    · exact absurd hlt (not_lt.2 ht)
    · obtain ⟨hmoment, limit, hrequest⟩ := hceases i hi ht
      obtain rfl : t = m₁ := by omega
      exact ⟨hmoment, conn, limit, hrequest, by simp⟩

/-- What is stopped is stopped on the connection that the call has come by. -/
theorem Connecting.cancelsHeld {m₂ : ℕ} {b : Answer Yield}
    (hasks : ∀ d ∈ ds, ∃ m r a, d = .asked m r a ∧ r ≠ .acquire)
    (hmem : .asked m₂ (.cancel conn) b ∈ ds) :
    c.transaction = some conn ∨ CancelsHeld conn (ds₁ ++ (ds ++ back)) := by
  rcases h.of_ok with ⟨hconn, _⟩ | ⟨a, rfl, _⟩
  · exact Or.inl hconn
  · have hheld : CancelsHeld conn ([.asked m .acquire a] ++ .held m₁ conn :: (ds ++ back)) :=
      .of_mem hasks hmem
    exact Or.inr hheld

theorem Connecting.attempts :
    c.inTransaction ∨ attemptsIn (ds₁.filterMap Deed.inquiry?) = 1 := by
  rcases h.of_ok with ⟨hconn, _⟩ | ⟨a, rfl, _⟩
  · exact Or.inl (by simp [Client.inTransaction, hconn])
  · exact Or.inr rfl

end

theorem Attempting.attempted (hs : Statement.compile c.config.safety q = .ok statement)
    (h : Attempting c q statement (some t) m (o.mapError .failed) ds m') :
    Attempted c q statement t 1 o ds m' := by
  generalize ho : o.mapError Halt.failed = o' at h
  cases h with
  | unconnected hconnecting =>
    cases o with
    | ok _ => cases ho
    | error e =>
      cases ho
      exact hconnecting.attempted
  | @connected conn ds₁ m₁ _ ds₂ _ hconnecting husing =>
    subst ho
    -- Only what is done under the lease matters.
    obtain ⟨dsw, m₂, dsr, rfl, hworking, hreleasing⟩ := husing.of_ended
    have hworked := hworking.worked hs
    obtain ⟨hle, hinquiries, hquiet⟩ := hreleasing.quiet rfl
    have hacquire := request_ne_acquire hworked.asks
    have hrequests : (ds₁ ++ (dsw ++ dsr)).filterMap Deed.inquiry? =
        ds₁.filterMap Deed.inquiry? ++ dsw.filterMap Deed.inquiry? := by
      rw [List.filterMap_append, List.filterMap_append, hinquiries, List.append_nil]
    have hcount : ∀ conn', cancelsOf conn' (ds₁ ++ (dsw ++ dsr)) = cancelsOf conn' dsw := by
      intro conn'
      rw [hconnecting.cancelsOf_append_eq, cancelsOf_append, hquiet, Nat.add_zero]
    constructor
    case ceases =>
      intro i hi ht
      rw [hrequests] at hi
      obtain ⟨hmoment, conn, limit, hrequest, hheld⟩ :=
        hconnecting.ceases hworked.ceases i hi ht
      exact ⟨hmoment, conn, limit, hrequest, List.mem_append_left _ hheld⟩
    case cancels =>
      obtain ⟨own, hown, hcancels⟩ := hworked.cancels
      refine ⟨own, fun conn' => (hcount conn').trans (hcancels conn'), fun conn' he => ?_⟩
      rcases hown with rfl | ⟨rfl, m₃, b, hmem⟩ <;> cases he
      exact hconnecting.cancelsHeld hworked.asks hmem
    case upshot =>
      rw [hrequests]
      exact (hworked.upshot.later hle hacquire).after hconnecting.unsent
    case again =>
      intro e he hretriable
      obtain ⟨hcancels, hnone⟩ := hworked.again e he hretriable
      refine ⟨fun conn' => (hcount conn').trans (hcancels conn'), fun i hi => ?_, ?_⟩
      · rw [hrequests] at hi
        rcases List.mem_append.1 hi with hi | hi
        · exact hconnecting.unsent i hi
        · exact hnone i hi
      · rw [hrequests, attemptsIn_append, attemptsIn, attemptsIn, countP_isAcquire_eq_zero hacquire]
        exact hconnecting.attempts

/-! ## All attempts -/

/-- Failed attempts do not matter to what the last one comes to. -/
theorem Attempted.after {front : List Deed} (h : Attempted c q statement t n o ds m')
    (hceases : ∀ i ∈ front.filterMap Deed.inquiry?, t ≤ i.moment → i.moment = t ∧
      ∃ conn limit, i.request = c.timeLimit conn limit ∧ .held t conn ∈ front)
    (hcancels : ∀ conn', cancelsOf conn' front = 0)
    (hnone : ∀ i ∈ front.filterMap Deed.inquiry?, ¬ i.SucceededBy q statement t)
    (hattempts : c.inTransaction ∨ attemptsIn (front.filterMap Deed.inquiry?) = k) :
    Attempted c q statement t (k + n) o (front ++ ds) m' := by
  constructor
  case ceases =>
    intro i hi ht
    rw [List.filterMap_append] at hi
    rcases List.mem_append.1 hi with hi | hi
    · obtain ⟨hmoment, conn, limit, hrequest, hheld⟩ := hceases i hi ht
      exact ⟨hmoment, conn, limit, hrequest, List.mem_append_left _ hheld⟩
    · obtain ⟨hmoment, conn, limit, hrequest, hheld⟩ := h.ceases i hi ht
      exact ⟨hmoment, conn, limit, hrequest, List.mem_append_right _ hheld⟩
  case cancels =>
    obtain ⟨own, hcount, hown⟩ := h.cancels
    refine ⟨own, fun conn => ?_, fun conn he => (hown conn he).imp id ?_⟩
    · rw [cancelsOf_append, hcancels, hcount, Nat.zero_add]
    · rintro ⟨front', m₁, mid, m₂, a, back, rfl, hmid⟩
      exact ⟨front ++ front', m₁, mid, m₂, a, back, by simp, hmid⟩
  case upshot =>
    rw [List.filterMap_append]
    exact h.upshot.after hnone
  case again =>
    intro e he hretriable
    obtain ⟨hcancels', hnone', hattempts'⟩ := h.again e he hretriable
    refine ⟨fun conn' => by rw [cancelsOf_append, hcancels, hcancels'], fun i hi => ?_, ?_⟩
    · rw [List.filterMap_append] at hi
      rcases List.mem_append.1 hi with hi | hi
      · exact hnone i hi
      · exact hnone' i hi
    · rw [List.filterMap_append, attemptsIn, List.countP_append]
      rcases hattempts with hinside | hfront
      · exact Or.inl hinside
      · exact hattempts'.imp id fun hback => congrArg₂ (· + ·) hfront hback

theorem Retrying.attempted (hs : Statement.compile c.config.safety q = .ok statement)
    {left number : ℕ} {o' : Except Halt Outcome}
    (h : Retrying c q statement (some t) left number m o' ds m')
    (ho : o.mapError .failed = o') : Attempted c q statement t (1 + left) o ds m' := by
  induction h with
  | last hattempting => exact Attempting.attempted hs (ho ▸ hattempting)
  | done hattempting hpermanent =>
    subst ho
    obtain ⟨hceases, hcancels, hupshot, -⟩ := Attempting.attempted hs hattempting
    refine ⟨hceases, hcancels, hupshot, fun e he hretriable => ?_⟩
    cases he
    rw [hpermanent e rfl] at hretriable
    cases hretriable
  | @again left _ _ e _ _ _ _ _ _ hattempting hretriable _ _ ih =>
    have hattempted := Attempting.attempted (o := .error e) hs hattempting
    obtain ⟨hcancels, hnone, hattempts⟩ := hattempted.again e rfl hretriable
    rw [Nat.add_comm left 1]
    exact (ih ho).after hattempted.ceases hcancels hnone hattempts
  | @undelayed left _ _ e _ _ _ _ hattempting hretriable hdelaying =>
    have hattempted := Attempting.attempted (o := .error e) hs hattempting
    obtain ⟨hcancels, hnone, hattempts⟩ := hattempted.again e rfl hretriable
    cases hdelaying with
    | stopped ht _ hle =>
      cases ht
      obtain rfl : o = .error (.aborted "aborted during retry backoff") := mapError_failed_inj ho
      have haborted : Attempted c q statement t (left + 1)
          (.error (.aborted "aborted during retry backoff")) [] _ := attempted_aborted hle
      have hafter := haborted.after hattempted.ceases hcancels hnone hattempts
      rwa [List.append_nil] at hafter
    | givenUp hgiven _ =>
      exact absurd ho (mapError_failed_ne hgiven)

end

/-! ## Calls -/

/-- The server is asked to stop what it does on a connection that is in use: it was acquired, and is
not released yet. -/
def StopsHeld (conn : ℕ) (entries : List Entry) : Prop :=
  ∃ front m₁ mid m₂ a back, entries = front ++ .noted m₁ (.acquired conn) ::
    (mid ++ .asked m₂ (.cancel conn) a :: back) ∧ ∀ m, .noted m (.released conn) ∉ mid

/-- What comes of a call that executes a query, if its caller aborts at a moment `t` and it ends then
or later. -/
inductive Resolved (c : Client) (q : Query) (t m : ℕ) (is : List Inquiry) (m' : ℕ) :
    Response Json → Prop
  /-- The caller had aborted before, and it does not matter whether the query can be compiled. -/
  | late {message} : t ≤ m → is = [] → Resolved c q t m is m' (.err (.aborted message))
  /-- An error after which another attempt could be made is that of the last one. -/
  | tried {statement} {o : Except Error Outcome} : m < t →
    Statement.compile c.config.safety q = .ok statement → Upshot c q statement t is m' o →
    (∀ e, o = .error e → e.isRetriable → c.inTransaction ∨ attemptsIn is = c.maxAttempts) →
    Resolved c q t m is m' (responseOf o)

/-- What happens in a call that executes a query, if its caller aborts at a moment `t` and it ends
then or later, and how it responds. -/
structure Abortive (c : Client) (q : Query) (t : ℕ) (s : State σ) (entries : List Entry)
    (s' : State σ) (r : Response Json) : Prop where
  /-- From the moment on nothing is asked for; where a connection comes at the moment itself, its
  limit comes along with it. -/
  ceases : ∀ i ∈ inquiries entries, t ≤ i.moment → i.moment = t ∧
    ∃ conn limit, i.request = c.timeLimit conn limit ∧ .noted t (.acquired conn) ∈ entries
  /-- The server is asked to stop once at most, by the call or by a cleanup that it leaves, and only
  on the connection that the call holds. -/
  stops : ∃ own : Option ℕ,
    (∀ conn, entries.countP (·.isCancel conn) + s'.cancelsLeft conn =
      s.cancelsLeft conn + if own = some conn then 1 else 0) ∧
    ∀ conn, own = some conn → c.transaction = some conn ∨ StopsHeld conn entries
  responds : Resolved c q t s.now (inquiries entries) s'.now r

section
variable {source : Source σ} {env : Env σ} {c : Client} {q : Query} {t conn : ℕ}
  {s s' : State σ} {ds : List Deed} {entries : List Entry} {r : Response Json}

theorem Passage.stopsHeld (h : Passage source s ds entries s') (hds : CancelsHeld conn ds) :
    StopsHeld conn entries := by
  obtain ⟨front, m₁, mid, m₂, a, back, rfl, hmid⟩ := hds
  obtain ⟨s₁, s₂, xs₁, x, xs₂, -, hholds, hrest, rfl⟩ := h.split
  obtain ⟨s₃, s₄, ys₁, y, ys₂, hpassage, hasks, -, rfl⟩ := hrest.split
  cases hholds with | holds =>
  cases hasks with | asks =>
  obtain ⟨-, hunreleased⟩ := hpassage.stays_held List.mem_cons_self hmid
  exact ⟨xs₁, _, ys₁, _, _, ys₂, rfl, hunreleased⟩

theorem Attempted.abortive {statement : Statement} {o : Except Error Outcome}
    (h : Attempted c q statement t (1 + (c.maxAttempts - 1)) o ds s'.now)
    (hs : Statement.compile c.config.safety q = .ok statement) (hearly : s.now < t)
    (hpassage : Passage source s ds entries s') :
    Abortive c q t s entries s' (responseOf o) := by
  have hmost : 1 + (c.maxAttempts - 1) = c.maxAttempts := by
    unfold Client.maxAttempts
    split <;> omega
  have hrequests := hpassage.inquiries
  constructor
  case ceases =>
    intro i hi ht
    rw [hrequests] at hi
    obtain ⟨hmoment, conn, limit, hrequest, hheld⟩ := h.ceases i hi ht
    exact ⟨hmoment, conn, limit, hrequest, hpassage.entry_mem hheld rfl⟩
  case stops =>
    obtain ⟨own, hcount, hown⟩ := h.cancels
    refine ⟨own, fun conn => ?_, fun conn he => (hown conn he).imp id hpassage.stopsHeld⟩
    rw [← hcount]
    exact hpassage.cancels conn
  case responds =>
    rw [hrequests]
    refine .tried hearly hs h.upshot fun e he hretriable => ?_
    obtain ⟨-, -, hattempts⟩ := h.again e he hretriable
    rwa [hmost] at hattempts

/-- **A call whose caller aborts** stops: if it ends after that it asks for nothing more, has the
server stop once at most, and responds as was decided by then. -/
theorem aborted_execute (h : (c.execute q (some t)).exec env s = (.ok r, s'))
    (ht : t ≤ s'.now) :
    ∃ entries, Chronicles env.source s entries s' ∧ Abortive c q t s entries s' r := by
  have hacts : Acts env s.now (c.execute q (some t)) (Executing c q (some t) s.now) :=
    Client.acts_execute q
  obtain ⟨ds, entries, hpassage, hexecuting⟩ := hacts.passes s rfl
  rw [h] at hpassage hexecuting
  refine ⟨entries, hpassage.chronicles, ?_⟩
  generalize ho : (Except.ok r : Except Halt _) = o at hexecuting
  generalize hend : s'.now = m' at hexecuting
  cases hexecuting with
  | late ht' hle =>
    cases ht'
    cases ho
    have hrequests : inquiries entries = [] := hpassage.inquiries
    constructor
    case ceases => simp [hrequests]
    case stops => exact ⟨none, hpassage.cancels, fun conn he => nomatch he⟩
    case responds => exact .late hle hrequests
  | uncompiled hearly _ => exact absurd (hearly t rfl) (by omega)
  | tried hearly hs hretrying =>
    cases ho
    subst hend
    exact (hretrying.attempted hs rfl).abortive hs (hearly t rfl) hpassage
  | givenUp _ _ _ _ => cases ho

end

/-- A selection that is never answered, and is aborted after five nanoseconds. -/
def abandoned : Except Halt (Response Json) × State Script :=
  (Client.execute {} { schema := "public", table := "users" } (some 5)).exec
    ⟨Script.source, []⟩ { source := { queries := [⟨none, .ok []⟩] } }

theorem aborted_execute_of_hanging : ∃ r entries,
    abandoned.1 = .ok r ∧ 5 ≤ abandoned.2.now ∧
      Chronicles Script.source { source := { queries := [⟨none, .ok []⟩] } } entries abandoned.2 ∧
      Abortive {} { schema := "public", table := "users" } 5
        { source := { queries := [⟨none, .ok []⟩] } } entries abandoned.2 r := by
  have hresponse : abandoned.1 = .ok (.err (.aborted "query aborted by caller")) := by rfl
  have hend : 5 ≤ abandoned.2.now := by decide +kernel
  have habandoned : (Client.execute {} { schema := "public", table := "users" } (some 5)).exec
      ⟨Script.source, []⟩ { source := { queries := [⟨none, .ok []⟩] } } =
        (.ok (.err (.aborted "query aborted by caller")), abandoned.2) :=
    hresponse ▸ (Prod.eta abandoned).symm
  obtain ⟨entries, hchronicles, habortive⟩ := aborted_execute habandoned hend
  exact ⟨_, entries, hresponse, hend, hchronicles, habortive⟩

end QueryClient.Session
