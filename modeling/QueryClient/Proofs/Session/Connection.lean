/-
  What calls do on a connection.

  For each thing that a call does there is a relation with what can come of it: the outcome, the
  deeds, and the moment of the end, which depends on the answers, on the moment at which the caller
  aborts, and on whether the caller gives up.

  * `Raced` and `Exchange`: an answer is waited for, by a caller who may abort;
  * `Connecting`, `Limiting` and `Cleaning`: a connection is come by, limited, and restored;
  * `Releasing` and `Using`: a lease ends, with its connection let go of or left to a cleanup;
  * `acts_interruptible`, `Lease.acts_use` and the other `acts` lemmas: this is what runs do.
-/
import QueryClient.Proofs.Session.Acts
import QueryClient.Session.Connection

namespace QueryClient.Session

open Run

variable {σ α β : Type}

/-! ## Failures -/

theorem mapError_failed_inj {o o' : Except Error α}
    (h : o.mapError Halt.failed = o'.mapError Halt.failed) : o = o' := by
  cases o <;> cases o' <;> cases h <;> rfl

theorem mapError_failed_ne {o : Except Error α} {halt : Halt} (hgiven : halt.givenUp) :
    o.mapError Halt.failed ≠ .error halt := by
  rintro h
  cases o with
  | ok _ => cases h
  | error e =>
    cases h
    cases hgiven

/-! ## Answers that are waited for -/

/-- How an answer is waited for by a caller who does not abort. -/
inductive Awaits (a : Answer α) (m : ℕ) : Account α
  | past {w} : a.wait = some w → Awaits a m (a.result.mapError .failed) [] (m + w)
  | givenUp {halt m'} : halt.givenUp → m ≤ m' → (∀ w ∈ a.wait, halt ≠ .stuck ∧ m' < m + w) →
    Awaits a m (.error halt) [] m'

theorem Awaits.deeds_eq {a : Answer α} {m m' : ℕ} {o : Except Halt α} {ds : List Deed}
    (h : Awaits a m o ds m') : ds = [] := by
  cases h <;> rfl

theorem acts_await {env : Env σ} {m : ℕ} (a : Answer α) :
    Acts env m (await a) (Awaits a m) := by
  refine (acts_wait a.wait).bind (fun _ ds m' h => ?_) fun halt ds m' h => ?_
  · cases h with | past hw => exact .ofExcept (.past hw)
  · cases h with | givenUp hgiven hle hbefore => exact .givenUp hgiven hle hbefore

/-- How a call gets an answer that it asks for at a moment, or none because the caller aborts.  What
has come when the caller aborts counts. -/
inductive Raced (abort : Option ℕ) (asks : Answer α → List Deed → Prop) (m : ℕ) :
    Account (Option (Except Error α))
  /-- The caller has aborted before. -/
  | late {t} : abort = some t → t ≤ m → Raced abort asks m (.ok none) [] m
  | answered {a ds w} : asks a ds → (∀ t ∈ abort, m < t ∧ m + w ≤ t) → a.wait = some w →
    Raced abort asks m (.ok (some a.result)) ds (m + w)
  | stopped {a ds t} : asks a ds → abort = some t → m < t → (∀ w ∈ a.wait, t < m + w) →
    Raced abort asks m (.ok none) ds t
  | givenUp {a ds halt m'} : asks a ds → halt.givenUp → m ≤ m' → (∀ t ∈ abort, m' < t) →
    (∀ w ∈ a.wait, halt ≠ .stuck ∧ m' < m + w) → Raced abort asks m (.error halt) ds m'

section
variable {env : Env σ} {m : ℕ} {abort : Option ℕ}

theorem exec_aborted (abort : Option ℕ) (env : Env σ) (s : State σ) :
    (aborted abort : Run σ Bool).exec env s = (.ok (abort.any (· ≤ s.now)), s) := rfl

theorem acts_aborted : Acts env m (aborted abort : Run σ Bool) fun o ds m' =>
    o = .ok (abort.any (· ≤ m)) ∧ ds = [] ∧ m' = m :=
  Acts.now_bind (.pure ⟨rfl, rfl, rfl⟩)

/-- A run goes on according to whether the caller has aborted. -/
theorem Run.Acts.aborted_bind {f : Bool → Run σ β} {Q : Account β}
    (hlate : ∀ t, abort = some t → t ≤ m → Acts env m (f true) Q)
    (hearly : (∀ t ∈ abort, m < t) → Acts env m (f false) Q) :
    Acts env m (aborted abort >>= f) Q := by
  refine acts_aborted.bind (fun late ds m₁ h => ?_) fun _ _ _ h => nomatch h.1
  obtain ⟨he, rfl, rfl⟩ := h
  obtain rfl := Except.ok.inj he
  cases hany : abort.any (· ≤ m₁) with
  | true =>
    obtain ⟨t, ht, hle⟩ := (Option.any_eq_true _ _).1 hany
    exact hlate t ht (of_decide_eq_true hle)
  | false => exact hearly (any_le_eq_false_iff.1 hany)

theorem acts_race (asks : Answer α → List Deed → Prop) {ask : Run σ (Answer α)}
    {finish : Except Error α → Run σ β} {stop : Run σ β} {Q : Account β}
    (hask : Acts env m ask fun o ds m' => ∃ a, o = .ok a ∧ asks a ds ∧ m' = m)
    (hfinish : ∀ o ds m₁, Raced abort asks m (.ok (some o)) ds m₁ →
      Acts env m₁ (finish o) fun o ds' m' => Q o (ds ++ ds') m')
    (hstop : ∀ ds m₁, Raced abort asks m (.ok none) ds m₁ →
      Acts env m₁ stop fun o ds' m' => Q o (ds ++ ds') m')
    (hhalt : ∀ halt ds m', Raced abort asks m (.error halt) ds m' → Q (.error halt) ds m') :
    Acts env m (race abort ask finish stop) Q := by
  refine .aborted_bind (fun t ht hle => hstop [] m (.late ht hle)) fun hearly => ?_
  rw [if_neg Bool.false_ne_true]
  refine hask.bind (fun a ds m₂ h => ?_) fun _ _ _ ⟨_, h, _⟩ => nomatch h
  obtain ⟨a', ha, hasks, rfl⟩ := h
  cases ha
  refine .now_bind ?_
  split
  · next t ht =>
    obtain ⟨habort, hnone⟩ := Option.filter_eq_some_iff.1 ht
    have hlt := hearly t habort
    have hlonger : ∀ w ∈ a.wait, t < m₂ + w := by
      intro w hw
      rw [Option.mem_def.1 hw] at hnone
      simpa using hnone
    refine (acts_wait _).bind (fun _ ds' m' h => ?_) fun halt ds' m' h => ?_
    · cases h with | past hw =>
      cases hw
      rw [Nat.add_sub_cancel' hlt.le]
      exact hstop ds t (.stopped hasks habort hlt hlonger)
    · cases h with | givenUp hgiven hle hbefore =>
      obtain ⟨hcomes, hlt'⟩ := hbefore _ rfl
      rw [List.append_nil]
      refine hhalt halt ds m' (.givenUp hasks hgiven hle (fun t' ht' => ?_) fun w hw => ?_)
      · rw [Option.mem_def, habort] at ht'
        cases ht'
        omega
      · have := hlonger w hw
        exact ⟨hcomes, by omega⟩
  · next hnone =>
    have hcomes : ∀ t ∈ abort, ∃ w, a.wait = some w ∧ m₂ + w ≤ t := by
      intro t ht
      rw [Option.filter_eq_none_iff] at hnone
      simpa [Option.any_eq_true] using hnone t ht
    refine (acts_wait _).bind (fun _ ds' m' h => ?_) fun halt ds' m' h => ?_
    · cases h with | past hw =>
      refine hfinish a.result ds _ (.answered hasks (fun t ht => ⟨hearly t ht, ?_⟩) hw)
      obtain ⟨w', hw', hle⟩ := hcomes t ht
      rw [hw] at hw'
      cases hw'
      exact hle
    · cases h with | givenUp hgiven hle hbefore =>
      rw [List.append_nil]
      refine hhalt halt ds m' (.givenUp hasks hgiven hle (fun t ht => ?_) hbefore)
      obtain ⟨w, hw, hle'⟩ := hcomes t ht
      have := (hbefore w hw).2
      omega

end

/-- The same answer with another value. -/
theorem Raced.map {abort : Option ℕ} {m m' : ℕ} {r : Request} {yield : α → Yield}
    {o : Except Halt (Option (Except Error α))} {ds : List Deed}
    (h : Raced abort (fun a ds => ds = [.asked m r (a.map yield)]) m o ds m') :
    Raced abort (fun a ds => ds = [.asked m r a]) m (o.map (·.map (·.map yield))) ds m' := by
  cases h with
  | late ht hle => exact .late ht hle
  | @answered a _ _ hasks hearly hw => exact Raced.answered (a := a.map yield) hasks hearly hw
  | stopped hasks ht hlt hlonger => exact .stopped hasks ht hlt hlonger
  | givenUp hasks hgiven hle hearly hbefore => exact .givenUp hasks hgiven hle hearly hbefore

/-- A request is sent once, or not at all. -/
theorem Raced.asked_once {abort : Option ℕ} {m m' : ℕ} {r : Request}
    {o : Except Halt (Option (Except Error Yield))} {ds : List Deed}
    (h : Raced abort (fun a ds => ds = [.asked m r a]) m o ds m') :
    m ≤ m' ∧ (ds = [] ∨ ∃ a, ds = [.asked m r a]) := by
  cases h with
  | late _ _ => exact ⟨Nat.le_refl _, Or.inl rfl⟩
  | answered hasks _ _ => exact ⟨Nat.le_add_right _ _, Or.inr ⟨_, hasks⟩⟩
  | stopped hasks _ hlt _ => exact ⟨hlt.le, Or.inr ⟨_, hasks⟩⟩
  | givenUp hasks _ hle _ _ => exact ⟨hle, Or.inr ⟨_, hasks⟩⟩

/-- Where nobody aborts, an answer is waited for. -/
theorem Raced.unaborted {asks : Answer α → List Deed → Prop} {m m' : ℕ}
    {o : Option (Except Error α)} {ds : List Deed} (h : Raced none asks m (.ok o) ds m') :
    ∃ a w, asks a ds ∧ a.wait = some w ∧ m' = m + w ∧ o = some a.result := by
  generalize ho : (Except.ok o : Except Halt _) = o' at h
  cases h with
  | late ht _ => cases ht
  | answered hasks _ hw =>
    cases ho
    exact ⟨_, _, hasks, hw, rfl, rfl⟩
  | stopped _ ht _ _ => cases ht
  | givenUp _ _ _ _ _ => cases ho

/-! ## Cleaning up -/

/-- Steps of a cleanup are gone through one after the other, each once its answer has come. -/
inductive Cleaning (conn : ℕ) : List CleanupStep → ℕ → Account Unit
  | done {m} : Cleaning conn [] m (.ok ()) [] m
  | answered {step rest m a w o ds m'} : a.wait = some w → Cleaning conn rest (m + w) o ds m' →
    Cleaning conn (step :: rest) m o (.asked m (step.request conn) a :: ds) m'
  | givenUp {step rest m a halt m'} : halt.givenUp → m ≤ m' →
    (∀ w ∈ a.wait, halt ≠ .stuck ∧ m' < m + w) →
    Cleaning conn (step :: rest) m (.error halt) [.asked m (step.request conn) a] m'

section
variable {env : Env σ} {m : ℕ} {conn : ℕ}

theorem acts_endStep (step : CleanupStep) (result : Except Error Unit) :
    Acts env m (modify fun s => s.endStep step result : Run σ Unit) (Still m) := by
  refine .modify ?_
  rintro s rfl
  obtain ⟨entries, hidle⟩ := State.idle_endStep env.source s step result
  exact ⟨[], entries, hidle, ⟨(), rfl⟩, rfl, State.now_endStep step result⟩

/-- A step is started as a cleanup starts it. -/
theorem acts_startStep (step : CleanupStep) :
    Acts env m (modifyGet (State.startStep env.source conn step) : Run σ (Answer Unit))
      fun o ds m' => ∃ a answer, o = .ok answer ∧ answer.wait = a.wait ∧
        ds = [.asked m (step.request conn) a] ∧ m' = m := by
  refine .modifyGet ?_
  rintro s rfl
  obtain ⟨hstate, hwait⟩ := State.startStep_eq env.source s conn step
  rw [hstate]
  exact ⟨_, _, .single .asks, _, _, rfl, hwait, rfl, rfl⟩

theorem acts_cleanUp (steps : List CleanupStep) :
    Acts env m (cleanUp conn steps : Run σ Unit) (Cleaning conn steps m) := by
  induction steps generalizing m with
  | nil => exact .pure .done
  | cons step rest ih =>
    have hstep : Acts env m (do
        let env ← read
        let answer ← modifyGet (State.startStep env.source conn step)
        Run.wait answer.wait
        modify fun s => s.endStep step answer.result : Run σ Unit) fun o ds m' =>
          ∃ a, ds = [.asked m (step.request conn) a] ∧ Waits a.wait m o [] m' := by
      refine .read_bind ?_ fun B hcleans => by rw [State.startStep_alike hcleans]
      refine (acts_startStep step).bind (fun answer ds m₁ h => ?_)
        fun _ _ _ ⟨_, _, h, _⟩ => nomatch h
      obtain ⟨a, answer', ho, hwait, rfl, rfl⟩ := h
      cases ho
      refine (acts_wait _).bind (fun _ ds' m' h => ?_) fun halt ds' m' h => ?_
      · refine (acts_endStep step answer.result).mono fun o ds'' m'' h' => ?_
        obtain ⟨⟨_, rfl⟩, rfl, rfl⟩ := h'
        cases h with | past hw => exact ⟨a, rfl, .past (hwait ▸ hw)⟩
      · cases h with | givenUp hgiven hle hbefore =>
        exact ⟨a, rfl, .givenUp hgiven hle fun w hw => hbefore w (hwait ▸ hw)⟩
    refine hstep.bind (fun _ ds m₁ h => ?_) fun halt ds m' h => ?_
    · obtain ⟨a, rfl, hover⟩ := h
      cases hover with | past hw => exact ih.mono fun _ _ _ h => .answered hw h
    · obtain ⟨a, rfl, hgivenUp⟩ := h
      cases hgivenUp with | givenUp hgiven hle hbefore => exact .givenUp hgiven hle hbefore

end

theorem Cleaning.le {steps : List CleanupStep} {m m' : ℕ} {o : Except Halt Unit} {ds : List Deed}
    {conn : ℕ} (h : Cleaning conn steps m o ds m') : m ≤ m' := by
  induction h with
  | done => exact Nat.le_refl _
  | answered _ _ ih => exact (Nat.le_add_right _ _).trans ih
  | givenUp _ hle _ => exact hle

theorem Cleaning.givenUp_of_error {steps : List CleanupStep} {m m' : ℕ} {o : Except Halt Unit}
    {ds : List Deed} {conn : ℕ} {halt : Halt} (h : Cleaning conn steps m o ds m')
    (ho : o = .error halt) : halt.givenUp := by
  induction h with
  | done => cases ho
  | answered _ _ ih => exact ih ho
  | givenUp hgiven _ _ =>
    cases ho
    exact hgiven

/-! ## Statements -/

/-- How a statement is answered.  If the caller aborts before it is, the server is asked to stop. -/
inductive Exchange (conn : ℕ) (abort : Option ℕ) (r : Request) (m : ℕ) : Account Yield
  | answered {result ds m'} :
    Raced abort (fun a ds => ds = [.asked m r a]) m (.ok (some result)) ds m' →
    Exchange conn abort r m (result.mapError .failed) ds m'
  | stopped {ds m₁ ds' m'} :
    Raced abort (fun a ds => ds = [.asked m r a]) m (.ok none) ds m₁ →
    Cleaning conn [.cancel] m₁ (.ok ()) ds' m' →
    Exchange conn abort r m (.error (.failed (.aborted "query aborted by caller"))) (ds ++ ds') m'
  /-- The call is given up while it waits for the server to stop. -/
  | halted {ds m₁ halt ds' m'} :
    Raced abort (fun a ds => ds = [.asked m r a]) m (.ok none) ds m₁ →
    Cleaning conn [.cancel] m₁ (.error halt) ds' m' →
    Exchange conn abort r m (.error halt) (ds ++ ds') m'
  | givenUp {halt ds m'} :
    Raced abort (fun a ds => ds = [.asked m r a]) m (.error halt) ds m' →
    Exchange conn abort r m (.error halt) ds m'

/-- Where nobody aborts, a statement is answered. -/
theorem Exchange.unaborted {conn m m' : ℕ} {r : Request} {o : Except Error Yield} {ds : List Deed}
    (h : Exchange conn none r m (o.mapError .failed) ds m') :
    ∃ a w, ds = [.asked m r a] ∧ a.wait = some w ∧ m' = m + w ∧ a.result = o := by
  generalize ho : o.mapError Halt.failed = o' at h
  cases h with
  | answered hraced =>
    obtain rfl := mapError_failed_inj ho
    obtain ⟨a, w, rfl, hw, hm, hresult⟩ := hraced.unaborted
    exact ⟨a, w, rfl, hw, hm, (Option.some.inj hresult).symm⟩
  | stopped hraced _ | halted hraced _ =>
    obtain ⟨_, _, _, _, _, hnone⟩ := hraced.unaborted
    cases hnone
  | givenUp hraced =>
    cases hraced with | givenUp _ hgiven =>
    exact absurd ho (mapError_failed_ne hgiven)

section
variable {env : Env σ} {m : ℕ} {conn : ℕ} {abort : Option ℕ}

theorem acts_interruptible {r : Request} {ask : Source σ → σ → Answer α × σ} {yield : α → Yield}
    (hask : ∀ st, env.source.respond r st = (ask env.source st).map (.map yield) id)
    (hsame : ∀ B, env.source.AlikeAt B r → ask env.source = ask B) :
    Acts env m (interruptible conn abort (request [r.event] ask))
      fun o ds m' => Exchange conn abort r m (o.map yield) ds m' := by
  have hrequest := acts_request (m := m) yield hask hsame
  refine acts_race (fun a ds => ds = [.asked m r (a.map yield)]) hrequest
    (fun o ds m' h => ?_) (fun ds m₁ h => ?_) fun halt ds m' h => .givenUp h.map
  · refine .ofExcept ?_
    rw [List.append_nil]
    cases o with
    | ok a => exact .answered h.map
    | error e => exact .answered h.map
  · refine (acts_cleanUp [.cancel]).bind (fun _ ds' m' h' => ?_) fun halt ds' m' h' => ?_
    · refine .throw trivial ?_
      rw [List.append_nil]
      exact .stopped h.map h'
    · exact .halted h.map h'

theorem acts_query (sql : String) (values : List Value) :
    Acts env m (interruptible conn abort (query conn sql values)) fun o ds m' =>
      Exchange conn abort (.statement .query conn sql values) m (o.map .rows) ds m' :=
  acts_interruptible (r := .statement .query conn sql values) (fun _ => rfl) fun _ h => h

theorem acts_execute (sql : String) (values : List Value) :
    Acts env m (interruptible conn abort (execute conn sql values)) fun o ds m' =>
      Exchange conn abort (.statement .execute conn sql values) m (o.map .affected) ds m' :=
  acts_interruptible (r := .statement .execute conn sql values) (fun _ => rfl) fun _ h => h

theorem acts_openStream (sql : String) (values : List Value) :
    Acts env m (interruptible conn abort (openStream conn sql values)) fun o ds m' =>
      Exchange conn abort (.statement .stream conn sql values) m (o.map .stream) ds m' :=
  acts_interruptible (r := .statement .stream conn sql values) (fun _ => rfl) fun _ h => h

end

theorem acts_batch {env : Env σ} {m conn : ℕ} (sql : String) :
    Acts env m (batch conn sql : Run σ Unit) fun o ds m' => ∃ a : Answer Unit, Awaits a m o [] m' ∧
      ds = [.asked m (.statement .batch conn sql []) (a.map fun _ => .done)] := by
  have hrequest : Acts env m (Run.request [.sent .batch conn sql []] fun source =>
      source.batch conn sql) _ :=
    acts_request (r := .statement .batch conn sql []) (fun _ => .done) (fun _ => rfl) fun _ h => h
  refine hrequest.bind (fun a ds m₁ h => ?_) fun _ _ _ ⟨_, h, _⟩ => nomatch h
  obtain ⟨a', ho, rfl, rfl⟩ := h
  cases ho
  refine (acts_await a).mono fun o ds m' h => ?_
  obtain rfl := h.deeds_eq
  exact ⟨a, h, rfl⟩

/-! ## Connections -/

namespace Client

/-- The request that limits the time of the statements that follow. -/
def timeLimit (c : Client) (conn : ℕ) (limit : Duration) : Request :=
  .statement .query conn limitStatement
    [.text (toString limit.millis ++ "ms"), .bool c.inTransaction]

end Client

/-- How a call comes by a connection. -/
inductive Connecting (c : Client) (abort : Option ℕ) (m : ℕ) : Account ℕ
  /-- The connection of the transaction is there. -/
  | shared {conn} : c.transaction = some conn → (∀ t ∈ abort, m < t) →
    Connecting c abort m (.ok conn) [] m
  | refusedShared {conn t} : c.transaction = some conn → abort = some t → t ≤ m →
    Connecting c abort m
      (.error (.failed (.aborted "aborted while acquiring a connection"))) [] m
  | acquired {ds m' conn} : c.transaction = none →
    Raced abort (fun a ds => ds = [.asked m .acquire a]) m (.ok (some (.ok .done))) ds m' →
    Connecting c abort m (.ok conn) (ds ++ [.held m' conn]) m'
  | refused {e ds m'} : c.transaction = none →
    Raced abort (fun a ds => ds = [.asked m .acquire a]) m (.ok (some (.error e))) ds m' →
    Connecting c abort m (.error (.failed e)) ds m'
  | stopped {ds m'} : c.transaction = none →
    Raced abort (fun a ds => ds = [.asked m .acquire a]) m (.ok none) ds m' →
    Connecting c abort m
      (.error (.failed (.aborted "aborted while acquiring a connection"))) ds m'
  | givenUp {halt ds m'} : c.transaction = none →
    Raced abort (fun a ds => ds = [.asked m .acquire a]) m (.error halt) ds m' →
    Connecting c abort m (.error halt) ds m'

section
variable {c : Client} {m m' conn : ℕ} {ds : List Deed}

/-- A connection is come by. -/
theorem Connecting.unaborted (h : Connecting c none m (.ok conn) ds m') :
    (c.transaction = some conn ∧ ds = []) ∨
      c.transaction = none ∧ ∃ a w, ds = [.asked m .acquire a, .held m' conn] ∧
        a.wait = some w ∧ m' = m + w ∧ a.result = .ok .done := by
  cases h with
  | shared hconn _ => exact Or.inl ⟨hconn, rfl⟩
  | acquired hc hraced =>
    obtain ⟨a, w, rfl, hw, hm, hresult⟩ := hraced.unaborted
    exact Or.inr ⟨hc, a, w, rfl, hw, hm, (Option.some.inj hresult).symm⟩

/-- No connection is come by. -/
theorem Connecting.unaborted_error {e : Error}
    (h : Connecting c none m (.error (.failed e)) ds m') :
    c.transaction = none ∧ ∃ a w, ds = [.asked m .acquire a] ∧ a.wait = some w ∧ m' = m + w ∧
      a.result = .error e := by
  cases h with
  | refusedShared _ ht _ => cases ht
  | refused hc hraced =>
    obtain ⟨a, w, rfl, hw, hm, hresult⟩ := hraced.unaborted
    exact ⟨hc, a, w, rfl, hw, hm, (Option.some.inj hresult).symm⟩
  | stopped _ hraced =>
    obtain ⟨_, _, _, _, _, hnone⟩ := hraced.unaborted
    cases hnone
  | givenUp _ hraced => cases hraced with | givenUp _ hgiven => cases hgiven

/-- The call is given up while it waits for a connection. -/
theorem Connecting.unaborted_halt {halt : Halt} (h : Connecting c none m (.error halt) ds m')
    (hfailed : ∀ e, halt ≠ .failed e) : halt.givenUp ∧ ∃ a, ds = [.asked m .acquire a] := by
  cases h with
  | refusedShared | refused | stopped => exact absurd rfl (hfailed _)
  | givenUp _ hraced =>
    cases hraced with | givenUp hasks hgiven => exact ⟨hgiven, _, hasks⟩

end

/-- How the time of statements is limited; a failure does not matter. -/
inductive Limiting (c : Client) (conn m : ℕ) : Account Unit
  | unlimited : c.config.safety.statementTimeout = none → Limiting c conn m (.ok ()) [] m
  | answered {limit a w} : c.config.safety.statementTimeout = some limit → a.wait = some w →
    Limiting c conn m (.ok ()) [.asked m (c.timeLimit conn limit) a] (m + w)
  | givenUp {limit a halt m'} : c.config.safety.statementTimeout = some limit → halt.givenUp →
    m ≤ m' → (∀ w ∈ a.wait, halt ≠ .stuck ∧ m' < m + w) →
    Limiting c conn m (.error halt) [.asked m (c.timeLimit conn limit) a] m'

namespace Client

variable {env : Env σ} {m : ℕ} {c : Client} {conn : ℕ} {abort : Option ℕ}

theorem acts_connection : Acts env m (c.connection abort) (Connecting c abort m) := by
  unfold connection
  split
  · next conn hconn =>
    have hask : Acts env m (pure (.now (.ok conn)) : Run σ (Answer ℕ)) fun o ds m' =>
        ∃ a, o = .ok a ∧ (a = .now (.ok conn) ∧ ds = []) ∧ m' = m :=
      .pure ⟨_, rfl, ⟨rfl, rfl⟩, rfl⟩
    refine acts_race (fun a ds => a = .now (.ok conn) ∧ ds = []) hask
      (fun o ds m₁ h => ?_) (fun ds m₁ h => ?_) fun halt ds m₁ h => ?_
    · cases h with | answered hasks hearly hw =>
      obtain ⟨rfl, rfl⟩ := hasks
      cases hw
      exact .pure (.shared hconn fun t ht => (hearly t ht).1)
    · cases h with
      | late ht hle => exact .throw trivial (.refusedShared hconn ht hle)
      | stopped hasks _ hlt hlonger =>
        obtain ⟨rfl, rfl⟩ := hasks
        exact absurd (hlonger 0 rfl) (by omega)
    · cases h with | givenUp hasks _ hle _ hbefore =>
      obtain ⟨rfl, rfl⟩ := hasks
      exact absurd (hbefore 0 rfl).2 (by omega)
  · next hconn =>
    have hask : Acts env m (request [.acquiring] Source.acquire : Run σ (Answer Unit)) _ :=
      acts_request (r := .acquire) (fun _ => .done) (fun _ => rfl) fun _ h => h
    refine acts_race (fun a ds => ds = [.asked m .acquire (a.map fun _ => .done)]) hask
      (fun o ds m₁ h => ?_) (fun ds m₁ h => ?_) fun halt ds m' h => .givenUp hconn h.map
    · cases o with
      | ok u =>
        refine .modifyGet ?_
        rintro s rfl
        exact ⟨_, _, .single .holds, .acquired hconn h.map⟩
      | error e =>
        refine (acts_log rfl).still_bind fun _ => .throw trivial ?_
        rw [List.append_nil]
        exact .refused hconn h.map
    · refine .throw trivial ?_
      rw [List.append_nil]
      exact .stopped hconn h.map

theorem acts_limitTime (limit : Duration) :
    Acts env m (limitTime conn limit c.inTransaction : Run σ Unit) fun o ds m' =>
      ∃ (a : Answer (List Row)) (o' : Except Halt (List Row)), Awaits a m o' [] m' ∧
        ds = [.asked m (c.timeLimit conn limit) (a.map .rows)] ∧ o = o'.map fun _ => () := by
  have hrequest : Acts env m (query conn limitStatement
      [.text (toString limit.millis ++ "ms"), .bool c.inTransaction]) _ :=
    acts_request (r := c.timeLimit conn limit) .rows (fun _ => rfl) fun _ h => h
  refine hrequest.bind (fun a ds m₁ h => ?_) fun _ _ _ ⟨_, h, _⟩ => nomatch h
  obtain ⟨a', ho, rfl, rfl⟩ := h
  cases ho
  refine (acts_await a).bind (fun rows ds m' h => ?_) fun halt ds m' h => ?_
  · obtain rfl := h.deeds_eq
    exact .pure ⟨a, .ok rows, h, rfl, rfl⟩
  · obtain rfl := h.deeds_eq
    exact ⟨a, .error halt, h, rfl, rfl⟩

theorem acts_applyLimit : Acts env m (c.applyLimit conn : Run σ Unit) (Limiting c conn m) := by
  unfold applyLimit
  split
  · next hnone => exact .pure (.unlimited hnone)
  · next limit hlimit =>
    refine (acts_limitTime limit).attempt_bind (fun o ds m' h => ?_) fun halt ds m' hfailed h => ?_
    · obtain ⟨a, o', hawaits, rfl, ho⟩ := h
      have hlimited : Limiting c conn m (.ok ()) [.asked m (c.timeLimit conn limit) (a.map .rows)]
          m' := by
        cases hawaits with
        | past hw => exact .answered hlimit hw
        | givenUp hgiven _ _ =>
          cases o with
          | ok _ => cases ho
          | error e =>
            cases ho
            cases hgiven
      cases o with
      | ok _ =>
        refine .pure ?_
        rw [List.append_nil]
        exact hlimited
      | error e =>
        refine (acts_trace _).mono fun o ds' m'' h' => ?_
        obtain ⟨⟨_, rfl⟩, rfl, rfl⟩ := h'
        rw [List.append_nil]
        exact hlimited
    · obtain ⟨a, o', hawaits, rfl, ho⟩ := h
      cases hawaits with
      | past _ =>
        cases hresult : a.result with
        | ok _ =>
          rw [hresult] at ho
          cases ho
        | error e =>
          rw [hresult] at ho
          cases ho
          exact absurd rfl (hfailed e)
      | givenUp hgiven hle hbefore =>
        cases ho
        exact .givenUp hlimit hgiven hle hbefore

end Client

/-! ## Leases -/

namespace Lease

/-- The call lets go of the connection, which a transaction keeps. -/
def letsGo (l : Lease) (m : ℕ) : List Deed := if l.shared then [] else [.letGo m l.conn]

/-- What is to be done is left to a cleanup, if there is anything. -/
def discards (l : Lease) (m : ℕ) : List Deed :=
  (if (cleanupSteps l.cancel l.reset).isEmpty then []
    else [.left m l.conn (cleanupSteps l.cancel l.reset)]) ++ l.letsGo m

/-- What is done under a lease that is discarded if that is halted. -/
inductive Guarding (l : Lease) (B : Account α) : Account α
  | ended {a ds m'} : B (.ok a) ds m' → Guarding l B (.ok a) ds m'
  | halted {halt ds m'} : B (.error halt) ds m' →
    Guarding l B (.error halt) (ds ++ l.discards m') m'

/-- How a lease ends. -/
inductive Releasing (l : Lease) (interrupted : Bool) (m : ℕ) : Account Unit
  | past {ds m'} : Cleaning l.conn (cleanupSteps interrupted l.reset) m (.ok ()) ds m' →
    Releasing l interrupted m (.ok ()) (ds ++ l.letsGo m') m'
  /-- The call is given up, and the rest is left to a cleanup. -/
  | givenUp {halt ds m'} :
    Cleaning l.conn (cleanupSteps interrupted l.reset) m (.error halt) ds m' →
    Releasing l interrupted m (.error halt) (ds ++ l.discards m') m'

/-- What is done under a lease that ends then. -/
inductive Using (l : Lease) (B : Account α) : Account α
  /-- The call is given up. -/
  | halted {halt ds m'} : (∀ e, halt ≠ .failed e) → B (.error halt) ds m' →
    Using l B (.error halt) (ds ++ l.discards m') m'
  | released {o : Except Error α} {ds m₁ ds' m'} : B (o.mapError .failed) ds m₁ →
    l.Releasing false m₁ (.ok ()) ds' m' → Using l B (o.mapError .failed) (ds ++ ds') m'
  /-- The call is given up while the lease ends. -/
  | givenUp {o : Except Error α} {ds m₁ halt ds' m'} : B (o.mapError .failed) ds m₁ →
    l.Releasing false m₁ (.error halt) ds' m' → Using l B (.error halt) (ds ++ ds') m'

variable {env : Env σ} {m : ℕ} {l : Lease}

/-- Where the lease comes to its end, the call is not given up. -/
theorem Using.of_ended {B : Account α} {o : Except Error α} {ds : List Deed} {m' : ℕ}
    (h : l.Using B (o.mapError .failed) ds m') :
    ∃ ds₁ m₁ ds₂, ds = ds₁ ++ ds₂ ∧ B (o.mapError .failed) ds₁ m₁ ∧
      l.Releasing false m₁ (.ok ()) ds₂ m' := by
  generalize ho : o.mapError Halt.failed = o' at h
  cases h with
  | halted hfailed _ =>
    cases o with
    | ok _ => cases ho
    | error e =>
      cases ho
      exact absurd rfl (hfailed e)
  | released hB hreleasing =>
    obtain rfl := mapError_failed_inj ho
    exact ⟨_, _, _, rfl, hB, hreleasing⟩
  | givenUp _ hreleasing =>
    cases hreleasing with | givenUp hcleaning =>
    exact absurd ho (mapError_failed_ne (hcleaning.givenUp_of_error rfl))

theorem acts_letGo : Acts env m (l.letGo : Run σ Unit) fun o ds m' =>
    o = .ok () ∧ ds = l.letsGo m ∧ m' = m := by
  unfold letGo letsGo
  cases l.shared
  · exact acts_modify_letGo l.conn
  · exact .pure ⟨rfl, rfl, rfl⟩

theorem acts_discard : Acts env m (l.discard : Run σ Unit) fun o ds m' =>
    o = .ok () ∧ ds = l.discards m ∧ m' = m := by
  unfold discard discards
  dsimp only
  by_cases hsteps : (cleanupSteps l.cancel l.reset).isEmpty
  · rw [hsteps]
    exact acts_letGo
  · have hleaves : Acts env m
        (modify (·.spawn l.conn (cleanupSteps l.cancel l.reset)) : Run σ Unit) fun o ds m' =>
          o = .ok () ∧ ds = [.left m l.conn (cleanupSteps l.cancel l.reset)] ∧ m' = m := by
      refine .modify ?_
      rintro s rfl
      exact ⟨_, _, .single .leaves, rfl, rfl, rfl⟩
    rw [if_neg hsteps, Bool.eq_false_iff.2 hsteps]
    refine hleaves.bind (fun _ ds m₁ h => ?_) fun _ _ _ h => nomatch h.1
    obtain ⟨-, rfl, rfl⟩ := h
    refine acts_letGo.mono fun o ds' m' h => ?_
    obtain ⟨rfl, rfl, rfl⟩ := h
    exact ⟨rfl, rfl, rfl⟩

/-- A run under a lease that is discarded if the run is halted. -/
theorem acts_onHalt {r : Run σ α} {B : Account α} (h : Acts env m r B) :
    Acts env m (r.onHalt l.discard) (l.Guarding B) :=
  h.onHalt (fun _ => acts_discard) (fun _ _ _ => .ended) fun _ _ _ => .halted

theorem acts_release (interrupted : Bool) :
    Acts env m (l.release interrupted : Run σ Unit) (l.Releasing interrupted m) := by
  unfold release
  refine (acts_onHalt (acts_cleanUp _)).bind (fun _ ds m₁ h => ?_) fun halt ds m' h => ?_
  · cases h with | ended h =>
    refine acts_letGo.mono fun o ds' m' h' => ?_
    obtain ⟨rfl, rfl, rfl⟩ := h'
    exact .past h
  · cases h with | halted h => exact .givenUp h

/-- **What is done under a lease.** -/
theorem acts_use {r : Run σ α} {B : Account α} (h : Acts env m r B) :
    Acts env m (l.use r) (l.Using B) := by
  unfold use
  refine (acts_onHalt h.attempt).bind (fun o ds m₁ h => ?_) fun halt ds m' h => ?_
  · cases h with | ended h =>
    cases h with | ended hB =>
    refine (acts_release false).bind (fun _ ds' m' h' => .ofExcept ?_) fun halt ds' m' h' => ?_
    · rw [List.append_nil]
      exact .released hB h'
    · exact .givenUp hB h'
  · cases h with | halted h =>
    cases h with | halted hfailed hB => exact .halted hfailed hB

end Lease

end QueryClient.Session
