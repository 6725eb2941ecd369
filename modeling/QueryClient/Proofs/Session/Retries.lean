/-
  Attempts that follow each other.

  A call that executes a query makes attempts until one of them succeeds or fails for good, or there
  have been as many as the settings allow.  In a transaction there is one.  Every attempt returns
  its connection before the delay that follows it.

  * `Replied`: the requests of an attempt, and what it comes to by their answers;
  * `Trial` and `Pauses`: an attempt and a delay, between two states;
  * `Retried`: attempts with the delays between them;
  * `retried_until_lasting`: what a call comes to that nobody gives up.
-/
import QueryClient.Proofs.Session.Answered
import QueryClient.Proofs.Session.Restored
import QueryClient.Proofs.Session.StreamProtocol

namespace QueryClient.Session

open Run

variable {σ : Type}

/-! ## What attempts are -/

/-- There can be another attempt after an attempt that came to this. -/
def Passing (o : Except Error Outcome) : Prop := ∃ e, o = .error e ∧ e.isRetriable

/-- How an attempt comes by a connection: by that of its transaction, or by a request for one. -/
inductive Connects (c : Client) (conn : ℕ) (entries : List Entry) : List Inquiry → Prop
  | inside : c.transaction = some conn → Connects c conn entries []
  | outside {m a m' y} : c.transaction = none → a.result = .ok y →
    .noted m' (.acquired conn) ∈ entries → Connects c conn entries [⟨m, .acquire, a⟩]

/-- The requests of an attempt, and what it comes to by their answers. -/
inductive Replied (c : Client) (q : Query) (statement : Statement) (entries : List Entry) :
    Except Error Outcome → Prop
  /-- There is no connection. -/
  | refused {m a e} : c.transaction = none → inquiries entries = [⟨m, .acquire, a⟩] →
    a.result = .error e → Replied c q statement entries (.error e)
  /-- The statement of the query is sent, and decides. -/
  | answered {conn opening limits i counting o} :
    inquiries entries = opening ++ (limits ++ i :: counting) → Connects c conn entries opening →
    limits.map Inquiry.request = (c.config.safety.statementTimeout.map (c.timeLimit conn)).toList →
    i.request = statement.request (Client.statementKind q) conn → Recounts c q conn counting →
    Decided c q counting i.answer.result o → Replied c q statement entries o

/-- A connection is acquired, and then released, after its session is restored if it was limited. -/
def Returned (c : Client) (conn : ℕ) (entries : List Entry) : Prop :=
  ∃ front m₁ mid m₂ back, entries = front ++ .noted m₁ (.acquired conn) ::
      (mid ++ .noted m₂ (.released conn) :: back) ∧ (c.limitsSession → Restores conn m₂ mid)

/-- An attempt between two states, and what it comes to. -/
structure Trial (source : Source σ) (c : Client) (q : Query) (statement : Statement) (s : State σ)
    (o : Except Error Outcome) (entries : List Entry) (s' : State σ) : Prop where
  chronicles : Chronicles source s entries s'
  replied : Replied c q statement entries o
  answered : ∀ i ∈ inquiries entries, i.AnsweredBy s'.now
  returned : ∀ m conn, .noted m (.acquired conn) ∈ entries → Returned c conn entries

/-- A delay between two states. -/
structure Pauses (source : Source σ) (delay : Duration) (s : State σ) (entries : List Entry)
    (s' : State σ) : Prop where
  chronicles : Chronicles source s entries s'
  idle : inquiries entries = []
  lasts : s'.now = s.now + delay.nanos

/-- Attempts, of which the first one has a number, with the delays between them. -/
inductive Retried (source : Source σ) (c : Client) (q : Query) (statement : Statement) :
    ℕ → State σ → List (Except Error Outcome) → List Entry → State σ → Prop
  | last {number s o entries s'} : Trial source c q statement s o entries s' →
    Retried source c q statement number s [o] entries s'
  | again {number s o entries s₁ pause s₂ os rest s'} :
    Trial source c q statement s o entries s₁ →
    Pauses source (c.config.retry.delayFor number) s₁ pause s₂ →
    Retried source c q statement (number + 1) s₂ os rest s' →
    Retried source c q statement number s (o :: os) (entries ++ (pause ++ rest)) s'

/-- The connections that are in use have been handed out. -/
def State.Numbered (s : State σ) : Prop :=
  (∀ conn ∈ s.held, conn ≤ s.connections) ∧ s.Sound

section
variable {source : Source σ} {s s' : State σ} {deed : Option Deed} {ds : List Deed}
  {entries : List Entry} {conn m m' : ℕ}

/-! ## Connections in use -/

theorem Moves.held_le (h : Moves source s deed entries s')
    (hs : ∀ conn ∈ s.held, conn ≤ s.connections) : ∀ conn ∈ s'.held, conn ≤ s'.connections := by
  cases h with
  | holds =>
    intro conn hconn
    rcases List.mem_cons.1 hconn with rfl | hconn
    · exact Nat.le_refl _
    · exact (hs conn hconn).trans (Nat.le_succ _)
  | letsGo _ | frees _ _ => exact fun conn hconn => hs conn (List.mem_of_mem_erase hconn)
  | _ => exact hs

/-- Deeds that leave nothing to a cleanup. -/
theorem Moves.numbered (h : Moves source s deed entries s') (hs : s.Numbered)
    (hdeed : LeavesNothing deed.toList) : s'.Numbered := by
  refine ⟨h.held_le hs.1, ?_⟩
  have hcleanups := hs.2
  cases h with
  | starts hc =>
    exact forall_mem_replace [_] hcleanups hc fun hc d hd => by rwa [List.mem_singleton.1 hd]
  | answered hc _ =>
    exact forall_mem_replace [_] hcleanups hc fun hc d hd => by rwa [List.mem_singleton.1 hd]
  | ends hc _ | releases hc _ _ =>
    exact forall_mem_replace [] hcleanups hc fun _ => List.forall_mem_nil _
  | holds => exact fun c hc => (hcleanups c hc).trans (Nat.le_succ _)
  | leaves => exact absurd List.mem_cons_self (hdeed _ _ _)
  | passes _ | notes _ | closes | asks | letsGo _ | frees _ _ => exact hcleanups

theorem Passage.numbered (h : Passage source s ds entries s') (hs : s.Numbered)
    (hds : LeavesNothing ds) : s'.Numbered := by
  induction h with
  | refl => exact hs
  | head hmove _ ih =>
    exact ih (hmove.numbered hs fun m conn steps hmem => hds m conn steps
      (List.mem_append_left _ hmem)) fun m conn steps hmem => hds m conn steps
        (List.mem_append_right _ hmem)

theorem Passage.held_le (h : Passage source s ds entries s')
    (hs : ∀ conn ∈ s.held, conn ≤ s.connections) : ∀ conn ∈ s'.held, conn ≤ s'.connections := by
  induction h with
  | refl => exact hs
  | head hmove _ ih => exact ih (hmove.held_le hs)

/-- In every state that calls lead to, the connections in use have been handed out. -/
theorem Reached.numbered {streams : List RowStream} (h : Reached source s streams) :
    s.Numbered := by
  obtain ⟨st, ds, entries, hreached⟩ := h.reachedBy
  exact ⟨hreached.passage.held_le (List.forall_mem_nil _), h.sound⟩

/-- All that is done is to ask for something. -/
def Asking (ds : List Deed) : Prop := ∀ d ∈ ds, ∃ m r a, d = .asked m r a

theorem Asking.append {ds' : List Deed} (h : Asking ds) (h' : Asking ds') : Asking (ds ++ ds') :=
  List.forall_mem_append.2 ⟨h, h'⟩

theorem Asking.held_notMem (h : Asking ds) (m conn : ℕ) : .held m conn ∉ ds := by
  intro hd
  obtain ⟨_, _, _, he⟩ := h _ hd
  cases he

/-- Requests do not change which connections calls hold. -/
theorem Asking.foldl_holding (h : Asking ds) (held : List ℕ) :
    ds.foldl Deed.holding held = held := by
  induction ds with
  | nil => rfl
  | cons d ds ih =>
    obtain ⟨m, r, a, rfl⟩ := h d List.mem_cons_self
    exact ih fun d hd => h d (List.mem_cons_of_mem _ hd)

end

/-! ## Attempts between two states -/

section
variable {env : Env σ} {source : Source σ} {c : Client} {q : Query} {statement : Statement}
  {s s' : State σ} {conn m m₁ m' : ℕ} {abort : Option ℕ} {o : Except Error Outcome}
  {ds : List Deed} {entries : List Entry}

theorem Cleaning.asked {steps : List CleanupStep} {o : Except Halt Unit}
    (h : Cleaning conn steps m o ds m') : Asking ds := by
  induction h with
  | done => exact List.forall_mem_nil _
  | answered _ _ ih => exact List.forall_mem_cons.2 ⟨⟨_, _, _, rfl⟩, ih⟩
  | givenUp _ _ _ => exact List.forall_mem_singleton.2 ⟨_, _, _, rfl⟩

/-- A session is restored. -/
theorem Cleaning.restored (h : Cleaning conn (cleanupSteps false true) m (.ok ()) ds m') :
    ∃ a w, ds = [.asked m (resetRequest conn) a] ∧ a.wait = some w ∧ m' = m + w := by
  cases h with | answered hw hdone =>
  cases hdone
  exact ⟨_, _, rfl, hw, rfl⟩

/-- What is done on a connection only asks for something. -/
theorem Working.asked {o : Except Halt Outcome}
    (hs : Statement.compile c.config.safety q = .ok statement)
    (h : Working c conn q statement none m o ds m') : Asking ds := by
  have hlimiting : ∀ {o ds m'}, Limiting c conn m o ds m' → Asking ds := by
    intro o ds m' h
    cases h with
    | unlimited _ => exact List.forall_mem_nil _
    | answered _ _ | givenUp _ _ _ _ => exact List.forall_mem_singleton.2 ⟨_, _, _, rfl⟩
  cases h with
  | unlimited h => exact hlimiting h
  | limited h hrunning =>
    refine (hlimiting h).append fun d hd => ?_
    obtain ⟨m, r, a, rfl, -⟩ := (hrunning.asks hs).asks d hd
    exact ⟨m, r, a, rfl⟩

/-- The end of a lease comes by no connection. -/
theorem Lease.Releasing.held_notMem {l : Lease} (h : l.Releasing false m (.ok ()) ds m')
    (conn : ℕ) : .held m₁ conn ∉ ds := by
  cases h with | past hcleaning =>
  intro hd
  rcases List.mem_append.1 hd with hd | hd
  · exact hcleaning.asked.held_notMem _ _ hd
  · unfold letsGo at hd
    split at hd
    · cases hd
    · cases List.mem_singleton.1 hd

/-- A connection that is acquired, used and let go of is returned. -/
theorem Passage.returned {dsw dsr : List Deed} {a : Answer Yield} {m₂ : ℕ} {cancel : Bool}
    (h : Passage source s ([.asked m .acquire a, .held m₁ conn] ++ (dsw ++ dsr)) entries s')
    (hs : s.Numbered) (hc : c.transaction = none) (hdsw : Asking dsw)
    (hreleasing : (c.lease conn cancel).Releasing false m₂ (.ok ()) dsr m') :
    Returned c conn entries := by
  have hshared : (c.lease conn cancel).shared = false := by
    simp [Client.lease, Client.inTransaction, hc]
  cases hreleasing with | @past cs _ hcleaning =>
  have hletsGo : (c.lease conn cancel).letsGo m' = [.letGo m' conn] := by
    rw [Lease.letsGo, hshared]
    rfl
  have hbetween : Asking (dsw ++ cs) := hdsw.append hcleaning.asked
  have hpassage : Passage source s ([.asked m .acquire a] ++ .held m₁ conn ::
      ((dsw ++ cs) ++ .letGo m' conn :: [])) entries s' := by simpa [hletsGo] using h
  obtain ⟨s₁, s₂, xs, x, ys, hacquire, hholds, hrest, rfl⟩ := hpassage.split
  obtain ⟨t₁, t₂, ys₁, y, ys₂, hused, hgone, -, rfl⟩ := hrest.split
  have hnumbered : s₁.Numbered :=
    hacquire.numbered hs fun _ _ _ hd => by cases List.mem_singleton.1 hd
  cases hholds with | holds =>
  -- Neither a call nor a cleanup had the new connection before.
  have hheld : t₁.held = (s₁.connections + 1) :: s₁.held := by
    rw [hused.held_eq, hbetween.foldl_holding]
    rfl
  have hundisturbed : t₁.Undisturbed (s₁.connections + 1) := by
    refine hused.undisturbed (fun cl hcl he => ?_) fun m' steps hd => ?_
    · have := hnumbered.2 cl hcl
      omega
    · obtain ⟨_, _, _, he⟩ := hbetween _ hd
      cases he
  have hnew : s₁.connections + 1 ∉ t₁.held.erase (s₁.connections + 1) := by
    rw [hheld, List.erase_cons_head]
    intro hmem
    have := hnumbered.1 _ hmem
    omega
  cases hgone with
  | letsGo hstill =>
    rcases hstill with hmem | ⟨cl, hcl, he⟩
    · exact absurd hmem hnew
    · exact absurd he (hundisturbed cl hcl)
  | frees _ _ =>
    refine ⟨xs, _, ys₁, _, ys₂, rfl, fun hlimits => ?_⟩
    have hreset : (c.lease (s₁.connections + 1) cancel).reset = true := hlimits
    rw [hreset] at hcleaning
    obtain ⟨a', w, rfl, hw, he⟩ := hcleaning.restored
    exact ⟨_, a', hused.entry_mem (List.mem_append_right _ List.mem_cons_self) rfl, w, hw, he.ge⟩

/-- An attempt that is refused a connection. -/
theorem trial_of_refused {a : Answer Yield} {w : ℕ} {e : Error}
    (hpassage : Passage source s [.asked s.now .acquire a] entries s') (hc : c.transaction = none)
    (hw : a.wait = some w) (hend : s'.now = s.now + w) (hresult : a.result = .error e) :
    Trial source c q statement s (.error e) entries s' := by
  have hsingle : inquiries entries = [⟨s.now, .acquire, a⟩] := hpassage.inquiries
  refine ⟨hpassage.chronicles, .refused hc hsingle hresult, fun i hi => ?_, fun m conn hm => ?_⟩
  · rw [hsingle] at hi
    rw [List.mem_singleton.1 hi]
    exact ⟨w, hw, hend.ge⟩
  · cases List.mem_singleton.1 (hpassage.held_of_acquired hm)

/-- An attempt that comes by a connection and uses it. -/
theorem trial_of_connected {dsc dsu : List Deed} {cancel : Bool}
    (hs : Statement.compile c.config.safety q = .ok statement) (hnumbered : s.Numbered)
    (hpassage : Passage source s (dsc ++ dsu) entries s')
    (hconnecting : Connecting c none s.now (.ok conn) dsc m₁)
    (husing : (c.lease conn cancel).Using (Working c conn q statement none m₁) (o.mapError .failed)
      dsu s'.now) :
    Trial source c q statement s o entries s' := by
  obtain ⟨dsw, m₂, dsr, rfl, hworking, hreleasing⟩ := husing.of_ended
  obtain ⟨hle, limits, i, counting, hinquired, hlimits, hrequest, hrecounts, hdecided⟩ :=
    hworking.inquired
  obtain ⟨hle', hquiet, -⟩ := hreleasing.quiet rfl
  have hreleased : Inquired dsr s'.now [] := ⟨hquiet, List.forall_mem_nil _⟩
  have hworked : Inquired (dsw ++ dsr) s'.now (limits ++ i :: counting) := by
    have happend := hinquired.append hreleased hle'
    rwa [List.append_nil] at happend
  have hnone : ∀ m conn', .held m conn' ∉ dsw ++ dsr := by
    intro m conn' hd
    rcases List.mem_append.1 hd with hd | hd
    · exact (hworking.asked hs).held_notMem _ _ hd
    · exact hreleasing.held_notMem conn' hd
  -- It only matters how the connection was come by, and whether it is returned.
  have htrial : ∀ {opening}, Inquired dsc m₁ opening → Connects c conn entries opening →
      (∀ m conn', .held m conn' ∈ dsc → Returned c conn' entries) →
      Trial source c q statement s o entries s' := by
    intro opening hopening hconnects hreturned
    have hall := hopening.append hworked (hle.trans hle')
    have hinquiries := hpassage.inquiries.trans hall.1
    refine ⟨hpassage.chronicles, .answered hinquiries hconnects hlimits hrequest hrecounts hdecided,
      fun j hj => hall.2 j (hinquiries ▸ hj), fun m conn' hm => ?_⟩
    rcases List.mem_append.1 (hpassage.held_of_acquired hm) with hd | hd
    · exact hreturned m conn' hd
    · exact absurd hd (hnone m conn')
  rcases hconnecting.unaborted with ⟨hc, rfl⟩ | ⟨hc, a, w, rfl, hw, rfl, hresult⟩
  · exact htrial ⟨rfl, List.forall_mem_nil _⟩ (.inside hc) fun _ _ hd =>
      absurd hd List.not_mem_nil
  · have hopened : Inquired [Deed.asked s.now .acquire a, .held (s.now + w) conn] (s.now + w)
        [⟨s.now, .acquire, a⟩] := by
      refine ⟨rfl, fun j hj => ?_⟩
      rw [List.mem_singleton.1 hj]
      exact ⟨w, hw, Nat.le_refl _⟩
    have hheld := hpassage.entry_mem (d := .held (s.now + w) conn)
      (List.mem_append_left _ (List.mem_cons_of_mem _ List.mem_cons_self)) rfl
    refine htrial hopened (.outside hc hresult hheld) fun m conn' hd => ?_
    obtain ⟨-, rfl⟩ : m = s.now + w ∧ conn' = conn := by simpa using hd
    exact hpassage.returned hnumbered hc (hworking.asked hs) hreleasing

/-- **An attempt** that comes to its end. -/
theorem trial_attempt (hs : Statement.compile c.config.safety q = .ok statement)
    (hnumbered : s.Numbered)
    (h : (c.attempt q statement none).exec env s = (o.mapError .failed, s')) :
    s'.Numbered ∧ ∃ entries, Trial env.source c q statement s o entries s' := by
  have hacts : Acts env s.now (c.attempt q statement none) (Attempting c q statement none s.now) :=
    Client.acts_attempt q statement
  obtain ⟨ds, entries, hpassage, hattempting⟩ := hacts.passes s rfl
  rw [h] at hpassage hattempting
  refine ⟨hpassage.numbered hnumbered (hattempting.concluded hs).leavesNothing, entries, ?_⟩
  generalize ho : o.mapError Halt.failed = o' at hattempting
  generalize hend : s'.now = m' at hattempting
  cases hattempting with
  | unconnected hconnecting =>
    cases o with
    | ok _ => cases ho
    | error e =>
      cases ho
      obtain ⟨hc, a, w, rfl, hw, hm, hresult⟩ := hconnecting.unaborted_error
      exact trial_of_refused hpassage hc hw (hend.trans hm) hresult
  | connected hconnecting husing =>
    subst ho hend
    exact trial_of_connected hs hnumbered hpassage hconnecting husing

/-! ## All attempts -/

/-- What comes between two attempts. -/
def Client.pause (c : Client) (q : Query) (abort : Option ℕ) (number : ℕ) (e : Error) :
    Run σ Unit := do
  c.traceRetry q.operation.name number (c.config.retry.delayFor number) e
  Client.backOff (c.config.retry.delayFor number) abort

/-- An attempt that succeeds or fails for good is the last one. -/
theorem exec_retry_of_lasting {left number : ℕ} {o : Except Halt Outcome} {s₁ : State σ}
    (h : (c.attempt q statement abort).exec env s = (o, s₁))
    (hlasting : ∀ e, o = .error (.failed e) → e.isRetriable = false) :
    (c.retry q statement abort (left + 1) number).exec env s = (o, s₁) := by
  rw [Client.retry, exec_bind, exec_attempt, h]
  rcases o with halt | outcome
  · cases halt with
    | failed e =>
      dsimp only
      rw [hlasting e rfl]
      rfl
    | dropped level => rfl
    | panicked text => rfl
    | stuck => rfl
  · rfl

/-- After one that fails for a passing reason there are others. -/
theorem exec_retry_of_passing {left number : ℕ} {e : Error} {s₁ : State σ}
    (h : (c.attempt q statement abort).exec env s = (.error (.failed e), s₁))
    (he : e.isRetriable) :
    (c.retry q statement abort (left + 1) number).exec env s =
      (do c.pause q abort number e; c.retry q statement abort left (number + 1)).exec env s₁ := by
  rw [Client.retry, exec_bind, exec_attempt, h]
  dsimp only
  rw [if_pos he, Client.pause, bind_assoc]

theorem Client.acts_pause (number : ℕ) (e : Error) :
    Acts env m (c.pause q abort number e : Run σ Unit)
      fun o ds m' => ds = [] ∧ Delaying (c.config.retry.delayFor number) abort m o [] m' :=
  (acts_trace _).still_bind fun _ => Client.acts_backOff _

theorem pauses_pause {number : ℕ} {e : Error} {o : Except Error Unit} (hnumbered : s.Numbered)
    (h : (c.pause q none number e).exec env s = (o.mapError .failed, s')) :
    o = .ok () ∧ s'.Numbered ∧
      ∃ entries, Pauses env.source (c.config.retry.delayFor number) s entries s' := by
  have hacts : Acts env s.now (c.pause q none number e) _ := Client.acts_pause number e
  obtain ⟨ds, entries, hpassage, rfl, hdelaying⟩ := hacts.passes s rfl
  rw [h] at hpassage hdelaying
  generalize ho : o.mapError Halt.failed = o' at hdelaying
  generalize hend : s'.now = m' at hdelaying
  cases hdelaying with
  | past _ =>
    have hok : o.mapError Halt.failed = (Except.ok () : Except Error Unit).mapError .failed := ho
    exact ⟨mapError_failed_inj hok, hpassage.numbered hnumbered .nil, entries,
      hpassage.chronicles, hpassage.inquiries, hend⟩
  | stopped ht _ _ => cases ht
  | givenUp hgiven _ =>
    exact absurd ho (mapError_failed_ne hgiven)

/-- Attempts that come to their end: each one but the last failed for a passing reason, and so did
the last only if there was none left. -/
theorem retried_retry (hs : Statement.compile c.config.safety q = .ok statement)
    {left number : ℕ} (hnumbered : s.Numbered)
    (h : (c.retry q statement none left number).exec env s = (o.mapError .failed, s')) :
    ∃ failures entries, Retried env.source c q statement number s (failures ++ [o]) entries s' ∧
      (∀ o' ∈ failures, Passing o') ∧ failures.length ≤ left ∧
      (Passing o → failures.length = left) := by
  have hlast : ∀ {s s' : State σ} {o : Except Error Outcome} {left number : ℕ}, s.Numbered →
      (c.attempt q statement none).exec env s = (o.mapError .failed, s') →
      (Passing o → 0 = left) → ∃ failures entries,
        Retried env.source c q statement number s (failures ++ [o]) entries s' ∧
          (∀ o' ∈ failures, Passing o') ∧ failures.length ≤ left ∧
          (Passing o → failures.length = left) := by
    intro s s' o left number hnumbered h hpassing
    obtain ⟨-, entries, htrial⟩ := trial_attempt hs hnumbered h
    exact ⟨[], entries, .last htrial, List.forall_mem_nil _, Nat.zero_le _, hpassing⟩
  induction left generalizing s number with
  | zero => exact hlast hnumbered h fun _ => rfl
  | succ left ih =>
    rcases hattempt : (c.attempt q statement none).exec env s with ⟨o₁, s₁⟩
    by_cases hpassing : ∃ e, o₁ = .error (.failed e) ∧ e.isRetriable
    · obtain ⟨e, rfl, he⟩ := hpassing
      obtain ⟨hnumbered₁, entries, htrial⟩ := trial_attempt (o := .error e) hs hnumbered hattempt
      rw [exec_retry_of_passing hattempt he, exec_bind] at h
      rcases hpause : (c.pause q none number e).exec env s₁ with ⟨halt | u, s₂⟩
      · rw [hpause] at h
        obtain ⟨ho, -⟩ := Prod.mk.inj h
        cases o with
        | ok _ => cases ho
        | error e' =>
          cases ho
          cases (pauses_pause (o := .error e') hnumbered₁ hpause).1
      · rw [hpause] at h
        obtain ⟨-, hnumbered₂, pause, hpauses⟩ := pauses_pause (o := .ok ()) hnumbered₁ hpause
        obtain ⟨failures, rest, hretried, hfailures, hle, hlasting⟩ := ih hnumbered₂ h
        exact ⟨.error e :: failures, _, .again htrial hpauses hretried,
          List.forall_mem_cons.2 ⟨⟨e, rfl, he⟩, hfailures⟩, Nat.succ_le_succ hle,
          fun hp => congrArg Nat.succ (hlasting hp)⟩
    · rw [exec_retry_of_lasting hattempt fun e he => by simpa [he] using hpassing] at h
      cases h
      exact hlast hnumbered hattempt fun ⟨e, he, hretriable⟩ =>
        absurd ⟨e, by rw [he]; rfl, hretriable⟩ hpassing

/-! ## What a call comes to -/

theorem Retried.chronicles {number : ℕ} {os : List (Except Error Outcome)}
    (h : Retried source c q statement number s os entries s') : Chronicles source s entries s' := by
  induction h with
  | last htrial => exact htrial.chronicles
  | again htrial hpauses _ ih => exact htrial.chronicles.append (hpauses.chronicles.append ih)

/-- An attempt outside a transaction asks for one connection. -/
theorem Replied.attemptsIn_eq (h : Replied c q statement entries o) :
    attemptsIn (inquiries entries) = if c.inTransaction then 0 else 1 := by
  cases h with
  | refused hc hsingle _ =>
    rw [hsingle]
    simp [Client.inTransaction, hc, attemptsIn, Inquiry.isAcquire]
  | @answered conn opening limits i counting _ hsplit hconnects hlimits hrequest hrecounts _ =>
    have hnone : (limits ++ i :: counting).countP Inquiry.isAcquire = 0 := by
      refine countP_isAcquire_eq_zero fun j hj => ?_
      rcases List.mem_append.1 hj with hj | hj
      · have hmem := List.mem_map_of_mem (f := Inquiry.request) hj
        rw [hlimits] at hmem
        obtain ⟨limit, -, he⟩ := Option.map_eq_some_iff.1 (Option.mem_toList.1 hmem)
        exact he ▸ Request.noConfusion
      · rcases List.mem_cons.1 hj with rfl | hj
        · exact hrequest ▸ Request.noConfusion
        · cases hrecounts with
          | none => cases hj
          | once _ _ hcounting =>
            rw [List.mem_singleton.1 hj]
            exact hcounting ▸ Request.noConfusion
    rw [hsplit, attemptsIn, List.countP_append, hnone]
    cases hconnects with
    | inside hc => simp [Client.inTransaction, hc]
    | outside hc _ _ => simp [Client.inTransaction, hc, Inquiry.isAcquire]

theorem Retried.attemptsIn_eq {number : ℕ} {os : List (Except Error Outcome)}
    (h : Retried source c q statement number s os entries s') :
    attemptsIn (inquiries entries) = if c.inTransaction then 0 else os.length := by
  induction h with
  | last htrial => exact htrial.replied.attemptsIn_eq
  | again htrial hpauses _ ih =>
    rw [inquiries_append, inquiries_append, attemptsIn_append, attemptsIn_append, hpauses.idle,
      htrial.replied.attemptsIn_eq, ih]
    split
    · rfl
    · simp [attemptsIn, Nat.add_comm]

/-- What a call comes to that nobody gives up: `o` is what the last attempt came to, and `failures`
what those before it did. -/
structure Perseveres (source : Source σ) (c : Client) (q : Query) (statement : Statement)
    (s : State σ) (failures : List (Except Error Outcome)) (o : Except Error Outcome)
    (entries : List Entry) (s' : State σ) : Prop where
  /-- The attempts are made with the delays between them, and nothing is asked for after that. -/
  tried : ∃ attempts s₁ tail, entries = attempts ++ tail ∧
    Retried source c q statement 1 s (failures ++ [o]) attempts s₁ ∧
    Chronicles source s₁ tail s' ∧ inquiries tail = [] ∧ s'.now = s₁.now
  /-- Every attempt asks for one connection, unless it has that of its transaction. -/
  acquires : attemptsIn (inquiries entries) = if c.inTransaction then 0 else failures.length + 1
  /-- Another attempt only follows an error that passes. -/
  passing : ∀ o' ∈ failures, ∃ e, o' = .error e ∧ e.isRetriable ∧
    e.code ∉ [.notFound, .tooManyRows, .decode, .validation, .aborted]
  most : failures.length + 1 ≤ c.maxAttempts
  /-- There are fewer attempts only if the last one succeeded or failed for good. -/
  lasting : Passing o → failures.length + 1 = c.maxAttempts

/-- Only errors of statements and of connections pass. -/
theorem code_of_isRetriable {e : Error} (h : e.isRetriable) :
    e.code = .query ∨ e.code = .connection := by
  unfold Error.isRetriable at h
  unfold Error.code
  split at h
  · next hfailure => exact Or.inl (hfailure ▸ rfl)
  · next hfailure => exact Or.inr (hfailure ▸ rfl)
  · cases h

/-- A call that is not late makes attempts, and responds with what they come to. -/
theorem exec_execute (hs : Statement.compile c.config.safety q = .ok statement)
    (hearly : abort.any (· ≤ s.now) = false) :
    (c.execute q abort).exec env s =
      match (c.retry q statement abort (c.maxAttempts - 1) 1).exec env s with
      | (.ok outcome, s₁) => (.ok (responseOf (.ok outcome)), s₁)
      | (.error (.failed e), s₁) => (c.refuse q.operation.name (some statement.text) e).exec env s₁
      | (.error halt, s₁) => (.error halt, s₁) := by
  rw [Client.execute, exec_bind, exec_aborted, hearly]
  dsimp only
  rw [if_neg Bool.false_ne_true, hs]
  dsimp only
  rw [exec_bind, exec_attempt]
  rcases (c.retry q statement abort (c.maxAttempts - 1) 1).exec env s with
    ⟨halt | ⟨data, count⟩, s₁⟩
  · cases halt <;> rfl
  · rfl

theorem Retried.perseveres {failures : List (Except Error Outcome)} {attempts tail : List Entry}
    {s₁ : State σ} (h : Retried source c q statement 1 s (failures ++ [o]) attempts s₁)
    (hpassing : ∀ o' ∈ failures, Passing o') (hle : failures.length ≤ c.maxAttempts - 1)
    (hlasting : Passing o → failures.length = c.maxAttempts - 1)
    (htail : Passage source s₁ [] tail s') (hnow : s'.now = s₁.now) :
    Perseveres source c q statement s failures o (attempts ++ tail) s' := by
  have hmost : 1 ≤ c.maxAttempts := by
    unfold Client.maxAttempts
    split <;> omega
  have hquiet : inquiries tail = [] := htail.inquiries
  have happend : inquiries (attempts ++ tail) = inquiries attempts := by
    rw [inquiries_append, hquiet, List.append_nil]
  constructor
  case tried => exact ⟨attempts, s₁, tail, rfl, h, htail.chronicles, hquiet, hnow⟩
  case acquires => rw [happend, h.attemptsIn_eq, List.length_append, List.length_singleton]
  case passing =>
    intro o' ho'
    obtain ⟨e, rfl, he⟩ := hpassing o' ho'
    refine ⟨e, rfl, he, ?_⟩
    rcases code_of_isRetriable he with hcode | hcode <;> rw [hcode] <;> decide
  case most => omega
  case lasting =>
    intro hp
    have := hlasting hp
    omega

/-- **A call makes attempts** until one succeeds or fails for good, or there have been as many as
the settings allow, and responds with what the last one came to; unless it waits for an answer that
never comes. -/
theorem retried_until_lasting (hs : Statement.compile c.config.safety q = .ok statement)
    (hd : env.deadlines = []) (hnumbered : s.Numbered) :
    ∃ entries, Chronicles env.source s entries ((c.execute q none).exec env s).2 ∧
      ((((c.execute q none).exec env s).1 = .error .stuck ∧
          ∃ m r a, .asked m r a ∈ entries ∧ a.wait = none) ∨
        ∃ failures o, ((c.execute q none).exec env s).1 = .ok (responseOf o) ∧
          Perseveres env.source c q statement s failures o entries
            ((c.execute q none).exec env s).2) := by
  obtain ⟨ds, entries, hpassage, -, ⟨response, hresponds⟩ | ⟨hstuck, hunanswered⟩⟩ :=
    c.responds_or_waits hd q s
  · rcases hretry : (c.retry q statement none (c.maxAttempts - 1) 1).exec env s with
      ⟨halt | outcome, s₁⟩
    · obtain ⟨e, rfl⟩ : ∃ e, halt = .failed e := by
        rw [exec_execute hs rfl, hretry] at hresponds
        cases halt with
        | failed e => exact ⟨e, rfl⟩
        | _ => cases hresponds
      have hrefuse : Acts env s₁.now (c.refuse q.operation.name (some statement.text) e :
          Run σ (Response Json)) _ := Client.acts_refuse _ _ _
      obtain ⟨_, tail, htail, ho, rfl, hnow⟩ := hrefuse.passes s₁ rfl
      obtain ⟨failures, attempts, hretried, hpassing, hle, hlasting⟩ :=
        retried_retry (o := .error e) hs hnumbered hretry
      rw [exec_execute hs rfl, hretry]
      exact ⟨attempts ++ tail, hretried.chronicles.append htail.chronicles,
        Or.inr ⟨failures, .error e, ho, hretried.perseveres hpassing hle hlasting htail hnow⟩⟩
    · obtain ⟨failures, attempts, hretried, hpassing, hle, hlasting⟩ :=
        retried_retry (o := .ok outcome) hs hnumbered hretry
      have hperseveres := hretried.perseveres hpassing hle hlasting (.refl s₁) rfl
      rw [List.append_nil] at hperseveres
      rw [exec_execute hs rfl, hretry]
      exact ⟨attempts, hretried.chronicles, Or.inr ⟨failures, .ok outcome, rfl, hperseveres⟩⟩
  · obtain ⟨m, r, a, hmem, hwait⟩ := hunanswered
    exact ⟨entries, hpassage.chronicles,
      Or.inl ⟨hstuck, m, r, a, hpassage.entry_mem hmem rfl, hwait⟩⟩

end

/-! ### Two failures that pass -/

/-- A client that makes up to five attempts and limits the time of statements. -/
def insistentClient : Client where
  config := {
    safety := { statementTimeout := some (.ofMillis 1500) }
    retry := { attempts := 5 } }

/-- A server that cannot be reached at first, and then rolls a selection back. -/
def flaky : Script where
  acquires := [⟨some 3, .error ⟨.connection "ECONNREFUSED", []⟩⟩]
  queries := [⟨some 4, .error ⟨.query "could not serialize access" (some "40001"), []⟩⟩]

/-- What comes of a selection. -/
def insist : Except Halt (Response Json) × State Script :=
  (insistentClient.execute allUsers none).exec ⟨Script.source, []⟩ { source := flaky }

theorem retried_until_lasting_of_flaky :
    insist.2.history.filterMap (fun e => (Event.line? 1 e).or (Event.line? 2 e)) =
        ["SELECT set_config('statement_timeout', $1, $2)", "SELECT * FROM \"public\".\"users\"",
          "RESET statement_timeout", "released",
          "SELECT set_config('statement_timeout', $1, $2)", "SELECT * FROM \"public\".\"users\"",
          "RESET statement_timeout", "released"] ∧
      ∃ statement failures o entries,
        Statement.compile insistentClient.config.safety allUsers = .ok statement ∧
        Chronicles Script.source { source := flaky } entries insist.2 ∧
        insist.1 = .ok (responseOf o) ∧
        Perseveres Script.source insistentClient allUsers statement { source := flaky } failures o
          entries insist.2 := by
  obtain ⟨statement, hs⟩ : ∃ statement,
      Statement.compile insistentClient.config.safety allUsers = .ok statement := ⟨_, rfl⟩
  have hnumbered : ({ source := flaky } : State Script).Numbered :=
    ⟨List.forall_mem_nil _, fun (_ : Cleanup) hc => absurd hc List.not_mem_nil⟩
  have hd : (⟨Script.source, []⟩ : Env Script).deadlines = [] := rfl
  obtain ⟨entries, hchronicles, hstuck | ⟨failures, o, ho, hperseveres⟩⟩ :=
    retried_until_lasting hs hd hnumbered
  · have hresponded : insist.1.isOk := by decide +kernel
    have hstopped : insist.1 = .error .stuck := hstuck.1
    rw [hstopped] at hresponded
    cases hresponded
  · exact ⟨by decide +kernel, statement, failures, o, entries, hs, hchronicles, ho, hperseveres⟩

end QueryClient.Session
