/-
  How streams conduct themselves.

  * `Polling` and `Awaiting`: what a stream gives, at once or within some time, and what is left of
    it; at its end its lease ends, with the server asked to stop if there could have been more rows;
  * `Closing`: a stream is closed;
  * `Opening` and `Streaming`: a stream is opened, or its connection is given back;
  * `RowStream.acts_poll`, `Client.acts_stream` and the other `acts` lemmas: this is what runs do.
-/
import QueryClient.Proofs.Session.Attempts
import QueryClient.Session.RowStream

namespace QueryClient.Session

open Run

variable {σ : Type}

/-! ## Streams that are open -/

namespace RowStream

/-- What is left of a stream that has come to an end. -/
def ended (s : RowStream) : RowStream := { s with rows := [], done := true }

/-- The end of the lease of a stream; an interrupted one has the server stop. -/
def finishes (s : RowStream) (interrupted : Bool) (m : ℕ) : List Deed :=
  ({ s.lease with cancel := interrupted } : Lease).discards m

/-- What a stream gives at a moment, what is left of it, and its deeds. -/
inductive Polling (s : RowStream) (m : ℕ) : Item → RowStream → List Deed → Prop
  | past : s.done → Polling s m .ended s []
  /-- That the caller aborts counts more than a row that has come. -/
  | aborted {t} : s.done = false → s.abort = some t → t ≤ m →
    Polling s m (.failed (.aborted "stream aborted by caller")) s.ended (s.finishes true m)
  | exhausted : s.done = false → (∀ t ∈ s.abort, m < t) → s.rows = [] →
    Polling s m .ended s.ended (s.finishes false m)
  | row {answer rest r} : s.done = false → (∀ t ∈ s.abort, m < t) → s.rows = answer :: rest →
    (s.due m).any (· ≤ m) → answer.result = .ok r →
    Polling s m (.row r) { s with rows := rest, asked := none } []
  | failed {answer rest e} : s.done = false → (∀ t ∈ s.abort, m < t) → s.rows = answer :: rest →
    (s.due m).any (· ≤ m) → answer.result = .error e →
    Polling s m (.failed e) s.ended (s.finishes false m)
  | pending {answer rest} : s.done = false → (∀ t ∈ s.abort, m < t) → s.rows = answer :: rest →
    (s.due m).any (· ≤ m) = false →
    Polling s m .pending { s with asked := some (s.asked.getD m) } []

/-- What a stream gives within some time. -/
inductive Awaiting (s : RowStream) (m : ℕ) : Account (Item × RowStream)
  | polled {item s' ds} : Polling s m item s' ds → Awaiting s m (.ok (item, s')) ds m
  | waited {s₁ m' item s' ds} : Polling s m .pending s₁ [] → m ≤ m' →
    Polling s₁ m' item s' ds → Awaiting s m (.ok (item, s')) ds m'
  | givenUp {s₁ halt m'} : Polling s m .pending s₁ [] → halt.givenUp → m ≤ m' →
    Awaiting s m (.error halt) [] m'

/-- How a stream is closed. -/
inductive Closing (s : RowStream) (m : ℕ) : Account Unit
  | past : s.done → Closing s m (.ok ()) [] m
  | closed {o ds m'} : s.done = false → s.lease.Releasing true m o ds m' → Closing s m o ds m'

/-- What is done when a stream is dropped. -/
def drops (s : RowStream) (m : ℕ) : List Deed := if s.done then [] else s.finishes true m

section
variable {env : Env σ} {s : RowStream} {m : ℕ}

theorem acts_finish (interrupted : Bool) :
    Acts env m (s.finish interrupted : Run σ RowStream) fun o ds m' =>
      o = .ok s.ended ∧ ds = s.finishes interrupted m ∧ m' = m := by
  refine Lease.acts_discard.bind (fun _ ds m₁ h => ?_) fun _ _ _ h => nomatch h.1
  obtain ⟨-, rfl, rfl⟩ := h
  refine .pure ⟨rfl, ?_, rfl⟩
  exact List.append_nil _

theorem acts_poll : Acts env m (s.poll : Run σ (Item × RowStream)) fun o ds m' =>
    ∃ item s', o = .ok (item, s') ∧ Polling s m item s' ds ∧ m' = m := by
  have hfinish : ∀ (item : Item) (interrupted : Bool),
      Polling s m item s.ended (s.finishes interrupted m) →
      Acts env m (do return (item, ← s.finish interrupted) : Run σ (Item × RowStream))
        fun o ds m' => ∃ item s', o = .ok (item, s') ∧ Polling s m item s' ds ∧ m' = m := by
    intro item interrupted hpolling
    refine (acts_finish interrupted).bind (fun s' ds m₁ h => ?_) fun _ _ _ h => nomatch h.1
    obtain ⟨he, rfl, rfl⟩ := h
    cases he
    refine .pure ⟨item, s.ended, rfl, ?_, rfl⟩
    rwa [List.append_nil]
  unfold poll
  split
  · next hdone => exact .pure ⟨_, _, rfl, .past hdone, rfl⟩
  · next hdone =>
    rw [Bool.not_eq_true] at hdone
    refine .aborted_bind (fun t ht hle => hfinish _ _ (.aborted hdone ht hle)) fun hearly => ?_
    rw [if_neg Bool.false_ne_true]
    refine .now_bind ?_
    split
    · next hrows => exact hfinish _ _ (.exhausted hdone hearly hrows)
    · next answer rest hrows =>
      split
      · next hdue =>
        split
        · next r hr => exact .pure ⟨_, _, rfl, .row hdone hearly hrows hdue hr, rfl⟩
        · next e he => exact hfinish _ _ (.failed hdone hearly hrows hdue he)
      · next hdue =>
        rw [Bool.not_eq_true] at hdue
        exact .pure ⟨_, _, rfl, .pending hdone hearly hrows hdue, rfl⟩

theorem acts_next (patience : ℕ) :
    Acts env m (s.next patience : Run σ (Item × RowStream)) (Awaiting s m) := by
  unfold next
  refine acts_poll.bind (fun polled ds m₁ h => ?_) fun _ _ _ ⟨_, _, h, _⟩ => nomatch h
  obtain ⟨item, s₁, he, hpolling, rfl⟩ := h
  cases he
  split
  · next s₂ he =>
    obtain ⟨rfl, rfl⟩ : item = .pending ∧ s₁ = s₂ := by simpa using he
    have hds : ds = [] := by
      cases hpolling
      rfl
    subst hds
    refine .now_bind ((acts_wait _).bind (fun _ ds' m₂ h => ?_) fun halt ds' m' h => ?_)
    · cases h with | past _ =>
      refine acts_poll.mono fun o ds' m' h => ?_
      obtain ⟨item, s', rfl, hagain, rfl⟩ := h
      exact .waited hpolling (Nat.le_add_right _ _) hagain
    · cases h with | givenUp hgiven hle _ => exact .givenUp hpolling hgiven hle
  · refine .pure ?_
    rw [List.append_nil]
    exact .polled hpolling

theorem acts_close : Acts env m (s.close : Run σ Unit) (Closing s m) := by
  unfold close
  cases hdone : s.done
  · refine (Lease.acts_release true).bind (fun _ ds m₁ h => ?_) fun halt ds m' h =>
      .closed hdone h
    refine (acts_trace _).mono fun o ds' m' h' => ?_
    obtain ⟨⟨_, rfl⟩, rfl, rfl⟩ := h'
    rw [List.append_nil]
    exact .closed hdone h
  · exact .pure (.past hdone)

theorem acts_drop : Acts env m (s.drop : Run σ Unit) fun o ds m' =>
    o = .ok () ∧ ds = s.drops m ∧ m' = m := by
  unfold drop drops
  cases s.done
  · refine (acts_finish true).bind (fun _ ds m₁ h => ?_) fun _ _ _ h => nomatch h.1
    obtain ⟨-, rfl, rfl⟩ := h
    refine .pure ⟨rfl, ?_, rfl⟩
    rw [List.append_nil]
    rfl
  · exact .pure ⟨rfl, rfl, rfl⟩

end

end RowStream

/-! ## Streams that are opened -/

/-- How a stream is opened on a connection. -/
inductive Opening (c : Client) (conn : ℕ) (statement : Statement) (abort : Option ℕ) (m : ℕ) :
    Account (List (Answer Row))
  | unlimited {halt ds m'} : Limiting c conn m (.error halt) ds m' →
    Opening c conn statement abort m (.error halt) ds m'
  | limited {ds m₁ o ds' m'} : Limiting c conn m (.ok ()) ds m₁ →
    Exchange conn abort (statement.request .stream conn) m₁ (o.map .stream) ds' m' →
    Opening c conn statement abort m o (ds ++ ds') m'

/-- How the stream of a statement is opened. -/
inductive Streaming (c : Client) (statement : Statement) (abort : Option ℕ) (m : ℕ) :
    Account RowStream
  | unconnected {halt ds m'} : Connecting c abort m (.error halt) ds m' →
    Streaming c statement abort m (.error halt) ds m'
  | opened {conn ds m₁ rows ds' m'} : Connecting c abort m (.ok conn) ds m₁ →
    Opening c conn statement abort m₁ (.ok rows) ds' m' →
    Streaming c statement abort m (.ok { lease := c.lease conn true, rows, abort }) (ds ++ ds') m'
  | refused {conn ds m₁ e ds' m₂ ds'' m'} : Connecting c abort m (.ok conn) ds m₁ →
    Opening c conn statement abort m₁ (.error (.failed e)) ds' m₂ →
    (c.lease conn true).Releasing false m₂ (.ok ()) ds'' m' →
    Streaming c statement abort m (.error (.failed e)) (ds ++ (ds' ++ ds'')) m'
  /-- The call is given up. -/
  | halted {conn ds m₁ halt ds' m'} : Connecting c abort m (.ok conn) ds m₁ →
    Opening c conn statement abort m₁ (.error halt) ds' m' → (∀ e, halt ≠ .failed e) →
    Streaming c statement abort m (.error halt) (ds ++ (ds' ++ (c.lease conn true).discards m')) m'
  /-- The call is given up while its lease ends. -/
  | givenUp {conn ds m₁ e ds' m₂ halt ds'' m'} : Connecting c abort m (.ok conn) ds m₁ →
    Opening c conn statement abort m₁ (.error (.failed e)) ds' m₂ →
    (c.lease conn true).Releasing false m₂ (.error halt) ds'' m' →
    Streaming c statement abort m (.error halt) (ds ++ (ds' ++ ds'')) m'

/-- How the stream of a query is opened. -/
inductive Selecting (c : Client) (q : Query) (abort : Option ℕ) (m : ℕ) : Account RowStream
  | refused {e} : Selecting c q abort m (.error (.failed e)) [] m
  | compiled {columns statement o ds m'} : q.operation = .select columns →
    Statement.compile c.config.safety q = .ok statement →
    Streaming c statement abort m o ds m' → Selecting c q abort m o ds m'

namespace Client

variable {env : Env σ} {c : Client} {m : ℕ}

theorem acts_fail {α : Type} (operation : String) (sql : Option String) (e : Error) :
    Acts env m (c.fail operation sql e : Run σ α) fun o ds m' =>
      o = .error (.failed e) ∧ ds = [] ∧ m' = m :=
  (acts_notify _).still_bind fun _ => .throw trivial ⟨rfl, rfl, rfl⟩

theorem acts_streamStatement (operation : String) (statement : Statement) (abort : Option ℕ) :
    Acts env m (c.streamStatement operation statement abort : Run σ RowStream)
      (Streaming c statement abort m) := by
  unfold streamStatement
  refine acts_connection.attempt_bind (fun o ds m₁ hconnecting => ?_) fun halt ds m' _ h =>
    .unconnected h
  cases o with
  | error e =>
    refine (acts_fail _ _ _).mono fun o ds' m' h => ?_
    obtain ⟨rfl, rfl, rfl⟩ := h
    rw [List.append_nil]
    exact .unconnected hconnecting
  | ok conn =>
    have hopening : Acts env m₁ (do
        c.applyLimit conn
        c.showStatement operation statement.text statement.values
        interruptible conn abort (openStream conn statement.text statement.values) :
          Run σ (List (Answer Row))) (Opening c conn statement abort m₁) := by
      refine acts_applyLimit.bind (fun _ ds' m₂ h => ?_) fun halt ds' m' h => .unlimited h
      refine (acts_notify _).still_bind fun _ => ?_
      exact (acts_openStream _ _).mono fun o ds'' m' h' => .limited h h'
    refine (Lease.acts_onHalt hopening.attempt).bind (fun o ds' m₂ h => ?_) fun halt ds' m' h => ?_
    · cases h with | ended h =>
      cases h with | ended h =>
      cases o with
      | error e =>
        refine (Lease.acts_release false).bind (fun _ ds'' m₃ h' => ?_) fun halt ds'' m' h' => ?_
        · refine (acts_fail _ _ _).mono fun o dsl m' h'' => ?_
          obtain ⟨rfl, rfl, rfl⟩ := h''
          rw [List.append_nil]
          exact .refused hconnecting h h'
        · exact .givenUp hconnecting h h'
      | ok rows =>
        refine (acts_trace _).still_bind fun _ => .pure ?_
        rw [List.append_nil]
        exact .opened hconnecting h
    · cases h with | halted h =>
      cases h with | halted hfailed h => exact .halted hconnecting h hfailed

/-- **What a call does that opens a stream.** -/
theorem acts_stream (q : Query) (abort : Option ℕ) :
    Acts env m (c.stream q abort : Run σ RowStream) (Selecting c q abort m) := by
  have hfail : ∀ (operation : String) (sql : Option String) (e : Error),
      Acts env m (c.fail operation sql e : Run σ RowStream) (Selecting c q abort m) := by
    intro operation sql e
    refine (acts_fail _ _ _).mono fun o ds m' h => ?_
    obtain ⟨rfl, rfl, rfl⟩ := h
    exact .refused
  unfold stream
  dsimp only
  split
  · next columns hselect =>
    refine .aborted_bind (fun _ _ _ => hfail _ _ _) fun _ => ?_
    rw [if_neg Bool.false_ne_true]
    split
    · exact hfail _ _ _
    · next statement hs =>
      exact (acts_streamStatement _ _ _).mono fun o ds m' h => .compiled hselect hs h
  · exact hfail _ _ _

end Client

end QueryClient.Session
