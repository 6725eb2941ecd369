/-
  What calls leave behind.

  A call that comes to its end leaves nothing to a cleanup, and has the server stop nothing unless
  its caller has aborted.  A call that is given up leaves the connection that it holds to a cleanup,
  which has not started then.

  * `Concluded`: the deeds of calls that come to their end;
  * `LeavesPending`: what deeds leave to cleanups is there to be done;
  * `Run.GivenUp`: what a run has done, and left to cleanups, when it is given up;
  * `Client.givenUp_execute`: this is so of a call that executes a query.

  What a run does is known from its account.  That the cleanup has not started is not: whatever time
  passes after a deed, an account allows cleanups to go on in it.  So `Run.GivenUp` adds that to the
  account of a run that is given up, and only the runs that hold a connection need it.
-/
import QueryClient.Proofs.Session.Abort
import QueryClient.Proofs.Session.SessionLimit

namespace QueryClient.Session

open Run

variable {σ α β : Type} {c : Client} {conn m m₁ m' : ℕ} {abort : Option ℕ} {ds ds' : List Deed}

/-! ## Calls that come to their end -/

/-- Deeds that leave nothing to a cleanup. -/
def LeavesNothing (ds : List Deed) : Prop := ∀ m conn steps, .left m conn steps ∉ ds

theorem LeavesNothing.nil : LeavesNothing [] := fun _ _ _ => List.not_mem_nil

theorem LeavesNothing.append (h : LeavesNothing ds) (h' : LeavesNothing ds') :
    LeavesNothing (ds ++ ds') := fun m conn steps hd =>
  (List.mem_append.1 hd).elim (h m conn steps) (h' m conn steps)

/-- Deeds that leave nothing to a cleanup, and have the server stop nothing unless the caller has
aborted by their end. -/
structure Concluded (abort : Option ℕ) (m : ℕ) (ds : List Deed) (m' : ℕ) : Prop where
  le : m ≤ m'
  leavesNothing : LeavesNothing ds
  unstopped : (∀ t ∈ abort, m' < t) → ∀ conn, cancelsOf conn ds = 0

theorem Concluded.nil (h : m ≤ m') : Concluded abort m [] m' := ⟨h, .nil, fun _ _ => rfl⟩

theorem Concluded.append (h : Concluded abort m ds m₁) (h' : Concluded abort m₁ ds' m') :
    Concluded abort m (ds ++ ds') m' := by
  refine ⟨h.le.trans h'.le, h.leavesNothing.append h'.leavesNothing, fun habort conn => ?_⟩
  have hearlier : ∀ t ∈ abort, m₁ < t := fun t ht => h'.le.trans_lt (habort t ht)
  rw [cancelsOf_append, h.unstopped hearlier, h'.unstopped habort]

theorem Asks.leavesNothing (h : Asks conn abort m ds m') : LeavesNothing ds := by
  intro m₁ conn' steps hd
  obtain ⟨_, _, _, he, -⟩ := h.asks _ hd
  cases he

theorem Asks.concluded (h : Asks conn abort m ds m') : Concluded abort m ds m' :=
  ⟨h.le, h.leavesNothing, h.cancels_eq_zero⟩

theorem Connecting.concluded {o : Except Halt ℕ} (h : Connecting c abort m o ds m') :
    Concluded abort m ds m' := by
  have hraced : ∀ {o ds m'}, Raced abort (fun a ds => ds = [.asked m .acquire a]) m o ds m' →
      Concluded abort m ds m' := fun h => (h.asks (fun _ => rfl) 0 abort).concluded
  cases h with
  | shared _ _ | refusedShared _ _ _ => exact .nil (Nat.le_refl _)
  | @acquired _ m' conn _ h =>
    have hheld : Concluded abort m' [.held m' conn] m' :=
      ⟨Nat.le_refl _, fun _ _ _ hd => (nomatch List.mem_singleton.1 hd), fun _ _ => rfl⟩
    exact (hraced h).append hheld
  | refused _ h | stopped _ h | givenUp _ h => exact hraced h

theorem Limiting.concluded {o : Except Halt Unit} (h : Limiting c conn m o ds m') :
    Concluded abort m ds m' := by
  have hnothing : ∀ {a : Answer Yield} {limit},
      LeavesNothing [.asked m (c.timeLimit conn limit) a] :=
    fun _ _ _ hd => nomatch List.mem_singleton.1 hd
  cases h with
  | unlimited _ => exact .nil (Nat.le_refl _)
  | answered _ _ => exact ⟨Nat.le_add_right _ _, hnothing, fun _ _ => rfl⟩
  | givenUp _ _ hle _ => exact ⟨hle, hnothing, fun _ _ => rfl⟩

theorem Cleaning.leavesNothing {steps : List CleanupStep} {o : Except Halt Unit}
    (h : Cleaning conn steps m o ds m') : LeavesNothing ds := by
  induction h with
  | done => exact .nil
  | answered _ _ ih =>
    intro m₁ conn' steps hd
    rcases List.mem_cons.1 hd with he | hd
    · cases he
    · exact ih m₁ conn' steps hd
  | givenUp _ _ _ => exact fun _ _ _ hd => nomatch List.mem_singleton.1 hd

theorem Lease.Releasing.concluded {l : Lease} (h : l.Releasing false m (.ok ()) ds m') :
    Concluded abort m ds m' := by
  obtain ⟨hle, -, hcancels⟩ := h.quiet rfl
  refine ⟨hle, ?_, fun _ => hcancels⟩
  cases h with | past hcleaning =>
  refine hcleaning.leavesNothing.append ?_
  unfold letsGo
  split
  · exact .nil
  · exact fun _ _ _ hd => nomatch List.mem_singleton.1 hd

theorem Delaying.le {delay : Duration} {o : Except Halt Unit} (h : Delaying delay abort m o [] m') :
    m ≤ m' := by
  cases h with
  | past _ => exact Nat.le_add_right _ _
  | stopped _ hle _ | givenUp _ _ hle => exact hle

section
variable {q : Query} {statement : Statement}

section
variable (hs : Statement.compile c.config.safety q = .ok statement)
include hs

theorem Working.concluded {o : Except Halt Outcome}
    (h : Working c conn q statement abort m o ds m') : Concluded abort m ds m' := by
  cases h with
  | unlimited hlimiting => exact hlimiting.concluded
  | limited hlimiting hrunning => exact hlimiting.concluded.append (hrunning.asks hs).concluded

/-- An attempt that comes to its end. -/
theorem Attempting.concluded {o : Except Error Outcome}
    (h : Attempting c q statement abort m (o.mapError .failed) ds m') :
    Concluded abort m ds m' := by
  generalize ho : o.mapError Halt.failed = o' at h
  cases h with
  | unconnected hconnecting => exact hconnecting.concluded
  | connected hconnecting husing =>
    subst ho
    obtain ⟨ds₁, m₂, ds₂, rfl, hworking, hreleasing⟩ := husing.of_ended
    exact hconnecting.concluded.append ((hworking.concluded hs).append hreleasing.concluded)

theorem Attempting.concluded_of_failed {e : Error} {delay : Duration} {o : Except Halt Unit}
    (h : Attempting c q statement abort m (.error (.failed e)) ds m₁)
    (hdelaying : Delaying delay abort m₁ o [] m') : Concluded abort m ds m' := by
  have hfailed : Concluded abort m ds m₁ := Attempting.concluded (o := .error e) hs h
  have hdelay : Concluded abort m₁ [] m' := .nil hdelaying.le
  simpa using hfailed.append hdelay

theorem Retrying.concluded {left number : ℕ} {o : Except Error Outcome}
    (h : Retrying c q statement abort left number m (o.mapError .failed) ds m') :
    Concluded abort m ds m' := by
  generalize ho : o.mapError Halt.failed = o' at h
  induction h with
  | last h | done h _ =>
    subst ho
    exact h.concluded hs
  | again h _ hdelaying _ ih => exact (h.concluded_of_failed hs hdelaying).append (ih ho)
  | undelayed h _ hdelaying => exact h.concluded_of_failed hs hdelaying

/-- A stream that is opened, or cannot be. -/
theorem Streaming.concluded {o : Except Error RowStream}
    (h : Streaming c statement abort m (o.mapError .failed) ds m') : Concluded abort m ds m' := by
  have hopening : ∀ {conn m o ds m'}, Opening c conn statement abort m o ds m' →
      Concluded abort m ds m' := by
    intro conn m o ds m' h
    cases h with
    | unlimited hlimiting => exact hlimiting.concluded
    | limited hlimiting hexchange =>
      exact hlimiting.concluded.append (hexchange.asks (sessionStep?_request
        (compiled_of_compile hs).exists_name StatementKind.noConfusion)).concluded
  generalize ho : o.mapError Halt.failed = o' at h
  cases h with
  | unconnected hconnecting => exact hconnecting.concluded
  | opened hconnecting h => exact hconnecting.concluded.append (hopening h)
  | refused hconnecting h hreleasing =>
    exact hconnecting.concluded.append ((hopening h).append hreleasing.concluded)
  | halted _ _ hfailed =>
    cases o with
    | ok _ => cases ho
    | error e =>
      cases ho
      exact absurd rfl (hfailed e)
  | givenUp _ _ hreleasing =>
    cases hreleasing with | givenUp hcleaning =>
    exact absurd ho (mapError_failed_ne (hcleaning.givenUp_of_error rfl))

end

/-- **A call that executes a query** and comes to its end. -/
theorem Executing.concluded {r : Response Json} (h : Executing c q abort m (.ok r) ds m') :
    Concluded abort m ds m' := by
  cases h with
  | late _ _ | uncompiled _ _ => exact .nil (Nat.le_refl _)
  | tried _ hs h => exact h.concluded hs

/-- **A call that opens a stream** and comes to its end. -/
theorem Selecting.concluded {o : Except Error RowStream}
    (h : Selecting c q abort m (o.mapError .failed) ds m') : Concluded abort m ds m' := by
  generalize ho : o.mapError Halt.failed = o' at h
  cases h with
  | refused => exact .nil (Nat.le_refl _)
  | compiled _ hs h =>
    subst ho
    exact h.concluded hs

end

/-! ## Calls that are given up -/

/-- What deeds leave to cleanups is there to be done, and nothing of it has been done. -/
def LeavesPending (steps : List CleanupStep) (ds : List Deed) (s : State σ) : Prop :=
  ∀ m conn steps', .left m conn steps' ∈ ds → ⟨conn, none, steps⟩ ∈ s.cleanups

section
variable {steps : List CleanupStep} {s : State σ}

theorem LeavesNothing.leavesPending (h : LeavesNothing ds) :
    LeavesPending steps ds s := fun m conn steps' hd =>
  absurd hd (h m conn steps')

theorem LeavesPending.after (h : LeavesPending steps ds' s) (hds : LeavesNothing ds) :
    LeavesPending steps (ds ++ ds') s := fun m conn steps' hd =>
  h m conn steps' ((List.mem_append.1 hd).resolve_left (hds m conn steps'))

end

namespace Lease

variable {l : Lease}

theorem left_of_discards {conn : ℕ} {steps : List CleanupStep}
    (h : .left m₁ conn steps ∈ l.discards m) :
    conn = l.conn ∧ (cleanupSteps l.cancel l.reset).isEmpty = false := by
  rcases List.mem_append.1 h with h | h
  · split at h
    · cases h
    · next hsteps =>
      cases List.mem_singleton.1 h
      exact ⟨rfl, Bool.eq_false_iff.2 hsteps⟩
  · unfold letsGo at h
    split at h
    · cases h
    · cases List.mem_singleton.1 h

theorem exec_letGo (env : Env σ) (s : State σ) :
    (l.letGo.exec env s).2.cleanups = s.cleanups := by
  unfold letGo
  cases l.shared
  · exact State.cleanups_releaseUnless _ _
  · rfl

/-- A lease that is discarded leaves what there is to do. -/
theorem leavesPending_discards (env : Env σ) (s : State σ) (m : ℕ) :
    LeavesPending (cleanupSteps l.cancel l.reset) (l.discards m) (l.discard.exec env s).2 := by
  intro m₁ conn steps hleft
  obtain ⟨rfl, hsteps⟩ := left_of_discards hleft
  have hspawn : (modify (·.spawn l.conn (cleanupSteps l.cancel l.reset)) : Run σ Unit).exec env s =
      (.ok (), s.spawn l.conn (cleanupSteps l.cancel l.reset)) := rfl
  unfold discard
  dsimp only
  rw [if_neg (Bool.eq_false_iff.1 hsteps), exec_bind, hspawn]
  dsimp only
  rw [exec_letGo]
  exact List.mem_append_right _ List.mem_cons_self

end Lease

/-- What a run has done when it is given up, with what is left to cleanups. -/
def Run.GivenUp (env : Env σ) (steps : List CleanupStep) (m : ℕ) (r : Run σ α) (Q : Account α) :
    Prop :=
  ∀ s halt, s.now = m → (∀ e, halt ≠ .failed e) → (r.exec env s).1 = .error halt →
    ∃ ds entries, Passage env.source s ds entries (r.exec env s).2 ∧
      Q (.error halt) ds (r.exec env s).2.now ∧ LeavesPending steps ds (r.exec env s).2

namespace Run.GivenUp

variable {env : Env σ} {steps : List CleanupStep} {r : Run σ α} {R : Account α} {Q : Account β}

theorem of_acts (h : Acts env m r R)
    (hnothing : ∀ halt ds m', (∀ e, halt ≠ .failed e) → R (.error halt) ds m' → LeavesNothing ds) :
    GivenUp env steps m r R := by
  intro s halt hs hfailed ho
  obtain ⟨ds, entries, hpassage, hR⟩ := h.passes s hs
  rw [ho] at hR
  exact ⟨ds, entries, hpassage, hR, (hnothing halt ds _ hfailed hR).leavesPending⟩

/-- A run that comes to its end is not given up. -/
theorem of_ended (h : Acts env m r fun o _ _ => ∃ o' : Except Error α, o = o'.mapError .failed) :
    GivenUp env steps m r R := by
  intro s halt hs hfailed ho
  obtain ⟨_, _, -, o', ho'⟩ := h.passes s hs
  rw [ho] at ho'
  cases o' with
  | ok a => cases ho'
  | error e => exact absurd (Except.error.inj ho') (hfailed e)

theorem mono (h : GivenUp env steps m r R) {P : Account α}
    (hP : ∀ halt ds m', (∀ e, halt ≠ .failed e) → R (.error halt) ds m' → P (.error halt) ds m') :
    GivenUp env steps m r P := by
  intro s halt hs hfailed ho
  obtain ⟨ds, entries, hpassage, hR, hpending⟩ := h s halt hs hfailed ho
  exact ⟨ds, entries, hpassage, hP halt ds _ hfailed hR, hpending⟩

theorem bind {f : α → Run σ β} (h : Acts env m r R) (hgivenUp : GivenUp env steps m r R)
    (hnothing : ∀ a ds m₁, R (.ok a) ds m₁ → LeavesNothing ds)
    (hok : ∀ a ds m₁, R (.ok a) ds m₁ →
      GivenUp env steps m₁ (f a) fun o ds' m' => Q o (ds ++ ds') m')
    (herror : ∀ halt ds m', (∀ e, halt ≠ .failed e) → R (.error halt) ds m' →
      Q (.error halt) ds m') :
    GivenUp env steps m (r >>= f) Q := by
  intro s halt hs hfailed ho
  cases hr : (r.exec env s).1 with
  | ok a =>
    obtain ⟨ds, entries, hpassage, hR⟩ := h.passes s hs
    rw [hr] at hR
    rw [exec_bind_of_ok hr] at ho ⊢
    obtain ⟨ds', entries', hpassage', hQ, hpending⟩ := hok a ds _ hR _ halt rfl hfailed ho
    exact ⟨ds ++ ds', entries ++ entries', hpassage.trans hpassage', hQ,
      hpending.after (hnothing a ds _ hR)⟩
  | error halt' =>
    rw [exec_bind_of_error hr] at ho ⊢
    obtain rfl : halt' = halt := Except.error.inj ho
    obtain ⟨ds, entries, hpassage, hR, hpending⟩ := hgivenUp s halt' hs hfailed hr
    exact ⟨ds, entries, hpassage, herror halt' ds _ hfailed hR, hpending⟩

/-- Where a run only notes something, nothing happens before what follows. -/
theorem still_bind {f : α → Run σ β} (h : Acts env m r (Still m))
    (hf : ∀ a, GivenUp env steps m (f a) Q) : GivenUp env steps m (r >>= f) Q := by
  have hgivenUp : GivenUp env steps m r (Still m) := .of_acts h fun _ _ _ _ h => nomatch h.1
  refine .bind h hgivenUp (fun a ds m₁ h' => ?_) (fun a ds m₁ h' => ?_)
    fun _ _ _ _ h' => nomatch h'.1
  · obtain ⟨-, rfl, -⟩ := h'
    exact .nil
  · obtain ⟨-, rfl, rfl⟩ := h'
    exact hf a

theorem attempt (h : GivenUp env steps m r R) : GivenUp env steps m (Run.attempt r) (Tried R) := by
  intro s halt hs hfailed ho
  rw [exec_attempt] at ho ⊢
  rcases hr : r.exec env s with ⟨halt' | a, s'⟩ <;> rw [hr] at ho
  · cases halt' with
    | failed e => cases ho
    | _ =>
      cases ho
      obtain ⟨ds, entries, hpassage, hR, hpending⟩ := h s _ hs hfailed (by rw [hr])
      rw [hr] at hpassage hR hpending
      exact ⟨ds, entries, hpassage, .halted hfailed hR, hpending⟩
  · cases ho

/-- A lease that is discarded leaves what it has to. -/
theorem onHalt_discard {l : Lease} (h : Acts env m r R)
    (hnothing : ∀ halt ds m', R (.error halt) ds m' → LeavesNothing ds) :
    GivenUp env (cleanupSteps l.cancel l.reset) m (r.onHalt l.discard) (l.Guarding R) := by
  intro s halt hs hfailed ho
  obtain ⟨ds, entries, hpassage, hR⟩ := h.passes s hs
  unfold Run.onHalt at ho ⊢
  rw [exec_tryCatch] at ho ⊢
  rcases hr : r.exec env s with ⟨halt' | a, s'⟩ <;> rw [hr] at ho hpassage hR <;> dsimp only at *
  · have hacts : Acts env s'.now (l.discard : Run σ Unit) fun o ds m' =>
        o = .ok () ∧ ds = l.discards s'.now ∧ m' = s'.now := Lease.acts_discard
    obtain ⟨ds', entries', hpassage', hdiscard, rfl, hnow⟩ := hacts.passes s' rfl
    rw [exec_bind_of_ok hdiscard] at ho ⊢
    obtain rfl : halt' = halt := Except.error.inj ho
    refine ⟨ds ++ l.discards s'.now, entries ++ entries', hpassage.trans hpassage', ?_,
      (Lease.leavesPending_discards env s' _).after (hnothing halt' ds _ hR)⟩
    have hend : ((throw halt' : Run σ α).exec env (l.discard.exec env s').2).2.now = s'.now := hnow
    rw [hend]
    exact .halted hR
  · cases ho

/-- What follows an attempt goes on with its outcome. -/
theorem attempt_bind {f : Except Error α → Run σ β} (h : Acts env m r R)
    (hgivenUp : GivenUp env steps m r R)
    (hnothing : ∀ (o : Except Error α) ds m₁, R (o.mapError .failed) ds m₁ → LeavesNothing ds)
    (hended : ∀ (o : Except Error α) ds m₁, R (o.mapError .failed) ds m₁ →
      GivenUp env steps m₁ (f o) fun o' ds' m' => Q o' (ds ++ ds') m')
    (hhalt : ∀ halt ds m', (∀ e, halt ≠ .failed e) → R (.error halt) ds m' →
      Q (.error halt) ds m') :
    GivenUp env steps m (Run.attempt r >>= f) Q := by
  refine .bind h.attempt hgivenUp.attempt (fun o ds m₁ h => ?_) (fun o ds m₁ h => ?_)
    fun halt ds m' _ h => ?_
  · cases h with | ended h => exact hnothing o ds m₁ h
  · cases h with | ended h => exact hended o ds m₁ h
  · cases h with | halted hfailed h => exact hhalt halt ds m' hfailed h

end Run.GivenUp

namespace Lease

variable {env : Env σ} {l : Lease}

theorem givenUp_release :
    GivenUp env (cleanupSteps l.cancel l.reset) m (l.release false : Run σ Unit)
      (l.Releasing false m) := by
  unfold release
  have hnothing : ∀ halt ds m', Cleaning l.conn (cleanupSteps false l.reset) m (.error halt) ds m' →
      LeavesNothing ds := fun _ _ _ h => h.leavesNothing
  refine .bind (acts_onHalt (acts_cleanUp _)) (.onHalt_discard (acts_cleanUp _) hnothing)
    (fun _ ds m₁ h => ?_) (fun _ ds m₁ h => ?_) fun halt ds m' _ h => ?_
  · cases h with | ended h => exact h.leavesNothing
  · cases h with | ended h =>
    exact .of_ended (acts_letGo.mono fun o ds' m' h' => ⟨.ok (), h'.1⟩)
  · cases h with | halted h => exact .givenUp h

/-- **A call that is given up under a lease** leaves what there is to do. -/
theorem givenUp_use {r : Run σ α} {B : Account α} (h : Acts env m r B)
    (hnothing : ∀ o ds m', B o ds m' → LeavesNothing ds) :
    GivenUp env (cleanupSteps l.cancel l.reset) m (l.use r) (l.Using B) := by
  unfold use
  refine .bind (acts_onHalt h.attempt) (.onHalt_discard h.attempt fun halt ds m' h => ?_)
    (fun o ds m₁ h => ?_) (fun o ds m₁ h => ?_) fun halt ds m' _ h => ?_
  · cases h with | halted _ hB => exact hnothing _ _ _ hB
  · cases h with | ended h =>
    cases h with | ended hB => exact hnothing _ _ _ hB
  · cases h with | ended h =>
    cases h with | ended hB =>
    refine .bind (acts_release false) givenUp_release (fun _ ds' m₂ h' => ?_)
      (fun _ ds' m₂ h' => ?_) fun halt ds' m' _ h' => .givenUp hB h'
    · have hconcluded : Concluded none _ _ _ := h'.concluded
      exact hconcluded.leavesNothing
    · exact .of_ended (.ofExcept ⟨o, rfl⟩)
  · cases h with | halted h =>
    cases h with | halted hfailed hB => exact .halted hfailed hB

end Lease

namespace Client

variable {env : Env σ} {q : Query} {statement : Statement}

theorem givenUp_attempt (hs : Statement.compile c.config.safety q = .ok statement) :
    GivenUp env (cleanupSteps (!c.inTransaction) c.limitsSession) m
      (c.attempt q statement abort : Run σ Outcome) (Attempting c q statement abort m) := by
  unfold attempt
  have hnothing : ∀ o ds m', Connecting c abort m o ds m' → LeavesNothing ds :=
    fun _ _ _ h => h.concluded.leavesNothing
  refine .bind acts_connection (.of_acts acts_connection fun _ _ _ _ => hnothing _ _ _)
    (fun _ => hnothing _) (fun conn ds m₁ h => ?_) fun halt ds m' _ h => .unconnected h
  have hwork : Acts env m₁ _ (Working c conn q statement abort m₁) := acts_work q statement
  have huse := Lease.givenUp_use (l := c.lease conn !c.inTransaction) hwork
    fun _ _ _ h' => (h'.concluded hs).leavesNothing
  exact huse.mono fun _ _ _ _ h' => .connected h h'

theorem givenUp_retry (hs : Statement.compile c.config.safety q = .ok statement)
    (left number : ℕ) :
    GivenUp env (cleanupSteps (!c.inTransaction) c.limitsSession) m
      (c.retry q statement abort left number : Run σ Outcome)
      (Retrying c q statement abort left number m) := by
  induction left generalizing m number with
  | zero => exact (givenUp_attempt hs).mono fun _ _ _ _ h => .last h
  | succ left ih =>
    unfold retry
    refine .attempt_bind (acts_attempt q statement) (givenUp_attempt hs)
      (fun _ _ _ h => (h.concluded hs).leavesNothing) (fun o ds m₁ h => ?_)
      fun halt ds m' hfailed h => .done h fun e he => absurd (Except.error.inj he) (hfailed e)
    cases o with
    | ok outcome => exact .of_ended (.pure ⟨.ok outcome, rfl⟩)
    | error e =>
      by_cases hretriable : e.isRetriable
      · simp only [hretriable, if_true]
        refine .still_bind (acts_trace _) fun _ => ?_
        refine .bind (acts_backOff _) (.of_acts (acts_backOff _) fun _ _ _ _ h' => h'.1 ▸ .nil)
          (fun _ _ _ h' => h'.1 ▸ .nil) (fun _ ds' m₂ h' => ?_) fun halt ds' m' _ h' => ?_
        · obtain ⟨rfl, hover⟩ := h'
          exact (ih _).mono fun _ _ _ _ h'' => .again h hretriable hover h''
        · obtain ⟨rfl, hstopped⟩ := h'
          rw [List.append_nil]
          exact .undelayed h hretriable hstopped
      · simp only [hretriable]
        exact .of_ended (.throw trivial ⟨.error e, rfl⟩)

/-- **A call that executes a query** and is given up leaves to a cleanup what there is to do. -/
theorem givenUp_execute (q : Query) :
    GivenUp env (cleanupSteps (!c.inTransaction) c.limitsSession) m
      (c.execute q abort : Run σ (Response Json)) (Executing c q abort m) := by
  have hrefuse : ∀ {m} (sql : Option String) (e : Error) {Q : Account (Response Json)},
      GivenUp env (cleanupSteps (!c.inTransaction) c.limitsSession) m
        (c.refuse q.operation.name sql e : Run σ (Response Json)) Q := fun sql e _ =>
    .of_ended ((acts_refuse _ sql e).mono fun o ds m' h => ⟨.ok (.err e), h.1⟩)
  unfold execute
  refine .bind acts_aborted (.of_ended (acts_aborted.mono fun o ds m' h => ⟨.ok _, h.1⟩))
    (fun late ds m₁ h => h.2.1 ▸ .nil) (fun late ds m₁ h => ?_) fun _ _ _ _ h => nomatch h.1
  obtain ⟨he, rfl, rfl⟩ := h
  cases he
  split
  · exact hrefuse none _
  · next hlate =>
    have hearly := any_le_eq_false_iff.1 (Bool.eq_false_iff.2 hlate)
    split
    · exact hrefuse none _
    · next statement hs =>
      refine .attempt_bind (acts_retry q statement _ _) (givenUp_retry hs _ _)
        (fun _ _ _ h => (h.concluded hs).leavesNothing) (fun o ds m₂ h => ?_)
        fun halt ds m' hfailed h => ?_
      · rcases o with e | ⟨data, count⟩
        · exact hrefuse (some statement.text) e
        · exact .of_ended (.pure ⟨.ok (.ok data count), rfl⟩)
      · exact .givenUp hearly hs hfailed h

end Client

end QueryClient.Session
