/-
  Runs with hooks beside runs without.

  A call with hooks and the same call without do the same step by step; the one shows hooks what the
  other keeps to itself.

  An account says what a run may do; that one run does what another does takes the two side by side,
  and so this is a relation of its own.

  * `Run.Mirrors`: two runs come to the same and leave the same state, and the history of the first
    is that of the second with what hooks are shown; it has one rule for each way in which runs are
    put together;
  * `Run.Mirrors.of_recount`: so does a run beside itself that shows hooks nothing;
  * `Run.Mirrors.interruptible`: a statement that hooks have just been shown is sent, or withheld if
    the caller has aborted.
-/
import QueryClient.Proofs.Session.Annotated
import QueryClient.Proofs.Session.Exec

namespace QueryClient.Session

variable {σ α β : Type}

/-- The state with another history. -/
def State.under (s : State σ) (h : List Event) (ms : List ℕ) : State σ :=
  { s with history := h, moments := ms }

theorem State.under_eq_recount (s : State σ) (h : List Event) (ms : List ℕ) :
    s.under h ms = (s.under [] []).recount h ms := by
  simp only [under, recount, List.filter_nil, List.append_nil]

namespace Run

/-! ## What is made of outcomes -/

/-- The outcome of an attempt, by that of the run. -/
def attempted : Except Halt α → Except Halt (Except Error α)
  | .ok a => .ok (.ok a)
  | .error (.failed e) => .ok (.error e)
  | .error halt => .error halt

/-- The outcome of a run that is given up at the deadline with a number. -/
def givenUp (level : ℕ) : Except Halt α → Except Halt (Option α)
  | .ok a => .ok (some a)
  | .error (.dropped l) => if l = level then .ok none else .error (.dropped l)
  | .error halt => .error halt

section
variable (env : Env σ) (s : State σ)

theorem exec_attempt_eq (r : Run σ α) :
    (attempt r).exec env s = (attempted (r.exec env s).1, (r.exec env s).2) := by
  rw [exec_attempt]
  rcases r.exec env s with ⟨halt | a, s'⟩
  · cases halt <;> rfl
  · rfl

theorem exec_within_eq (time : ℕ) (r : Run σ α) :
    (within time r).exec env s =
      (givenUp env.deadlines.length
          (r.exec { env with deadlines := (s.now + time) :: env.deadlines } s).1,
        (r.exec { env with deadlines := (s.now + time) :: env.deadlines } s).2) := by
  rw [exec_within]
  rcases r.exec { env with deadlines := (s.now + time) :: env.deadlines } s with ⟨halt | a, s'⟩
  · cases halt <;> rfl
  · rfl

end

/-! ## Mirrored runs -/

/-- What a run comes to, and the failures that hooks are shown in its course. -/
abbrev Reporting (α : Type) := Except Halt α → List ErrorEvent → Prop

/-- Hooks are shown no failure, and if the run is halted, then as `H` says. -/
def Quiet (H : Halt → Prop) : Reporting α := fun o failures =>
  failures = [] ∧ ∀ halt, o = .error halt → H halt

/-- A run is halted, but it does not fail. -/
def Unfailed (halt : Halt) : Prop := ∀ e, halt ≠ .failed e

section
variable (hooks : List Hook)
  (Issues : (operation : String) → StatementKind → (sql : String) → List Value → Prop)

/-- Whatever has happened before them, two runs come to the same and leave the same state, but for
the history: that of the first run, with what has happened right before it, is that of the second
with what hooks are shown. -/
def Mirrors (env : Env σ) (before : List Event) (r₁ r₂ : Run σ α) (Φ : Reporting α) : Prop :=
  ∀ (s : State σ) (h₁ : List Event) (m₁ : List ℕ) (h₂ : List Event) (m₂ : List ℕ),
    ∃ o, ∃ s' : State σ, ∃ l₁ m₁' l₂ m₂' failures,
      r₁.exec env (s.under h₁ m₁) = (o, s'.under (h₁ ++ l₁) m₁') ∧
      r₂.exec env (s.under h₂ m₂) = (o, s'.under (h₂ ++ l₂) m₂') ∧
      Annotated hooks Issues (before ++ l₁) l₂ failures ∧ Φ o failures

end

namespace Mirrors

section
variable {hooks : List Hook} {Issues Issues' : String → StatementKind → String → List Value → Prop}
  {env : Env σ} {before : List Event} {r₁ r₂ r : Run σ α} {f₁ f₂ : α → Run σ β} {Φ Φ' : Reporting α}
  {Ψ : Reporting β}

theorem mono (h : Mirrors hooks Issues env before r₁ r₂ Φ)
    (hle : ∀ o failures, Φ o failures → Φ' o failures) :
    Mirrors hooks Issues env before r₁ r₂ Φ' := by
  intro s h₁ m₁ h₂ m₂
  obtain ⟨o, s', l₁, m₁', l₂, m₂', failures, he₁, he₂, ha, hΦ⟩ := h s h₁ m₁ h₂ m₂
  exact ⟨o, s', l₁, m₁', l₂, m₂', failures, he₁, he₂, ha, hle o failures hΦ⟩

theorem widen (h : Mirrors hooks Issues env before r₁ r₂ Φ)
    (hle : ∀ operation kind sql values, Issues operation kind sql values →
      Issues' operation kind sql values) :
    Mirrors hooks Issues' env before r₁ r₂ Φ := by
  intro s h₁ m₁ h₂ m₂
  obtain ⟨o, s', l₁, m₁', l₂, m₂', failures, he₁, he₂, ha, hΦ⟩ := h s h₁ m₁ h₂ m₂
  exact ⟨o, s', l₁, m₁', l₂, m₂', failures, he₁, he₂, ha.mono hle, hΦ⟩

theorem pure {a : α} (h : Φ (.ok a) []) :
    Mirrors hooks Issues env [] (Pure.pure a) (Pure.pure a) Φ := fun s h₁ m₁ h₂ m₂ =>
  ⟨.ok a, s, [], m₁, [], m₂, [], by rw [List.append_nil]; rfl, by rw [List.append_nil]; rfl,
    .nil, h⟩

theorem throw {halt : Halt} (h : Φ (.error halt) []) :
    Mirrors hooks Issues env [] (MonadExcept.throw halt) (MonadExcept.throw halt) Φ :=
  fun s h₁ m₁ h₂ m₂ =>
    ⟨.error halt, s, [], m₁, [], m₂, [], by rw [List.append_nil]; rfl,
      by rw [List.append_nil]; rfl, .nil, h⟩

theorem bind (h : Mirrors hooks Issues env before r₁ r₂ Φ)
    (hok : ∀ a failures, Φ (.ok a) failures → Mirrors hooks Issues env [] (f₁ a) (f₂ a)
      fun o failures' => Ψ o (failures ++ failures'))
    (herror : ∀ halt failures, Φ (.error halt) failures → Ψ (.error halt) failures) :
    Mirrors hooks Issues env before (r₁ >>= f₁) (r₂ >>= f₂) Ψ := by
  intro s h₁ m₁ h₂ m₂
  obtain ⟨o, s', l₁, m₁', l₂, m₂', failures, he₁, he₂, ha, hΦ⟩ := h s h₁ m₁ h₂ m₂
  cases o with
  | error halt =>
    exact ⟨.error halt, s', l₁, m₁', l₂, m₂', failures, by rw [exec_bind, he₁],
      by rw [exec_bind, he₂], ha, herror halt failures hΦ⟩
  | ok a =>
    obtain ⟨o, s'', k₁, n₁, k₂, n₂, failures', hk₁, hk₂, hka, hΨ⟩ :=
      hok a failures hΦ s' (h₁ ++ l₁) m₁' (h₂ ++ l₂) m₂'
    refine ⟨o, s'', l₁ ++ k₁, n₁, l₂ ++ k₂, n₂, failures ++ failures', ?_, ?_, ?_, hΨ⟩
    · rw [exec_bind, he₁, ← List.append_assoc]
      exact hk₁
    · rw [exec_bind, he₂, ← List.append_assoc]
      exact hk₂
    · rw [← List.append_assoc]
      exact ha.append hka

theorem tryCatch {g₁ g₂ : Halt → Run σ α} (h : Mirrors hooks Issues env before r₁ r₂ Φ)
    (hok : ∀ a failures, Φ (.ok a) failures → Φ' (.ok a) failures)
    (herror : ∀ halt failures, Φ (.error halt) failures →
      Mirrors hooks Issues env [] (g₁ halt) (g₂ halt)
        fun o failures' => Φ' o (failures ++ failures')) :
    Mirrors hooks Issues env before (MonadExcept.tryCatch r₁ g₁) (MonadExcept.tryCatch r₂ g₂)
      Φ' := by
  intro s h₁ m₁ h₂ m₂
  obtain ⟨o, s', l₁, m₁', l₂, m₂', failures, he₁, he₂, ha, hΦ⟩ := h s h₁ m₁ h₂ m₂
  cases o with
  | ok a =>
    exact ⟨.ok a, s', l₁, m₁', l₂, m₂', failures, by rw [exec_tryCatch, he₁],
      by rw [exec_tryCatch, he₂], ha, hok a failures hΦ⟩
  | error halt =>
    obtain ⟨o, s'', k₁, n₁, k₂, n₂, failures', hk₁, hk₂, hka, hΨ⟩ :=
      herror halt failures hΦ s' (h₁ ++ l₁) m₁' (h₂ ++ l₂) m₂'
    refine ⟨o, s'', l₁ ++ k₁, n₁, l₂ ++ k₂, n₂, failures ++ failures', ?_, ?_, ?_, hΨ⟩
    · rw [exec_tryCatch, he₁, ← List.append_assoc]
      exact hk₁
    · rw [exec_tryCatch, he₂, ← List.append_assoc]
      exact hk₂
    · rw [← List.append_assoc]
      exact ha.append hka

/-- Two runs of which the same is made. -/
theorem convert {G : Run σ α → Run σ β} {k : Except Halt α → Except Halt β} (env' : ℕ → Env σ)
    (hG : ∀ (r : Run σ α) (s : State σ),
      (G r).exec env s = (k (r.exec (env' s.now) s).1, (r.exec (env' s.now) s).2))
    (h : ∀ now, Mirrors hooks Issues (env' now) before r₁ r₂ Φ)
    (hk : ∀ o failures, Φ o failures → Ψ (k o) failures) :
    Mirrors hooks Issues env before (G r₁) (G r₂) Ψ := by
  intro s h₁ m₁ h₂ m₂
  obtain ⟨o, s', l₁, m₁', l₂, m₂', failures, he₁, he₂, ha, hΦ⟩ := h s.now s h₁ m₁ h₂ m₂
  have hexec : ∀ (r : Run σ α) (s₀ s₁ : State σ), s₀.now = s.now →
      r.exec (env' s.now) s₀ = (o, s₁) → (G r).exec env s₀ = (k o, s₁) := by
    intro r s₀ s₁ hnow hr
    rw [hG, hnow, hr]
  exact ⟨k o, s', l₁, m₁', l₂, m₂', failures, hexec r₁ _ _ rfl he₁, hexec r₂ _ _ rfl he₂, ha,
    hk o failures hΦ⟩

/-- The outcome of a run that can fail. -/
theorem attempt {Φ' : Reporting (Except Error α)} (h : Mirrors hooks Issues env before r₁ r₂ Φ)
    (hΦ' : ∀ o failures, Φ o failures → Φ' (attempted o) failures) :
    Mirrors hooks Issues env before (Run.attempt r₁) (Run.attempt r₂) Φ' :=
  convert (fun _ => env) (fun r s => exec_attempt_eq env s r) (fun _ => h) hΦ'

/-! ## Quiet runs -/

theorem quiet_pure {H : Halt → Prop} (a : α) :
    Mirrors hooks Issues env [] (Pure.pure a) (Pure.pure a) (Quiet H) :=
  pure ⟨rfl, fun _ heq => nomatch heq⟩

theorem quiet_throw {H : Halt → Prop} {halt : Halt} (h : H halt) :
    Mirrors hooks Issues env [] (MonadExcept.throw halt : Run σ α) (MonadExcept.throw halt)
      (Quiet H) :=
  throw ⟨rfl, fun _ heq => Except.error.inj heq ▸ h⟩

theorem quiet_ofExcept (o : Except Error α) :
    Mirrors hooks Issues env [] (Run.ofExcept o) (Run.ofExcept o) (Quiet fun _ => True) := by
  cases o with
  | ok a => exact quiet_pure a
  | error e => exact quiet_throw trivial

theorem relax {H H' : Halt → Prop} (h : Mirrors hooks Issues env before r₁ r₂ (Quiet H))
    (hle : ∀ halt, H halt → H' halt) : Mirrors hooks Issues env before r₁ r₂ (Quiet H') :=
  h.mono fun _ _ hquiet => ⟨hquiet.1, fun halt heq => hle halt (hquiet.2 halt heq)⟩

theorem any {H : Halt → Prop} (h : Mirrors hooks Issues env before r₁ r₂ (Quiet H)) :
    Mirrors hooks Issues env before r₁ r₂ (Quiet fun _ => True) := h.relax fun _ _ => trivial

/-- After a quiet run comes another one. -/
theorem andThen {H : Halt → Prop} (h : Mirrors hooks Issues env before r₁ r₂ (Quiet H))
    (hok : ∀ a, Mirrors hooks Issues env [] (f₁ a) (f₂ a) Ψ)
    (herror : ∀ halt, H halt → Ψ (.error halt) []) :
    Mirrors hooks Issues env before (r₁ >>= f₁) (r₂ >>= f₂) Ψ := by
  refine h.bind ?_ ?_
  · rintro a _ ⟨rfl, -⟩
    exact hok a
  · rintro halt _ ⟨rfl, hhalt⟩
    exact herror halt (hhalt halt rfl)

theorem seq {H : Halt → Prop} (h : Mirrors hooks Issues env before r₁ r₂ (Quiet H))
    (hok : ∀ a, Mirrors hooks Issues env [] (f₁ a) (f₂ a) (Quiet H)) :
    Mirrors hooks Issues env before (r₁ >>= f₁) (r₂ >>= f₂) (Quiet H) :=
  h.andThen hok fun _ hhalt => ⟨rfl, fun _ heq => Except.error.inj heq ▸ hhalt⟩

theorem quiet_attempt {H : Halt → Prop} (h : Mirrors hooks Issues env before r₁ r₂ (Quiet H)) :
    Mirrors hooks Issues env before (Run.attempt r₁) (Run.attempt r₂) (Quiet Unfailed) :=
  h.attempt fun o failures hquiet => ⟨hquiet.1, fun halt heq e he => by
    unfold attempted at heq
    split at heq
    · cases heq
    · cases heq
    · next hhalt => exact hhalt e ((Except.error.inj heq).trans he)⟩

theorem onHalt {handler₁ handler₂ : Run σ Unit} (h : Mirrors hooks Issues env before r₁ r₂ Φ)
    (hhandler : Mirrors hooks Issues env [] handler₁ handler₂ (Quiet fun _ => False)) :
    Mirrors hooks Issues env before (r₁.onHalt handler₁) (r₂.onHalt handler₂) Φ :=
  h.tryCatch (fun _ _ hok => hok) fun halt failures hΦ =>
    hhandler.andThen (fun _ => throw (by rwa [List.append_nil])) fun _ hfalse => hfalse.elim

theorem forM {H : Halt → Prop} {xs : List α} {g₁ g₂ : α → Run σ Unit}
    (h : ∀ x ∈ xs, Mirrors hooks Issues env [] (g₁ x) (g₂ x) (Quiet H)) :
    Mirrors hooks Issues env [] (xs.forM g₁) (xs.forM g₂) (Quiet H) := by
  induction xs with
  | nil => exact quiet_pure ()
  | cons x xs ih =>
    exact (h x List.mem_cons_self).seq fun _ => ih fun y hy => h y (List.mem_cons_of_mem _ hy)

theorem read_bind {f₁ f₂ : Env σ → Run σ β} (h : Mirrors hooks Issues env before (f₁ env) (f₂ env) Ψ) :
    Mirrors hooks Issues env before (read >>= f₁) (read >>= f₂) Ψ := h

theorem now_bind {f₁ f₂ : ℕ → Run σ β}
    (h : ∀ m, Mirrors hooks Issues env before (f₁ m) (f₂ m) Ψ) :
    Mirrors hooks Issues env before (Run.now >>= f₁) (Run.now >>= f₂) Ψ := fun s => h s.now s

theorem aborted_bind {f₁ f₂ : Bool → Run σ β} (abort : Option ℕ)
    (h : ∀ late, Mirrors hooks Issues env before (f₁ late) (f₂ late) Ψ) :
    Mirrors hooks Issues env before (aborted abort >>= f₁) (aborted abort >>= f₂) Ψ :=
  fun s => h (abort.any (· ≤ s.now)) s

/-- A run that shows hooks nothing and depends on no history. -/
theorem of_recount (h : ∀ (s : State σ) (h : List Event) (ms : List ℕ),
      r.exec env (s.recount h ms) = ((r.exec env s).1, (r.exec env s).2.recount h ms))
    (hΦ : ∀ s, Φ (r.exec env s).1 []) :
    Mirrors hooks Issues env [] r r Φ := by
  intro s h₁ m₁ h₂ m₂
  rw [State.under_eq_recount s h₁, State.under_eq_recount s h₂, h, h]
  exact ⟨(r.exec env (s.under [] [])).1, (r.exec env (s.under [] [])).2, _, _, _, _, [], rfl, rfl,
    .of_silent fun e he => (List.mem_filter.1 he).2, hΦ _⟩

/-- A single event. -/
theorem of_event {H : Halt → Prop} {x : Event}
    (hexec : ∀ s : State σ, ∃ a, ∃ s' : State σ, ∀ h ms, ∃ ms',
      r.exec env (s.under h ms) = (.ok a, s'.under (h ++ [x]) ms'))
    (ha : Annotated hooks Issues (before ++ [x]) [x] []) :
    Mirrors hooks Issues env before r r (Quiet H) := by
  intro s h₁ m₁ h₂ m₂
  obtain ⟨a, s', hevent⟩ := hexec s
  obtain ⟨m₁', he₁⟩ := hevent h₁ m₁
  obtain ⟨m₂', he₂⟩ := hevent h₂ m₂
  exact ⟨.ok a, s', [x], m₁', [x], m₂', [], he₁, he₂, ha, rfl, fun _ heq => nomatch heq⟩

end

/-! ## Steps -/

section
variable {hooks : List Hook} {Issues : String → StatementKind → String → List Value → Prop}
  {env : Env σ} {H : Halt → Prop}

theorem of_modify {f : State σ → State σ}
    (h : ∀ (s : State σ) h ms, f (s.recount h ms) = (f s).recount h ms) :
    Mirrors hooks Issues env [] (modify f : Run σ Unit) (modify f) (Quiet H) :=
  of_recount (fun s hist ms => congrArg (Prod.mk _) (h s hist ms))
    fun _ => ⟨rfl, fun _ heq => nomatch heq⟩

theorem of_modifyGet {f : State σ → α × State σ}
    (h : ∀ (s : State σ) h ms, f (s.recount h ms) = ((f s).1, (f s).2.recount h ms)) :
    Mirrors hooks Issues env [] (modifyGet f : Run σ α) (modifyGet f) (Quiet H) := by
  have hexec : ∀ s : State σ, (modifyGet f : Run σ α).exec env s = (.ok (f s).1, (f s).2) :=
    fun _ => rfl
  exact of_recount (fun s hist ms => by rw [hexec, hexec, h])
    fun _ => ⟨rfl, fun _ heq => nomatch heq⟩

theorem log {e : Event} (he : e.isSilent) :
    Mirrors hooks Issues env [] (Run.log e : Run σ Unit) (Run.log e) (Quiet H) :=
  of_modify fun s h ms => State.log_recount h ms s he

theorem trace (t : Trace) :
    Mirrors hooks Issues env [] (Run.trace t : Run σ Unit) (Run.trace t) (Quiet H) := log rfl

theorem settle : Mirrors hooks Issues env [] (Run.settle : Run σ Unit) Run.settle (Quiet H) :=
  read_bind <| of_modify fun s h ms => State.settle_recount h ms s env.source

theorem advance (t : ℕ) :
    Mirrors hooks Issues env [] (modify (State.advance env.source t) : Run σ Unit)
      (modify (State.advance env.source t)) (Quiet H) :=
  of_modify fun s h ms => State.advance_recount h ms s env.source t

theorem wait (time : Option ℕ) :
    Mirrors hooks Issues env [] (Run.wait time : Run σ Unit) (Run.wait time)
      (Quiet Unfailed) := by
  unfold Run.wait
  split
  · exact quiet_pure ()
  · refine settle.seq fun _ => read_bind <| now_bind fun start => ?_
    dsimp only
    split
    · exact (advance _).seq fun _ => quiet_throw fun _ => Halt.noConfusion
    · split
      · exact advance _
      · exact quiet_throw fun _ => Halt.noConfusion

theorem await (answer : Answer α) :
    Mirrors hooks Issues env [] (Run.await answer) (Run.await answer) (Quiet fun _ => True) :=
  (wait answer.wait).any.seq fun _ => quiet_ofExcept answer.result

/-- A request of which hooks are shown nothing. -/
theorem request {e : Event} (he : e.isSilent) (ask : Source σ → σ → Answer α × σ) :
    Mirrors hooks Issues env [] (Run.request [e] ask) (Run.request [e] ask) (Quiet H) := by
  have hexec : ∀ s : State σ, (Run.request [e] ask).exec env s =
      (.ok (ask env.source s.source).1, { s.log e with source := (ask env.source s.source).2 }) :=
    fun _ => rfl
  refine of_recount (fun s h ms => ?_) fun _ => ⟨rfl, fun _ heq => nomatch heq⟩
  rw [hexec, hexec, State.log_recount h ms s he]
  rfl

/-- A run that is given up after some time. -/
theorem within {r₁ r₂ : Run σ α} {Φ : Reporting α} {Φ' : Reporting (Option α)} (time : ℕ)
    (h : ∀ deadlines, Mirrors hooks Issues { env with deadlines } [] r₁ r₂ Φ)
    (hΦ' : ∀ o failures, Φ o failures → Φ' (givenUp env.deadlines.length o) failures) :
    Mirrors hooks Issues env [] (Run.within time r₁) (Run.within time r₂) Φ' :=
  convert (fun now => { env with deadlines := (now + time) :: env.deadlines })
    (fun r s => exec_within_eq env s time r) (fun _ => h _) hΦ'

/-! ## Cleanups and connections -/

theorem cleanUp (conn : ℕ) (steps : List CleanupStep) :
    Mirrors hooks Issues env [] (Session.cleanUp conn steps : Run σ Unit)
      (Session.cleanUp conn steps) (Quiet Unfailed) :=
  forM fun step _ => read_bind <|
    (of_modifyGet fun s h ms => State.startStep_recount h ms s env.source conn step).seq
      fun answer => (wait answer.wait).seq fun _ =>
        of_modify fun s h ms => State.endStep_recount h ms s step answer.result

theorem race {ask : Run σ (Answer α)} {finish : Except Error α → Run σ β} {stop : Run σ β}
    (abort : Option ℕ) (hask : Mirrors hooks Issues env [] ask ask (Quiet fun _ => True))
    (hfinish : ∀ o, Mirrors hooks Issues env [] (finish o) (finish o) (Quiet fun _ => True))
    (hstop : Mirrors hooks Issues env [] stop stop (Quiet fun _ => True)) :
    Mirrors hooks Issues env [] (Session.race abort ask finish stop)
      (Session.race abort ask finish stop) (Quiet fun _ => True) := by
  unfold Session.race
  refine aborted_bind abort fun late => ?_
  split
  · exact hstop
  · refine hask.seq fun answer => now_bind fun now => ?_
    split
    · exact (wait _).any.seq fun _ => hstop
    · exact (wait _).any.seq fun _ => hfinish _

theorem letGo (l : Lease) :
    Mirrors hooks Issues env [] (l.letGo : Run σ Unit) l.letGo (Quiet H) := by
  unfold Lease.letGo
  split
  · exact quiet_pure ()
  · exact of_modify fun s h ms => State.letGo_recount h ms s l.conn

theorem discard (l : Lease) :
    Mirrors hooks Issues env [] (l.discard : Run σ Unit) l.discard (Quiet H) := by
  unfold Lease.discard
  dsimp only
  split
  · exact letGo l
  · exact (of_modify fun _ _ _ => rfl).seq fun _ => letGo l

theorem release (l : Lease) (interrupted : Bool) :
    Mirrors hooks Issues env [] (l.release interrupted : Run σ Unit) (l.release interrupted)
      (Quiet Unfailed) :=
  ((cleanUp _ _).onHalt (discard l)).seq fun _ => letGo l

theorem use (l : Lease) {body₁ body₂ : Run σ α}
    (h : Mirrors hooks Issues env [] body₁ body₂ (Quiet H)) :
    Mirrors hooks Issues env [] (l.use body₁) (l.use body₂) (Quiet fun _ => True) :=
  (h.quiet_attempt.onHalt (discard l)).any.seq fun result =>
    (release l false).any.seq fun _ => quiet_ofExcept result

theorem acquire (abort : Option ℕ) :
    Mirrors hooks Issues env [] (Session.acquire abort : Run σ ℕ) (Session.acquire abort)
      (Quiet fun _ => True) := by
  refine race abort (request rfl _) (fun o => ?_) (quiet_throw trivial)
  cases o with
  | ok u => exact of_modifyGet fun s h ms => State.hold_recount h ms s
  | error e => exact (log rfl).seq fun _ => quiet_throw trivial

theorem batch (conn : ℕ) (sql : String) :
    Mirrors hooks Issues env [] (Session.batch conn sql : Run σ Unit) (Session.batch conn sql)
      (Quiet fun _ => True) :=
  (request rfl _).seq fun answer => await answer

/-! ## Statements of queries -/

section
variable {operation : String} {kind : StatementKind} {sql : String} {values : List Value}
  (hissues : Issues operation kind sql values) (conn : ℕ)
include hissues

/-- A statement that hooks have just been shown is sent. -/
theorem request_shown (ask : Source σ → σ → Answer α × σ) :
    Mirrors hooks Issues env (bulletin hooks (.statement (.of operation sql values)))
      (Run.request [.sent kind conn sql values] ask)
      (Run.request [.sent kind conn sql values] ask) (Quiet H) :=
  of_event (fun s => ⟨(ask env.source s.source).1,
    { s with source := (ask env.source s.source).2 }, fun _ _ => ⟨_, rfl⟩⟩) (.sent hissues .nil)

/-- The server is asked to stop instead of being sent a statement that hooks have been shown. -/
theorem cancel_shown :
    Mirrors hooks Issues env (bulletin hooks (.statement (.of operation sql values)))
      (Session.cleanUp conn [.cancel] : Run σ Unit) (Session.cleanUp conn [.cancel])
      (Quiet Unfailed) := by
  have hcancel : Mirrors hooks Issues env
      (bulletin hooks (.statement (.of operation sql values)))
      (modifyGet (State.startStep env.source conn .cancel) : Run σ (Answer Unit))
      (modifyGet (State.startStep env.source conn .cancel)) (Quiet Unfailed) :=
    of_event (fun s => ⟨(env.source.cancel conn s.source).1,
      { s with source := (env.source.cancel conn s.source).2 }, fun _ _ => ⟨_, rfl⟩⟩)
      (.withheld hissues .nil)
  refine seq (read_bind <| hcancel.seq fun answer => (wait answer.wait).seq fun _ => ?_)
    fun _ => quiet_pure ()
  exact of_modify fun s h ms => State.endStep_recount h ms s .cancel answer.result

/-- **A statement that hooks have just been shown** is sent and waited for, or withheld if the
caller has aborted. -/
theorem interruptible (abort : Option ℕ) (ask : Source σ → σ → Answer α × σ) :
    Mirrors hooks Issues env (bulletin hooks (.statement (.of operation sql values)))
      (Session.interruptible conn abort (Run.request [.sent kind conn sql values] ask))
      (Session.interruptible conn abort (Run.request [.sent kind conn sql values] ask))
      (Quiet fun _ => True) := by
  unfold Session.interruptible Session.race
  refine aborted_bind abort fun late => ?_
  split
  · exact (cancel_shown hissues conn).any.seq fun _ => quiet_throw trivial
  · refine (request_shown hissues conn ask).seq fun answer => now_bind fun now => ?_
    split
    · exact (wait _).any.seq fun _ => (cleanUp conn _).any.seq fun _ => quiet_throw trivial
    · exact (wait _).any.seq fun _ => quiet_ofExcept _

end

end

end Mirrors

end Run

end QueryClient.Session
