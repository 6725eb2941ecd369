/-
  Histories with and without what hooks are shown.

  What hooks are shown, and the entries that they leave, stand in a history beside everything else
  that happens.

  * `bulletin`: what stands in the history when hooks are shown something;
  * `Annotated`: a history with bulletins and the same history without them: every statement of a
    query comes right after a bulletin of its own;
  * `State.recount`: cleanups, and the passing of time, depend neither on what has happened before
    nor show hooks anything.
-/
import Mathlib.Data.List.Basic
import QueryClient.Session.Connection
import QueryClient.Session.Journal

namespace QueryClient.Session

variable {σ : Type}

/-! ## What hooks are shown -/

/-- Hooks are shown nothing before it: it is not itself shown to them, and not a statement of a
query. -/
def Event.isSilent : Event → Bool
  | .shown _ => false
  | .sent kind _ sql _ => kind = .batch || sql = limitStatement
  | _ => true

/-- The failure that hooks are shown. -/
def Event.failure? : Event → Option ErrorEvent
  | .shown (.failure e) => some e
  | _ => none

/-- What happens when hooks are shown something: nothing if there are none. -/
def bulletin (hooks : List Hook) (e : HookEvent) : List Event :=
  if hooks.isEmpty then [] else .shown e :: (dispatch hooks e).map .traced

/-- A history, the same without what hooks are shown, and the failures that they are shown.  The
statements that `Issues` tells of come right after a bulletin of their own; but one that is withheld
because the caller has aborted is only cancelled. -/
inductive Annotated (hooks : List Hook)
    (Issues : (operation : String) → StatementKind → (sql : String) → List Value → Prop) :
    List Event → List Event → List ErrorEvent → Prop
  | nil : Annotated hooks Issues [] [] []
  | silent {e : Event} {l r : List Event} {failures : List ErrorEvent} : e.isSilent →
    Annotated hooks Issues l r failures → Annotated hooks Issues (e :: l) (e :: r) failures
  | sent {operation : String} {kind : StatementKind} {conn : ℕ} {sql : String}
    {values : List Value} {l r : List Event} {failures : List ErrorEvent} :
    Issues operation kind sql values → Annotated hooks Issues l r failures →
    Annotated hooks Issues
      (bulletin hooks (.statement (.of operation sql values)) ++ .sent kind conn sql values :: l)
      (.sent kind conn sql values :: r) failures
  | withheld {operation : String} {kind : StatementKind} {conn : ℕ} {sql : String}
    {values : List Value} {l r : List Event} {failures : List ErrorEvent} :
    Issues operation kind sql values → Annotated hooks Issues l r failures →
    Annotated hooks Issues
      (bulletin hooks (.statement (.of operation sql values)) ++ .cancelled conn :: l)
      (.cancelled conn :: r) failures
  | failed {e : ErrorEvent} {l r : List Event} {failures : List ErrorEvent} :
    Annotated hooks Issues l r failures →
    Annotated hooks Issues (bulletin hooks (.failure e) ++ l) r (e :: failures)

section
variable {hooks : List Hook} {e : HookEvent}

theorem bulletin_eq (h : hooks ≠ []) :
    bulletin hooks e = .shown e :: (dispatch hooks e).map .traced := by
  rw [bulletin, if_neg (by simpa using h)]

/-- A bulletin consists of what is shown and of entries in the log. -/
theorem mem_bulletin {x : Event} (h : x ∈ bulletin hooks e) :
    x = .shown e ∨ ∃ t, x = .traced t := by
  unfold bulletin at h
  split at h
  · cases h
  · rcases List.mem_cons.1 h with rfl | h
    · exact .inl rfl
    · obtain ⟨t, -, rfl⟩ := List.mem_map.1 h
      exact .inr ⟨t, rfl⟩

theorem sent_notMem_bulletin {kind : StatementKind} {conn : ℕ} {sql : String}
    {values : List Value} : .sent kind conn sql values ∉ bulletin hooks e := fun h => by
  rcases mem_bulletin h with h | ⟨t, h⟩ <;> cases h

theorem filterMap_journal?_bulletin : (bulletin hooks e).filterMap Event.journal? = [] := by
  refine List.filterMap_eq_nil_iff.2 fun x hx => ?_
  rcases mem_bulletin hx with rfl | ⟨t, rfl⟩ <;> rfl

theorem filterMap_failure?_bulletin (h : hooks ≠ []) :
    (bulletin hooks e).filterMap Event.failure? = (Event.shown e).failure?.toList := by
  have htraced : ((dispatch hooks e).map Event.traced).filterMap Event.failure? = [] :=
    List.filterMap_eq_nil_iff.2 fun x hx => by
      obtain ⟨t, -, rfl⟩ := List.mem_map.1 hx
      rfl
  rw [bulletin_eq h, List.filterMap_cons, htraced]
  cases (Event.shown e).failure? <;> rfl

theorem failure?_of_isSilent {x : Event} (h : x.isSilent) : x.failure? = none := by
  cases x with
  | shown e => cases h
  | _ => rfl

end

namespace Annotated

variable {hooks : List Hook}
  {Issues Issues' : String → StatementKind → String → List Value → Prop}
  {l l' r r' : List Event} {failures failures' : List ErrorEvent}

/-! ## Annotated histories -/

theorem append (h : Annotated hooks Issues l r failures)
    (h' : Annotated hooks Issues l' r' failures') :
    Annotated hooks Issues (l ++ l') (r ++ r') (failures ++ failures') := by
  induction h with
  | nil => exact h'
  | silent he _ ih => exact .silent he ih
  | sent hs _ ih => simpa only [List.append_assoc, List.cons_append] using .sent hs ih
  | withheld hs _ ih => simpa only [List.append_assoc, List.cons_append] using .withheld hs ih
  | failed _ ih => simpa only [List.append_assoc, List.cons_append] using .failed ih

theorem mono (h : Annotated hooks Issues l r failures)
    (hle : ∀ operation kind sql values, Issues operation kind sql values →
      Issues' operation kind sql values) :
    Annotated hooks Issues' l r failures := by
  induction h with
  | nil => exact .nil
  | silent he _ ih => exact .silent he ih
  | sent hs _ ih => exact .sent (hle _ _ _ _ hs) ih
  | withheld hs _ ih => exact .withheld (hle _ _ _ _ hs) ih
  | failed _ ih => exact .failed ih

theorem of_silent (h : ∀ e ∈ l, e.isSilent) : Annotated hooks Issues l l [] := by
  induction l with
  | nil => exact .nil
  | cons e l ih =>
    exact .silent (h e List.mem_cons_self) (ih fun x hx => h x (List.mem_cons_of_mem e hx))

/-- The same happens to connections. -/
theorem journal_eq (h : Annotated hooks Issues l r failures) :
    l.filterMap Event.journal? = r.filterMap Event.journal? := by
  induction h with
  | nil => rfl
  | silent _ _ ih => rw [List.filterMap_cons, List.filterMap_cons, ih]
  | sent _ _ ih | withheld _ _ ih =>
    rw [List.filterMap_append, filterMap_journal?_bulletin, List.nil_append, List.filterMap_cons,
      List.filterMap_cons, ih]
  | failed _ ih => rw [List.filterMap_append, filterMap_journal?_bulletin, List.nil_append, ih]

/-- The failures are those that hooks are shown, once each. -/
theorem failures_eq (hhooks : hooks ≠ []) (h : Annotated hooks Issues l r failures) :
    l.filterMap Event.failure? = failures := by
  induction h with
  | nil => rfl
  | silent he _ ih => rw [List.filterMap_cons, failure?_of_isSilent he, ih]
  | sent _ _ ih | withheld _ _ ih =>
    rw [List.filterMap_append, filterMap_failure?_bulletin hhooks, List.filterMap_cons, ih]
    rfl
  | failed _ ih =>
    rw [List.filterMap_append, filterMap_failure?_bulletin hhooks, ih]
    rfl

end Annotated

/-! ## Bulletins and statements -/

/-- A place in two lists, one after the other, is in the first or in the second. -/
theorem exists_of_append_eq {α : Type} {l l' pre post : List α} {x : α}
    (h : l ++ l' = pre ++ x :: post) :
    (∃ post', l = pre ++ x :: post' ∧ post = post' ++ l') ∨
      ∃ pre', pre = l ++ pre' ∧ l' = pre' ++ x :: post := by
  rcases List.append_eq_append_iff.1 h with ⟨pre', hpre, hl⟩ | ⟨back, hl, hpost⟩
  · exact .inr ⟨pre', hpre, hl⟩
  · cases back with
    | nil => exact .inr ⟨[], by simpa using hl.symm, by simpa using hpost.symm⟩
    | cons y back =>
      obtain ⟨rfl, rfl⟩ := List.cons.inj hpost
      exact .inl ⟨back, hl, rfl⟩

section
variable (hooks : List Hook)
  (Issues : (operation : String) → StatementKind → (sql : String) → List Value → Prop)

/-- Right before every statement of a query stands a bulletin of its own. -/
def Announced (l : List Event) : Prop :=
  ∀ pre kind conn sql values post, l = pre ++ .sent kind conn sql values :: post →
    kind ≠ .batch → sql ≠ limitStatement →
    ∃ before operation, Issues operation kind sql values ∧
      (StatementEvent.of operation sql values).params.length = values.length ∧
      pre = before ++ bulletin hooks (.statement (.of operation sql values))

/-- What comes after the bulletin about a statement: the statement itself, or the server is asked
to stop. -/
def Pursued (e : StatementEvent) (rest : List Event) : Prop :=
  ∃ operation kind conn sql values post, Issues operation kind sql values ∧
    e = .of operation sql values ∧
    (rest = .sent kind conn sql values :: post ∨ rest = .cancelled conn :: post)

/-- Whatever is shown, each hook in turn leaves its entries right after it, and after those about a
statement comes the statement. -/
def Delivered (l : List Event) : Prop :=
  ∀ pre e post, l = pre ++ .shown e :: post →
    ∃ rest, post = (hooks.flatMap fun hook => (hook e).allTraces).map .traced ++ rest ∧
      ∀ statement, e = .statement statement → Pursued Issues statement rest

end

section
variable {hooks : List Hook}
  {Issues : String → StatementKind → String → List Value → Prop}
  {l l' r : List Event} {failures : List ErrorEvent}

theorem Announced.append (h : Announced hooks Issues l) (h' : Announced hooks Issues l') :
    Announced hooks Issues (l ++ l') := by
  intro pre kind conn sql values post hsplit hkind hsql
  rcases exists_of_append_eq hsplit with ⟨post', hl, -⟩ | ⟨pre', rfl, hl'⟩
  · exact h pre kind conn sql values post' hl hkind hsql
  · obtain ⟨before, operation, hissues, hparams, rfl⟩ :=
      h' pre' kind conn sql values post hl' hkind hsql
    exact ⟨l ++ before, operation, hissues, hparams, by rw [List.append_assoc]⟩

theorem Announced.of_notMem (h : ∀ kind conn sql values, .sent kind conn sql values ∈ l →
    kind = .batch ∨ sql = limitStatement) : Announced hooks Issues l := by
  rintro pre kind conn sql values post rfl hkind hsql
  exact absurd (h kind conn sql values (List.mem_append_right _ List.mem_cons_self))
    (not_or.2 ⟨hkind, hsql⟩)

theorem announced_bulletin (e : HookEvent) : Announced hooks Issues (bulletin hooks e) :=
  .of_notMem fun _ _ _ _ h => absurd h sent_notMem_bulletin

theorem Delivered.append (h : Delivered hooks Issues l) (h' : Delivered hooks Issues l') :
    Delivered hooks Issues (l ++ l') := by
  intro pre e post hsplit
  rcases exists_of_append_eq hsplit with ⟨post', hl, rfl⟩ | ⟨pre', rfl, hl'⟩
  · obtain ⟨rest, rfl, hpursued⟩ := h pre e post' hl
    refine ⟨rest ++ l', by rw [List.append_assoc], fun statement he => ?_⟩
    obtain ⟨operation, kind, conn, sql, values, back, hissues, hof, hrest⟩ := hpursued statement he
    refine ⟨operation, kind, conn, sql, values, back ++ l', hissues, hof, ?_⟩
    rcases hrest with rfl | rfl
    · exact .inl rfl
    · exact .inr rfl
  · exact h' pre' e post hl'

theorem Delivered.of_notMem (h : ∀ e, .shown e ∉ l) : Delivered hooks Issues l := by
  rintro pre e post rfl
  exact absurd (List.mem_append_right _ List.mem_cons_self) (h e)

/-- A bulletin with something after it that is not shown. -/
theorem delivered_bulletin {e : HookEvent} {rest : List Event} (hrest : ∀ e, .shown e ∉ rest)
    (h : ∀ statement, e = .statement statement → Pursued Issues statement rest) :
    Delivered hooks Issues (bulletin hooks e ++ rest) := by
  by_cases hhooks : hooks = []
  · subst hhooks
    exact .of_notMem hrest
  rw [bulletin_eq hhooks]
  have htail : ∀ e', .shown e' ∉ (dispatch hooks e).map Event.traced ++ rest := by
    intro e' hmem
    rcases List.mem_append.1 hmem with hmem | hmem
    · obtain ⟨t, -, ht⟩ := List.mem_map.1 hmem
      cases ht
    · exact hrest e' hmem
  intro pre e' post hsplit
  rcases List.cons_eq_append_iff.1 hsplit with ⟨rfl, hsame⟩ | ⟨pre', rfl, htail'⟩
  · obtain ⟨he, rfl⟩ := List.cons.inj hsame
    cases he
    exact ⟨rest, rfl, h⟩
  · have hmem : Event.shown e' ∈ pre' ++ .shown e' :: post :=
      List.mem_append_right _ List.mem_cons_self
    rw [← htail'] at hmem
    exact absurd hmem (htail e')

theorem delivered_statement {operation : String} {kind : StatementKind} {conn : ℕ} {sql : String}
    {values : List Value} {next : Event} (hissues : Issues operation kind sql values)
    (hnext : next = .sent kind conn sql values ∨ next = .cancelled conn) :
    Delivered hooks Issues
      (bulletin hooks (.statement (.of operation sql values)) ++ [next]) := by
  refine delivered_bulletin (fun e hmem => ?_) fun statement he => ?_
  · obtain rfl := List.mem_singleton.1 hmem
    rcases hnext with h | h <;> cases h
  · cases he
    refine ⟨operation, kind, conn, sql, values, [], hissues, rfl, ?_⟩
    rcases hnext with rfl | rfl
    · exact .inl rfl
    · exact .inr rfl

theorem Annotated.announced (h : Annotated hooks Issues l r failures) :
    Announced hooks Issues l := by
  induction h with
  | nil => exact .of_notMem fun _ _ _ _ hmem => by cases hmem
  | silent he _ ih =>
    refine Announced.append (l := [_]) (.of_notMem fun kind conn sql values hmem => ?_) ih
    obtain rfl := List.mem_singleton.1 hmem
    simpa [Event.isSilent] using he
  | @sent operation kind conn sql values l r failures hs _ ih =>
    have hblock : Announced hooks Issues
        (bulletin hooks (.statement (.of operation sql values)) ++ [.sent kind conn sql values]) := by
      intro pre kind' conn' sql' values' post hsplit hkind hsql
      rcases exists_of_append_eq hsplit with ⟨post', hl, -⟩ | ⟨pre', rfl, hone⟩
      · exact absurd (hl ▸ List.mem_append_right _ List.mem_cons_self) sent_notMem_bulletin
      · cases pre' with
        | nil =>
          cases hone
          exact ⟨[], operation, hs, List.length_map _, by rw [List.append_nil, List.nil_append]⟩
        | cons x pre' => simp at hone
    simpa using hblock.append ih
  | withheld _ _ ih =>
    refine (announced_bulletin _).append (Announced.append (l := [_]) (.of_notMem ?_) ih)
    intro kind conn sql values hmem
    cases List.mem_singleton.1 hmem
  | failed _ ih => exact (announced_bulletin _).append ih

theorem Annotated.delivered (h : Annotated hooks Issues l r failures) :
    Delivered hooks Issues l := by
  induction h with
  | nil => exact .of_notMem fun _ hmem => by cases hmem
  | silent he _ ih =>
    refine Delivered.append (l := [_]) (.of_notMem fun e hmem => ?_) ih
    obtain rfl := List.mem_singleton.1 hmem
    cases he
  | sent hs _ ih => simpa using (delivered_statement hs (.inl rfl)).append ih
  | withheld hs _ ih => simpa using (delivered_statement hs (.inr rfl)).append ih
  | @failed e l r failures _ ih =>
    have hblock : Delivered hooks Issues (bulletin hooks (.failure e) ++ []) :=
      delivered_bulletin (fun _ hmem => by cases hmem) fun _ he => by cases he
    simpa using hblock.append ih

end

/-! ## Cleanups and the passing of time -/

namespace State

/-- The state with another history before its own, of which only the silent events are kept.  What
commutes with this depends on no history and adds silent events only. -/
def recount (h : List Event) (ms : List ℕ) (s : State σ) : State σ :=
  { s with history := h ++ s.history.filter Event.isSilent, moments := ms ++ s.moments }

section
variable (h : List Event) (ms : List ℕ) (s : State σ) (source : Source σ)

theorem log_recount {e : Event} (he : e.isSilent) :
    (s.recount h ms).log e = (s.log e).recount h ms := by
  simp only [log, recount, List.filter_append, List.filter_cons_of_pos he, List.filter_nil,
    List.append_assoc]

theorem releaseUnless_recount (others : List Cleanup) (conn : ℕ) :
    (s.recount h ms).releaseUnless others conn = (s.releaseUnless others conn).recount h ms := by
  have hlog := log_recount h ms s (e := .released conn) rfl
  unfold releaseUnless
  split_ifs with hheld hheld' hheld'
  · rfl
  · exact absurd hheld hheld'
  · exact absurd hheld' hheld
  · exact hlog

theorem hold_recount : (s.recount h ms).hold = (s.hold.1, s.hold.2.recount h ms) :=
  Prod.ext rfl <| log_recount h ms
    { s with connections := s.connections + 1, held := (s.connections + 1) :: s.held }
    (e := .acquired (s.connections + 1)) rfl

theorem letGo_recount (conn : ℕ) : (s.recount h ms).letGo conn = (s.letGo conn).recount h ms :=
  releaseUnless_recount h ms { s with held := s.held.erase conn } s.cleanups conn

theorem startStep_recount (conn : ℕ) (step : CleanupStep) :
    startStep source conn step (s.recount h ms) =
      ((startStep source conn step s).1, (startStep source conn step s).2.recount h ms) := by
  cases step with
  | cancel =>
    simp only [startStep, log_recount h ms s (e := .cancelled conn) rfl]
    rfl
  | reset =>
    simp only [startStep, log_recount h ms s (e := .sent .batch conn resetStatement []) rfl]
    rfl

theorem endStep_recount (step : CleanupStep) (result : Except Error Unit) :
    (s.recount h ms).endStep step result = (s.endStep step result).recount h ms := by
  unfold endStep
  cases step.trace? result with
  | none => rfl
  | some t => exact log_recount h ms s rfl

theorem runSteps_recount (conn : ℕ) (steps : List CleanupStep) :
    runSteps source conn steps (s.recount h ms) =
      ((runSteps source conn steps s).1.recount h ms, (runSteps source conn steps s).2) := by
  induction steps generalizing s with
  | nil => rfl
  | cons step rest ih =>
    simp only [runSteps, startStep_recount]
    split
    · rw [endStep_recount, ih]
    · rfl

theorem runCleanup_recount (c : Cleanup) :
    runCleanup source c (s.recount h ms) =
      ((runCleanup source c s).1.recount h ms, (runCleanup source c s).2) := by
  unfold runCleanup
  cases c.pending with
  | none => exact runSteps_recount h ms s source c.conn c.steps
  | some p =>
    dsimp only
    rw [show (s.recount h ms).now = s.now from rfl]
    split
    · rw [endStep_recount, runSteps_recount]
    · rfl

theorem settleAll_recount (cleanups : List Cleanup) :
    settleAll source cleanups (s.recount h ms) = (settleAll source cleanups s).recount h ms := by
  induction cleanups generalizing s with
  | nil => rfl
  | cons c rest ih =>
    rw [settleAll, runCleanup_recount, settleAll]
    rcases runCleanup source c s with ⟨s', _ | c'⟩
    · dsimp only
      rw [show (s'.recount h ms).cleanups = s'.cleanups from rfl, releaseUnless_recount, ih]
    · exact ih { s' with cleanups := s'.cleanups ++ [c'] }

theorem settle_recount : settle source (s.recount h ms) = (settle source s).recount h ms :=
  settleAll_recount h ms { s with cleanups := [] } source s.cleanups

theorem advanceWithin_recount (t fuel : ℕ) :
    advanceWithin source t fuel (s.recount h ms) =
      (advanceWithin source t fuel s).recount h ms := by
  induction fuel generalizing s with
  | zero => rfl
  | succ fuel ih =>
    rw [advanceWithin, advanceWithin, show (s.recount h ms).cleanups = s.cleanups from rfl]
    cases nextDue t s.cleanups with
    | none => rfl
    | some due =>
      have hsettle := settle_recount h ms { s with now := max s.now due } source
      exact (congrArg _ hsettle).trans (ih _)

theorem advance_recount (t : ℕ) :
    advance source t (s.recount h ms) = (advance source t s).recount h ms :=
  advanceWithin_recount h ms s source t _

end

end State

end QueryClient.Session
