/-
  What runs do, and when.

  A run passes through moves.  Its deeds are listed in order with their moments; time passes only
  while it waits, and cleanups go on meanwhile.

  * `Run.Acts env m r Q`: a run that starts at some moment passes to its end by moves, and its
    outcome, its deeds and the moment of its end are as stated; only a caller that it has gives it
    up; there is one rule for each way in which runs are put together;
  * `Acts.follow`: a run that goes on after another one, from which the rules follow for values, for
    failures and for both;
  * `Waits`: how waiting ends.
-/
import QueryClient.Proofs.Session.Alike
import QueryClient.Proofs.Session.Exec

namespace QueryClient.Session

variable {σ α β : Type}

/-- What can be said of a run: of its outcome, its deeds and the moment of its end. -/
abbrev Account (α : Type) := Except Halt α → List Deed → ℕ → Prop

/-- A run that was given up was so by one of its callers, who are numbered. -/
def Halt.Among (callers : ℕ) : Halt → Prop
  | .dropped level => level < callers
  | _ => True

namespace Run

/-- A run that starts at a moment passes to its end by moves, as stated.  All that it depends on is
what it asks for. -/
structure Acts (env : Env σ) (m : ℕ) (r : Run σ α) (Q : Account α) : Prop where
  course : ∀ s, s.now = m → ∃ ds entries, Passage env.source s ds entries (r.exec env s).2 ∧
    Q (r.exec env s).1 ds (r.exec env s).2.now ∧
    ∀ B, env.source.AlikeOn B ds → r.exec ⟨B, env.deadlines⟩ s = r.exec env s
  among : ∀ s halt, s.now = m → (r.exec env s).1 = .error halt → halt.Among env.deadlines.length

/-- What comes of an attempt: failures are values. -/
inductive Tried (B : Account α) : Account (Except Error α)
  | ended {o : Except Error α} {ds m'} : B (o.mapError .failed) ds m' → Tried B (.ok o) ds m'
  | halted {halt ds m'} : (∀ e, halt ≠ .failed e) → B (.error halt) ds m' →
    Tried B (.error halt) ds m'

/-- There is a value, and neither a deed nor a wait. -/
def Still (m : ℕ) : Account α := fun o ds m' => (∃ a, o = .ok a) ∧ ds = [] ∧ m' = m

section
variable {env : Env σ} {m : ℕ} {r : Run σ α} {f : α → Run σ β} {P R : Account α} {Q : Account β}

theorem Acts.passes (h : Acts env m r R) (s : State σ) (hs : s.now = m) :
    ∃ ds entries, Passage env.source s ds entries (r.exec env s).2 ∧
      R (r.exec env s).1 ds (r.exec env s).2.now := by
  obtain ⟨ds, entries, hpassage, hR, -⟩ := h.course s hs
  exact ⟨ds, entries, hpassage, hR⟩

theorem Acts.mono (h : Acts env m r R) (hP : ∀ o ds m', R o ds m' → P o ds m') :
    Acts env m r P := by
  refine ⟨fun s hs => ?_, h.among⟩
  obtain ⟨ds, entries, hpassage, hR, hsame⟩ := h.course s hs
  exact ⟨ds, entries, hpassage, hP _ _ _ hR, hsame⟩

theorem Acts.pure {a : α} (h : P (.ok a) [] m) : Acts env m (pure a) P := by
  refine ⟨?_, fun _ _ _ ho => nomatch ho⟩
  rintro s rfl
  exact ⟨[], [], .refl s, h, fun _ _ => rfl⟩

theorem Acts.throw {halt : Halt} (hamong : halt.Among env.deadlines.length)
    (h : P (.error halt) [] m) : Acts env m (throw halt) P := by
  refine ⟨?_, fun _ _ _ ho => Except.error.inj ho ▸ hamong⟩
  rintro s rfl
  exact ⟨[], [], .refl s, h, fun _ _ => rfl⟩

theorem Acts.ofExcept {o : Except Error α} (h : P (o.mapError .failed) [] m) :
    Acts env m (ofExcept o) P := by
  cases o with
  | ok a => exact .pure h
  | error e => exact .throw trivial h

/-- A run goes on after another one according to what comes of that. -/
theorem Acts.follow {r' : Run σ β} (h : Acts env m r R) (next : Except Halt α → Run σ β)
    (hexec : ∀ env s, r'.exec env s = (next (r.exec env s).1).exec env (r.exec env s).2)
    (hnext : ∀ o ds m₁, (∀ halt, o = .error halt → halt.Among env.deadlines.length) → R o ds m₁ →
      Acts env m₁ (next o) fun o' ds' m' => Q o' (ds ++ ds') m') :
    Acts env m r' Q := by
  refine ⟨fun s hs => ?_, fun s halt hs ho => ?_⟩ <;>
    obtain ⟨ds, entries, hpassage, hR, hsame⟩ := h.course s hs <;>
    have hrest := hnext _ _ _ (fun halt => h.among s halt hs) hR
  · obtain ⟨ds', entries', hpassage', hQ, hsame'⟩ := hrest.course _ rfl
    rw [hexec]
    refine ⟨ds ++ ds', entries ++ entries', hpassage.trans hpassage', hQ, fun B halike => ?_⟩
    rw [hexec, hsame B halike.left]
    exact hsame' B halike.right
  · rw [hexec] at ho
    exact hrest.among _ halt rfl ho

theorem Acts.bind (h : Acts env m r R)
    (hok : ∀ a ds m₁, R (.ok a) ds m₁ →
      Acts env m₁ (f a) fun o ds' m' => Q o (ds ++ ds') m')
    (herror : ∀ halt ds m', R (.error halt) ds m' → Q (.error halt) ds m') :
    Acts env m (r >>= f) Q := by
  refine h.follow (fun
    | .ok a => f a
    | .error halt => MonadExcept.throw halt) (fun env s => ?_) fun o ds m₁ hamong hR => ?_
  · rw [exec_bind]
    rcases r.exec env s with ⟨_ | _, _⟩ <;> rfl
  · cases o with
    | ok a => exact hok a ds m₁ hR
    | error halt => exact .throw (hamong halt rfl) (by simpa using herror halt ds m₁ hR)

theorem Acts.tryCatch {g : Halt → Run σ α} (h : Acts env m r R)
    (hok : ∀ a ds m', R (.ok a) ds m' → P (.ok a) ds m')
    (herror : ∀ halt ds m₁, halt.Among env.deadlines.length → R (.error halt) ds m₁ →
      Acts env m₁ (g halt) fun o ds' m' => P o (ds ++ ds') m') :
    Acts env m (tryCatch r g) P := by
  refine h.follow (fun
    | .ok a => Pure.pure a
    | .error halt => g halt) (fun env s => ?_) fun o ds m₁ hamong hR => ?_
  · rw [exec_tryCatch]
    rcases r.exec env s with ⟨_ | _, _⟩ <;> rfl
  · cases o with
    | ok a => exact .pure (by simpa using hok a ds m₁ hR)
    | error halt => exact herror halt ds m₁ (hamong halt rfl) hR

/-- An attempt at a run comes to what the run comes to. -/
theorem Acts.attempt (h : Acts env m r R) : Acts env m (attempt r) (Tried R) := by
  refine h.follow (fun
    | .ok a => Pure.pure (.ok a)
    | .error halt => Run.attempt (MonadExcept.throw halt)) (fun env s => ?_)
    fun o ds m₁ hamong hR => ?_
  · rw [exec_attempt]
    rcases r.exec env s with ⟨halt | _, _⟩
    · cases halt <;> rfl
    · rfl
  · rw [← List.append_nil ds] at hR
    rcases o with halt | a
    · cases halt with
      | failed e => exact .pure (.ended (o := .error e) hR)
      | dropped level => exact .throw (hamong _ rfl) (.halted (fun _ => Halt.noConfusion) hR)
      | panicked text => exact .throw trivial (.halted (fun _ => Halt.noConfusion) hR)
      | stuck => exact .throw trivial (.halted (fun _ => Halt.noConfusion) hR)
    · exact .pure (.ended (o := .ok a) hR)

/-- What follows an attempt goes on with its outcome, unless the attempt was halted. -/
theorem Acts.attempt_bind {f : Except Error α → Run σ β} (h : Acts env m r R)
    (hended : ∀ (o : Except Error α) ds m₁, R (o.mapError .failed) ds m₁ →
      Acts env m₁ (f o) fun o' ds' m' => Q o' (ds ++ ds') m')
    (hhalt : ∀ halt ds m', (∀ e, halt ≠ .failed e) → R (.error halt) ds m' →
      Q (.error halt) ds m') :
    Acts env m (Run.attempt r >>= f) Q := by
  refine h.attempt.bind (fun o ds m₁ h => ?_) fun halt ds m' h => ?_
  · cases h with | ended h => exact hended o ds m₁ h
  · cases h with | halted hfailed h => exact hhalt halt ds m' hfailed h

theorem Acts.onHalt {handler : Run σ Unit} {undo : ℕ → List Deed} (h : Acts env m r R)
    (hhandler : ∀ m₁, Acts env m₁ handler fun o ds m' => o = .ok () ∧ ds = undo m₁ ∧ m' = m₁)
    (hok : ∀ a ds m', R (.ok a) ds m' → P (.ok a) ds m')
    (herror : ∀ halt ds m', R (.error halt) ds m' → P (.error halt) (ds ++ undo m') m') :
    Acts env m (r.onHalt handler) P := by
  refine h.tryCatch hok fun halt ds m₁ hamong hR => ?_
  refine (hhandler m₁).bind (fun _ ds' m' h' => ?_) fun _ _ _ h' => nomatch h'.1
  obtain ⟨-, rfl, rfl⟩ := h'
  refine .throw hamong ?_
  rw [List.append_nil]
  exact herror halt ds m' hR

/-- What a finalizer does comes in the end, whatever the run comes to. -/
theorem Acts.ensuring {finalizer : Run σ Unit} {final : ℕ → List Deed} (h : Acts env m r R)
    (hfinalizer : ∀ m₁, Acts env m₁ finalizer fun o ds m' =>
      o = .ok () ∧ ds = final m₁ ∧ m' = m₁)
    (hP : ∀ o ds m', R o ds m' → P o (ds ++ final m') m') :
    Acts env m (r.ensuring finalizer) P := by
  have honHalt : Acts env m (r.onHalt finalizer) fun o ds m' =>
      (∃ a, o = .ok a ∧ R (.ok a) ds m') ∨ ∃ halt, o = .error halt ∧ P (.error halt) ds m' :=
    h.onHalt hfinalizer (fun a _ _ hR => Or.inl ⟨a, rfl, hR⟩)
      fun halt ds m' hR => Or.inr ⟨halt, rfl, hP _ ds m' hR⟩
  refine honHalt.bind (fun a ds m₁ h => ?_) fun halt ds m' h => ?_
  · rcases h with ⟨_, ⟨⟩, hR⟩ | ⟨_, he, -⟩
    · refine (hfinalizer m₁).bind (fun _ ds' m' h' => .pure ?_) fun _ _ _ h' => nomatch h'.1
      obtain ⟨-, rfl, rfl⟩ := h'
      rw [List.append_nil]
      exact hP _ ds m' hR
    · cases he
  · rcases h with ⟨_, he, -⟩ | ⟨_, ⟨⟩, hP⟩
    · cases he
    · exact hP

/-- A run that is limited in time does the same up to some moment. -/
theorem Acts.within {time : ℕ} (h : ∀ deadlines, Acts ⟨env.source, deadlines⟩ m r R)
    {P : Account (Option α)} (hok : ∀ a ds m', R (.ok a) ds m' → P (.ok (some a)) ds m')
    (hdropped : ∀ level ds m', R (.error (.dropped level)) ds m' → P (.ok none) ds m')
    (herror : ∀ halt ds m', R (.error halt) ds m' → P (.error halt) ds m') :
    Acts env m (within time r) P := by
  refine ⟨fun s hs => ?_, fun s halt hs ho => ?_⟩
  · obtain ⟨ds, entries, hpassage, hR, hsame⟩ :=
      (h ((s.now + time) :: env.deadlines)).course s hs
    have hlimited : ∀ B, env.source.AlikeOn B ds →
        (Run.within time r).exec ⟨B, env.deadlines⟩ s = (Run.within time r).exec env s :=
      fun B halike => by
        rw [exec_within, exec_within]
        dsimp only
        rw [hsame B halike]
    refine ⟨ds, entries, ?_⟩
    rw [exec_within] at hlimited ⊢
    rcases hr : r.exec { env with deadlines := (s.now + time) :: env.deadlines } s with
      ⟨halt | a, s'⟩ <;> rw [hr] at hpassage hR hlimited
    · cases halt with
      | dropped level =>
        refine ⟨hpassage, ?_, hlimited⟩
        dsimp only
        split
        · exact hdropped level _ _ hR
        · exact herror _ _ _ hR
      | failed e => exact ⟨hpassage, herror _ _ _ hR, hlimited⟩
      | panicked text => exact ⟨hpassage, herror _ _ _ hR, hlimited⟩
      | stuck => exact ⟨hpassage, herror _ _ _ hR, hlimited⟩
    · exact ⟨hpassage, hok a _ _ hR, hlimited⟩
  · rw [exec_within] at ho
    have hamong := (h ((s.now + time) :: env.deadlines)).among s
    rcases hr : r.exec { env with deadlines := (s.now + time) :: env.deadlines } s with
      ⟨halt' | a, s'⟩ <;> rw [hr] at ho hamong
    · cases halt' with
      | dropped level =>
        have hlevel : level < env.deadlines.length + 1 := hamong _ hs rfl
        dsimp only at ho
        split at ho
        · cases ho
        · next hother =>
          obtain rfl := Except.error.inj ho
          exact Nat.lt_of_le_of_ne (Nat.le_of_lt_succ hlevel) hother
      | failed e | panicked text | stuck => exact Except.error.inj ho ▸ trivial
    · cases ho

/-- A run that reads its environment does so for its deadlines and for cleanups. -/
theorem Acts.read_bind {f : Env σ → Run σ β} (h : Acts env m (f env) Q)
    (hf : ∀ B, env.source.CleansAlike B → f ⟨B, env.deadlines⟩ = f env) :
    Acts env m (read >>= f) Q := by
  refine ⟨fun s hs => ?_, h.among⟩
  obtain ⟨ds, entries, hpassage, hQ, hsame⟩ := h.course s hs
  refine ⟨ds, entries, hpassage, hQ, fun B halike => ?_⟩
  have hread : (read >>= f).exec ⟨B, env.deadlines⟩ s =
      (f ⟨B, env.deadlines⟩).exec ⟨B, env.deadlines⟩ s := rfl
  rw [hread, hf B halike.cleans]
  exact hsame B halike

theorem Acts.now_bind {f : ℕ → Run σ β} (h : Acts env m (f m) Q) :
    Acts env m (now >>= f) Q := by
  refine ⟨?_, ?_⟩
  · rintro s rfl
    exact h.course s rfl
  · rintro s halt rfl ho
    exact h.among s halt rfl ho

theorem Acts.still_bind (h : Acts env m r (Still m)) (hf : ∀ a, Acts env m (f a) Q) :
    Acts env m (r >>= f) Q := by
  refine h.bind (fun a ds m₁ h' => ?_) fun _ _ _ h' => nomatch h'.1
  obtain ⟨-, rfl, rfl⟩ := h'
  exact hf a

/-! ## Single moves -/

theorem Acts.modifyGet {g : State σ → α × State σ} {P : Account α}
    (h : ∀ s, s.now = m → ∃ ds entries, Passage env.source s ds entries (g s).2 ∧
      P (.ok (g s).1) ds (g s).2.now) :
    Acts env m (modifyGet g) P := by
  refine ⟨fun s hs => ?_, fun _ _ _ ho => nomatch ho⟩
  obtain ⟨ds, entries, hpassage, hP⟩ := h s hs
  exact ⟨ds, entries, hpassage, hP, fun _ _ => rfl⟩

theorem Acts.modify {g : State σ → State σ} {P : Account Unit}
    (h : ∀ s, s.now = m → ∃ ds entries, Passage env.source s ds entries (g s) ∧
      P (.ok ()) ds (g s).now) :
    Acts env m (modify g) P := modifyGet h

end

section
variable {env : Env σ} {m : ℕ}

theorem acts_log {e : Event} (he : e.isAside) : Acts env m (log e) (Still m) := by
  refine .modify ?_
  rintro s rfl
  exact ⟨[], _, .single (.notes he), ⟨(), rfl⟩, rfl, rfl⟩

theorem acts_trace (t : Trace) : Acts env m (trace t) (Still m) := acts_log rfl

/-- A connection is let go of. -/
theorem acts_modify_letGo (conn : ℕ) : Acts env m (modify (·.letGo conn) : Run σ Unit)
    fun o ds m' => o = .ok () ∧ ds = [.letGo m conn] ∧ m' = m := by
  refine .modify ?_
  rintro s rfl
  obtain ⟨entries, hletsGo⟩ := State.moves_letGo env.source s conn
  exact ⟨_, _, .single hletsGo, rfl, rfl, State.now_releaseUnless _ _⟩

/-- A request is made, and its answer given back. -/
theorem acts_request {r : Request} {ask : Source σ → σ → Answer α × σ} (yield : α → Yield)
    (hask : ∀ st, env.source.respond r st = (ask env.source st).map (.map yield) id)
    (hsame : ∀ B, env.source.AlikeAt B r → ask env.source = ask B) :
    Acts env m (request [r.event] ask) fun o ds m' =>
      ∃ a : Answer α, o = .ok a ∧ ds = [.asked m r (a.map yield)] ∧ m' = m := by
  have hexec : ∀ source s, (request [r.event] ask).exec ⟨source, env.deadlines⟩ s =
      (.ok (ask source s.source).1, { s.log r.event with source := (ask source s.source).2 }) :=
    fun _ _ => rfl
  have hafter : ∀ s, (request [r.event] ask).exec env s =
      (.ok (ask env.source s.source).1, s.afterRequest env.source r) := fun s => by
    rw [State.afterRequest, hask]
    rfl
  refine ⟨?_, fun s _ _ ho => by rw [hafter] at ho; cases ho⟩
  rintro s rfl
  have hanswer : s.answerTo env.source r = (ask env.source s.source).1.map yield := by
    rw [State.answerTo, hask]
    rfl
  have hlike : ∀ B, env.source.AlikeOn B [.asked s.now r (s.answerTo env.source r)] →
      (request [r.event] ask).exec ⟨B, env.deadlines⟩ s =
        (.ok (ask env.source s.source).1, s.afterRequest env.source r) := fun B halike => by
    rw [hexec, ← hsame B (halike.asked List.mem_cons_self), ← hexec env.source]
    exact hafter s
  rw [hafter]
  refine ⟨_, _, .single .asks, ⟨_, rfl, ?_, rfl⟩, hlike⟩
  rw [hanswer]
  rfl

/-! ## Waiting -/

/-- The first of some deadlines is an outer one, or the innermost one, which is before the target. -/
theorem firstDeadline_cons {target : Option ℕ} {d₀ : ℕ} {outer : List ℕ} {level d : ℕ}
    (h : firstDeadline target (d₀ :: outer) = some (level, d)) :
    firstDeadline target outer = some (level, d) ∨
      level = outer.length ∧ d = d₀ ∧ ∀ t ∈ target, d₀ < t := by
  have hhere : ∀ {found : ℕ × ℕ},
      (if target.all (d₀ < ·) then some (outer.length, d₀) else none) = some found →
      found = (outer.length, d₀) ∧ ∀ t ∈ target, d₀ < t := by
    intro found hif
    obtain ⟨hall, he⟩ := Option.ite_none_right_eq_some.1 hif
    refine ⟨(Option.some.inj he).symm, fun t ht => ?_⟩
    rw [Option.mem_def.1 ht] at hall
    simpa using hall
  rw [firstDeadline] at h
  split at h
  · next hif hrest =>
    split at h <;> cases h
    · exact Or.inl hrest
    · obtain ⟨hfound, hbefore⟩ := hhere hif
      cases hfound
      exact Or.inr ⟨rfl, rfl, hbefore⟩
  · next hif _ =>
    cases h
    obtain ⟨hfound, hbefore⟩ := hhere hif
    cases hfound
    exact Or.inr ⟨rfl, rfl, hbefore⟩
  · exact Or.inl h

theorem level_lt_of_firstDeadline {target : Option ℕ} {deadlines : List ℕ} {level d : ℕ}
    (h : firstDeadline target deadlines = some (level, d)) : level < deadlines.length := by
  induction deadlines with
  | nil => cases h
  | cons d₀ outer ih =>
    rw [List.length_cons]
    rcases firstDeadline_cons h with hrest | ⟨rfl, -, -⟩
    · exact Nat.lt_succ_of_lt (ih hrest)
    · exact Nat.lt_succ_self _

theorem lt_of_firstDeadline {target : Option ℕ} {deadlines : List ℕ} {level d : ℕ}
    (h : firstDeadline target deadlines = some (level, d)) : ∀ t ∈ target, d < t := by
  induction deadlines with
  | nil => cases h
  | cons d₀ outer ih =>
    rcases firstDeadline_cons h with hrest | ⟨-, rfl, hbefore⟩
    · exact ih hrest
    · exact hbefore

/-- How waiting ends: the time is over, or the caller gives up before.  It never ends only if it is
for something that never comes. -/
inductive Waits (time : Option ℕ) (m : ℕ) : Account Unit
  | past {w} : time = some w → Waits time m (.ok ()) [] (m + w)
  | givenUp {halt m'} : halt.givenUp → m ≤ m' → (∀ w ∈ time, halt ≠ .stuck ∧ m' < m + w) →
    Waits time m (.error halt) [] m'

theorem acts_advance (t : ℕ) :
    Acts env m (MonadState.modifyGet fun s => ((), State.advance env.source t s) : Run σ Unit)
      fun o ds m' => o = .ok () ∧ ds = [] ∧ m' = max m t := by
  refine .modify ?_
  rintro s rfl
  obtain ⟨⟨entries, hidle⟩, hnow⟩ := State.idle_advance env.source s t
  exact ⟨[], entries, hidle, rfl, rfl, hnow⟩

theorem acts_settle : Acts env m settle (Still m) := by
  refine .read_bind (.modify ?_) fun B hcleans => by rw [State.settle_alike hcleans]
  rintro s rfl
  obtain ⟨⟨entries, hidle⟩, hnow, -⟩ := State.idle_settle env.source s
  exact ⟨[], entries, hidle, ⟨(), rfl⟩, rfl, hnow⟩

/-- **Waiting** is no deed, and ends in one of these ways. -/
theorem acts_wait (time : Option ℕ) : Acts env m (wait time) (Waits time m) := by
  unfold wait
  split
  · next hzero => exact .pure (hzero ▸ .past rfl)
  · next hpos =>
    refine acts_settle.still_bind fun _ => .read_bind (.now_bind ?_)
      fun B hcleans => by simp only [State.advance_alike hcleans]
    dsimp only
    split
    · next level d hd =>
      refine (acts_advance d).bind (fun _ ds m' h => ?_) fun _ _ _ h => nomatch h.1
      obtain ⟨-, rfl, rfl⟩ := h
      refine .throw (level_lt_of_firstDeadline hd)
        (.givenUp rfl (Nat.le_max_left _ _) fun w hw => ⟨Halt.noConfusion, ?_⟩)
      have hbefore : d < m + w := lt_of_firstDeadline hd _ (by rw [Option.mem_def.1 hw]; rfl)
      have hw0 : w ≠ 0 := fun h0 => hpos (h0 ▸ hw)
      omega
    · split
      · next t ht =>
        obtain ⟨w, rfl, rfl⟩ := Option.map_eq_some_iff.1 ht
        refine (acts_advance (m + w)).mono fun o ds m' h => ?_
        obtain ⟨rfl, rfl, rfl⟩ := h
        rw [Nat.max_eq_right (Nat.le_add_right _ _)]
        exact .past rfl
      · next hnone =>
        rw [Option.map_eq_none_iff] at hnone
        refine .throw trivial (.givenUp rfl (Nat.le_refl _) fun w hw => ?_)
        rw [hnone] at hw
        cases hw

end

end Run

end QueryClient.Session
