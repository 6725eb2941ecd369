/-
  The requests of a call.

  A call that executes a query asks for a connection, for the statements that its settings and the
  query demand, and for what ends them.

  * `Client.MayAsk`: what such a call may ask for;
  * `Executing.asksOnly`: it asks for nothing else;
  * `Source.Alike`: two sources answer alike what a call asks for that wants no count;
  * `Client.execute_alike`: such a call does the same on both.
-/
import QueryClient.Proofs.Session.Attempts

namespace QueryClient.Session

open Run

/-- What a call may ask for that executes a query whose statement is given. -/
inductive Client.MayAsk (c : Client) (q : Query) (statement : Statement) (abort : Option ℕ) :
    Request → Prop
  | acquire : MayAsk c q statement abort .acquire
  | limit {conn limit} : MayAsk c q statement abort (c.timeLimit conn limit)
  | statement {conn} :
    MayAsk c q statement abort (statement.request (Client.statementKind q) conn)
  | count {mode counting conn} : q.count = some mode →
    Statement.compileCount c.config.safety q mode = .ok counting →
    MayAsk c q statement abort (counting.request .query conn)
  | reset {conn} : MayAsk c q statement abort (CleanupStep.request conn .reset)
  | cancel {conn t} : abort = some t → MayAsk c q statement abort (.cancel conn)

/-- What is asked for among some deeds has a property. -/
def AsksOnly (p : Request → Prop) (ds : List Deed) : Prop := ∀ m r a, .asked m r a ∈ ds → p r

section
variable {p : Request → Prop} {c : Client} {q : Query} {statement : Statement}
  {abort : Option ℕ} {conn m m' : ℕ} {ds ds' : List Deed} {r : Request}

theorem AsksOnly.append (h : AsksOnly p ds) (h' : AsksOnly p ds') : AsksOnly p (ds ++ ds') :=
  fun m r a hmem => (List.mem_append.1 hmem).elim (h m r a) (h' m r a)

theorem AsksOnly.nil : AsksOnly p [] := fun _ _ _ hmem => nomatch hmem

theorem AsksOnly.of_asked {a : Answer Yield} (hr : p r) : AsksOnly p [.asked m r a] :=
  fun _ _ _ hmem => by
    cases List.mem_singleton.1 hmem
    exact hr

/-! ## What each part of a call asks for -/

theorem Raced.asksOnly {o : Except Halt (Option (Except Error Yield))}
    (h : Raced abort (fun a ds => ds = [.asked m r a]) m o ds m') (hr : p r) : AsksOnly p ds := by
  obtain ⟨-, rfl | ⟨a, rfl⟩⟩ := h.asked_once
  · exact .nil
  · exact .of_asked hr

theorem Cleaning.asksOnly {steps : List CleanupStep} {o : Except Halt Unit}
    (h : Cleaning conn steps m o ds m') (hsteps : ∀ step ∈ steps, p (step.request conn)) :
    AsksOnly p ds := by
  induction h with
  | done => exact .nil
  | @answered step rest m a _ _ _ _ _ _ ih =>
    have hfirst : AsksOnly p [.asked m (step.request conn) a] :=
      .of_asked (hsteps _ List.mem_cons_self)
    exact hfirst.append (ih fun step hstep => hsteps step (List.mem_cons_of_mem _ hstep))
  | givenUp _ _ _ => exact .of_asked (hsteps _ List.mem_cons_self)

/-- A statement is asked for, and to stop it if the caller aborts. -/
theorem Exchange.asksOnly {o : Except Halt Yield} (h : Exchange conn abort r m o ds m') (hr : p r)
    (hcancel : ∀ t, abort = some t → p (.cancel conn)) : AsksOnly p ds := by
  have hstops : ∀ {ds m₁ o ds' m'},
      Raced abort (fun a ds => ds = [.asked m r a]) m (.ok none) ds m₁ →
      Cleaning conn [.cancel] m₁ o ds' m' → AsksOnly p (ds ++ ds') := by
    intro ds m₁ o ds' m' hraced hcleaning
    have hstep : ∀ step ∈ [CleanupStep.cancel], p (step.request conn) := by
      refine List.forall_mem_singleton.2 ?_
      cases hraced with
      | late ht _ | stopped _ ht _ _ => exact hcancel _ ht
    exact (hraced.asksOnly hr).append (hcleaning.asksOnly hstep)
  cases h with
  | answered hraced | givenUp hraced => exact hraced.asksOnly hr
  | stopped hraced hcleaning | halted hraced hcleaning => exact hstops hraced hcleaning

theorem Connecting.asksOnly {o : Except Halt ℕ} (h : Connecting c abort m o ds m')
    (hacquire : p .acquire) : AsksOnly p ds := by
  cases h with
  | shared _ _ | refusedShared _ _ _ => exact .nil
  | acquired _ hraced =>
    exact (hraced.asksOnly hacquire).append fun _ _ _ hmem => nomatch List.mem_singleton.1 hmem
  | refused _ hraced | stopped _ hraced | givenUp _ hraced => exact hraced.asksOnly hacquire

theorem Limiting.asksOnly {o : Except Halt Unit} (h : Limiting c conn m o ds m')
    (hlimit : ∀ limit, p (c.timeLimit conn limit)) : AsksOnly p ds := by
  cases h with
  | unlimited _ => exact .nil
  | answered _ _ | givenUp _ _ _ _ => exact .of_asked (hlimit _)

theorem Counting.asksOnly {mode : CountMode} {o : Except Halt (Option Int)}
    (h : Counting c conn q abort mode m o ds m')
    (hcount : ∀ counting, Statement.compileCount c.config.safety q mode = .ok counting →
      p (counting.request .query conn))
    (hcancel : ∀ t, abort = some t → p (.cancel conn)) : AsksOnly p ds := by
  cases h with
  | uncompiled _ => exact .nil
  | counted hs hexchange | failed hs hexchange | givenUp hs _ hexchange =>
    exact hexchange.asksOnly (hcount _ hs) hcancel

theorem Running.asksOnly {o : Except Halt Outcome}
    (h : Running c conn q statement abort m o ds m') :
    AsksOnly (c.MayAsk q statement abort) ds := by
  cases h with
  | unanswered hexchange | misfit hexchange _ | fitted hexchange _ _ =>
    exact hexchange.asksOnly .statement fun _ => .cancel
  | counted hexchange _ hmode _ hcounting =>
    exact (hexchange.asksOnly .statement fun _ => .cancel).append
      (hcounting.asksOnly (fun _ => .count hmode) fun _ => .cancel)

theorem Working.asksOnly {o : Except Halt Outcome}
    (h : Working c conn q statement abort m o ds m') :
    AsksOnly (c.MayAsk q statement abort) ds := by
  cases h with
  | unlimited hlimiting => exact hlimiting.asksOnly fun _ => .limit
  | limited hlimiting hrunning =>
    exact (hlimiting.asksOnly fun _ => .limit).append hrunning.asksOnly

namespace Lease

variable {l : Lease}

theorem asksOnly_letsGo : AsksOnly p (l.letsGo m) := by
  unfold letsGo
  split
  · exact .nil
  · exact fun _ _ _ hmem => nomatch List.mem_singleton.1 hmem

theorem asksOnly_discards : AsksOnly p (l.discards m) := by
  unfold discards
  refine .append ?_ asksOnly_letsGo
  split
  · exact .nil
  · exact fun _ _ _ hmem => nomatch List.mem_singleton.1 hmem

/-- What ends a lease resets the session at most. -/
theorem Using.asksOnly {α : Type} {B : Account α} {o : Except Halt α}
    (h : l.Using B o ds m') (hreset : p (CleanupStep.request l.conn .reset))
    (hB : ∀ {o ds m'}, B o ds m' → AsksOnly p ds) : AsksOnly p ds := by
  have hsteps : ∀ step ∈ cleanupSteps false l.reset, p (step.request l.conn) := by
    intro step hstep
    cases hr : l.reset <;> simp [cleanupSteps, hr] at hstep
    exact hstep ▸ hreset
  have hreleases : ∀ {m₁ o ds' m'}, l.Releasing false m₁ o ds' m' → AsksOnly p ds' := by
    intro m₁ o ds' m' hreleasing
    cases hreleasing with
    | past hcleaning => exact (hcleaning.asksOnly hsteps).append asksOnly_letsGo
    | givenUp hcleaning => exact (hcleaning.asksOnly hsteps).append asksOnly_discards
  cases h with
  | halted _ h => exact (hB h).append asksOnly_discards
  | released h hreleasing => exact (hB h).append (hreleases hreleasing)
  | givenUp h hreleasing => exact (hB h).append (hreleases hreleasing)

end Lease

theorem Attempting.asksOnly {o : Except Halt Outcome}
    (h : Attempting c q statement abort m o ds m') : AsksOnly (c.MayAsk q statement abort) ds := by
  cases h with
  | unconnected hconnecting => exact hconnecting.asksOnly .acquire
  | connected hconnecting husing =>
    exact (hconnecting.asksOnly .acquire).append
      (husing.asksOnly .reset fun hworking => hworking.asksOnly)

theorem Retrying.asksOnly {left number : ℕ} {o : Except Halt Outcome}
    (h : Retrying c q statement abort left number m o ds m') :
    AsksOnly (c.MayAsk q statement abort) ds := by
  induction h with
  | last hattempting | done hattempting _ | undelayed hattempting _ _ =>
    exact hattempting.asksOnly
  | again hattempting _ _ _ ih => exact hattempting.asksOnly.append ih

/-- **A call that executes a query** asks for nothing else. -/
theorem Executing.asksOnly {o : Except Halt (Response Json)}
    (hs : Statement.compile c.config.safety q = .ok statement)
    (h : Executing c q abort m o ds m') : AsksOnly (c.MayAsk q statement abort) ds := by
  cases h with
  | late _ _ | uncompiled _ _ => exact .nil
  | tried _ hs' hretrying | givenUp _ hs' _ hretrying =>
    obtain rfl : statement = _ := Except.ok.inj (hs.symm.trans hs')
    exact hretrying.asksOnly

end

/-! ## Sources that answer a call alike -/

/-- Two sources answer alike what a call asks whose statement is given, and what cleanups ask. -/
structure Source.Alike {σ : Type} (A B : Source σ) (statement : Statement) : Prop where
  acquire : A.acquire = B.acquire
  cancel : A.cancel = B.cancel
  close : A.close = B.close
  reset : ∀ conn, A.batch conn resetStatement = B.batch conn resetStatement
  limit : ∀ conn, A.query conn limitStatement = B.query conn limitStatement
  query : ∀ conn, A.query conn statement.text statement.values =
    B.query conn statement.text statement.values
  execute : ∀ conn, A.execute conn statement.text statement.values =
    B.execute conn statement.text statement.values

section
variable {σ : Type} {A B : Source σ} {c : Client} {q : Query} {statement : Statement}
  {abort : Option ℕ}

theorem Source.Alike.of_mayAsk (halike : A.Alike B statement) (hq : q.count = none) {r : Request}
    (h : c.MayAsk q statement abort r) : A.AlikeAt B r := by
  cases h with
  | acquire => exact halike.acquire
  | limit => exact congrFun (halike.limit _) _
  | @statement conn =>
    unfold Client.statementKind
    split
    · exact halike.execute conn
    · exact halike.query conn
  | count hmode _ => cases hq.symm.trans hmode
  | reset => exact halike.reset _
  | cancel _ => exact congrFun halike.cancel _

/-- **A call that wants no count** does the same on both sources. -/
theorem Client.execute_alike (halike : A.Alike B statement) (hq : q.count = none)
    (hs : Statement.compile c.config.safety q = .ok statement) (deadlines : List ℕ) (s : State σ) :
    (c.execute q abort).exec ⟨A, deadlines⟩ s = (c.execute q abort).exec ⟨B, deadlines⟩ s ∧
      ∃ ds xs, Passage A s ds xs ((c.execute q abort).exec ⟨A, deadlines⟩ s).2 ∧
        Passage B s ds xs ((c.execute q abort).exec ⟨A, deadlines⟩ s).2 := by
  have hacts : Acts ⟨A, deadlines⟩ s.now (c.execute q abort) (Executing c q abort s.now) :=
    acts_execute q
  obtain ⟨ds, xs, hpassage, hexecuting, hsame⟩ := hacts.course s rfl
  have hlike : A.AlikeOn B ds := by
    refine ⟨fun conn step => ?_, fun hmem => ?_, fun _ => halike.close⟩
    · cases step with
      | cancel => exact congrFun halike.cancel conn
      | reset => exact halike.reset conn
    · exact halike.of_mayAsk hq (hexecuting.asksOnly hs _ _ _ hmem)
  exact ⟨(hsame B hlike).symm, ds, xs, hpassage, hpassage.alike hlike⟩

end

end QueryClient.Session
