/-
  Connections whose session is limited.

  A call that limits the time of the statements of a session has to restore that session.  What has
  been asked of a connection so far says how its session stands; what calls have done with it says
  who is to restore it: the call that holds it, or a cleanup that it was handed to.

  * `SessionState` is read off a chronicle, and `Usage` off the deeds of calls;
  * `State.Consistent`: which cleanups there are on a connection, and how often it is held, fits what
    calls have made of it and how its session stands;
  * `Passage.consistent`: moves preserve that, and a connection is only released when nothing is left
    to be done about its session.
-/
import QueryClient.Proofs.Session.Connection

namespace QueryClient.Session

variable {σ : Type}

/-! ## What is asked -/

/-- What a request has to do with the limit of a session. -/
inductive SessionStep where
  | limit
  /-- The server is asked to stop. -/
  | stop
  | reset
  deriving DecidableEq

/-- What a request has to do with the limit of the session on a connection, if anything. -/
def Request.sessionStep? (conn : ℕ) : Request → Option SessionStep
  | .statement .query c sql [.text _, .bool false] =>
    if c = conn ∧ sql = limitStatement then some .limit else none
  | .statement .batch c sql [] => if c = conn ∧ sql = resetStatement then some .reset else none
  | .cancel c => if c = conn then some .stop else none
  | _ => none

/-- A request that limits the time of the statements of a session. -/
def sessionLimit (conn : ℕ) (limit : String) : Request :=
  .statement .query conn limitStatement [.text limit, .bool false]

/-- The request that restores a session. -/
abbrev resetRequest (conn : ℕ) : Request := CleanupStep.reset.request conn

section
variable {conn conn' : ℕ} {r : Request}

theorem sessionStep?_eq_some_limit (h : r.sessionStep? conn = some .limit) :
    ∃ limit, r = sessionLimit conn limit := by
  unfold Request.sessionStep? at h
  split at h
  · split at h
    · next heq =>
      obtain ⟨rfl, rfl⟩ := heq
      exact ⟨_, rfl⟩
    · cases h
  · split at h <;> cases h
  · split at h <;> cases h
  · cases h

theorem sessionStep?_eq_some_stop (h : r.sessionStep? conn = some .stop) : r = .cancel conn := by
  unfold Request.sessionStep? at h
  split at h
  · split at h <;> cases h
  · split at h <;> cases h
  · split at h
    · next heq => rw [heq]
    · cases h
  · cases h

theorem sessionStep?_eq_some_reset (h : r.sessionStep? conn = some .reset) :
    r = resetRequest conn := by
  unfold Request.sessionStep? at h
  split at h
  · split at h <;> cases h
  · split at h
    · next heq =>
      obtain ⟨rfl, rfl⟩ := heq
      rfl
    · cases h
  · split at h <;> cases h
  · cases h

@[simp] theorem sessionStep?_sessionLimit (limit : String) :
    (sessionLimit conn limit).sessionStep? conn' = if conn = conn' then some .limit else none := by
  simp [sessionLimit, Request.sessionStep?]

@[simp] theorem sessionStep?_cancel :
    (Request.cancel conn).sessionStep? conn' = if conn = conn' then some .stop else none := rfl

@[simp] theorem sessionStep?_resetRequest :
    (resetRequest conn).sessionStep? conn' = if conn = conn' then some .reset else none := by
  simp [CleanupStep.request, Request.sessionStep?]

end

/-! ## How a session stands -/

/-- How the session on a connection stands, by what was asked last. -/
inductive SessionState where
  /-- It was never limited. -/
  | untouched
  | limited
  /-- The server was asked to stop since. -/
  | stopping (moment : ℕ) (answer : Answer Yield)
  | restoring (moment : ℕ) (answer : Answer Yield)

namespace SessionState

/-- How a session stands after something more is asked. -/
def after (t : SessionState) (m : ℕ) (a : Answer Yield) : SessionStep → SessionState
  | .limit => .limited
  | .stop => match t with
    | .untouched => .untouched
    | _ => .stopping m a
  | .reset => match t with
    | .untouched => .untouched
    | _ => .restoring m a

/-- How a session stands after an entry of the chronicle. -/
def update (conn : ℕ) (t : SessionState) : Entry → SessionState
  | .asked m r a => (r.sessionStep? conn).elim t (t.after m a)
  | .noted _ _ => t

/-- Nothing is left to be done about the session at a moment. -/
def Clear (now : ℕ) : SessionState → Prop
  | .untouched => True
  | .restoring m a => ∃ w, a.wait = some w ∧ m + w ≤ now
  | _ => False

theorem Clear.mono {now now' : ℕ} {t : SessionState} (h : t.Clear now) (hle : now ≤ now') :
    t.Clear now' := by
  cases t with
  | untouched => trivial
  | restoring m a =>
    obtain ⟨w, hw, hdue⟩ := h
    exact ⟨w, hw, hdue.trans hle⟩
  | limited | stopping => cases h

end SessionState

/-- How a session stands after some entries of the chronicle. -/
def sessionState (conn : ℕ) (t : SessionState) (entries : List Entry) : SessionState :=
  entries.foldl (SessionState.update conn) t

section
variable {conn m : ℕ} {t : SessionState} {xs ys : List Entry} {a : Answer Yield}

@[simp] theorem sessionState_nil : sessionState conn t [] = t := rfl

@[simp] theorem sessionState_cons (x : Entry) :
    sessionState conn t (x :: xs) = sessionState conn (t.update conn x) xs := rfl

@[simp] theorem sessionState_append :
    sessionState conn t (xs ++ ys) = sessionState conn (sessionState conn t xs) ys :=
  List.foldl_append

theorem update_asked (r : Request) :
    t.update conn (.asked m r a) = (r.sessionStep? conn).elim t (t.after m a) := rfl

/-- An entry leaves a session as it stands, or it asks for something on the connection. -/
theorem update_cases (conn : ℕ) (t : SessionState) (x : Entry) : t.update conn x = t ∨
    (∃ m limit a, x = .asked m (sessionLimit conn limit) a ∧ t.update conn x = .limited) ∨
    (∃ m a, x = .asked m (.cancel conn) a ∧ t.update conn x = .stopping m a) ∨
    (∃ m a, x = .asked m (resetRequest conn) a ∧ t.update conn x = .restoring m a) := by
  cases x with
  | noted => exact Or.inl rfl
  | asked m r a =>
    cases hsession : r.sessionStep? conn with
    | none =>
      left
      rw [update_asked, hsession]
      rfl
    | some k =>
      cases k with
      | limit =>
        obtain ⟨limit, rfl⟩ := sessionStep?_eq_some_limit hsession
        refine Or.inr (Or.inl ⟨m, limit, a, rfl, ?_⟩)
        rw [update_asked, hsession]
        rfl
      | stop =>
        obtain rfl := sessionStep?_eq_some_stop hsession
        rw [update_asked, hsession]
        cases t with
        | untouched => exact Or.inl rfl
        | _ => exact Or.inr (Or.inr (Or.inl ⟨m, a, rfl, rfl⟩))
      | reset =>
        obtain rfl := sessionStep?_eq_some_reset hsession
        rw [update_asked, hsession]
        cases t with
        | untouched => exact Or.inl rfl
        | _ => exact Or.inr (Or.inr (Or.inr ⟨m, a, rfl, rfl⟩))

theorem update_ne_untouched {x : Entry} (h : t ≠ .untouched) : t.update conn x ≠ .untouched := by
  rcases update_cases conn t x with he | ⟨_, _, _, -, he⟩ | ⟨_, _, -, he⟩ | ⟨_, _, -, he⟩ <;>
    rw [he]
  · exact h
  · exact SessionState.noConfusion
  · exact SessionState.noConfusion
  · exact SessionState.noConfusion

/-- A session that is being restored was asked to be. -/
theorem sessionState_eq_restoring (h : sessionState conn t xs = .restoring m a) :
    t = .restoring m a ∨ .asked m (resetRequest conn) a ∈ xs := by
  induction xs generalizing t with
  | nil => exact Or.inl h
  | cons x xs ih =>
    rcases ih h with hupdate | hmem
    · rcases update_cases conn t x with he | ⟨_, _, _, -, he⟩ | ⟨_, _, -, he⟩ | ⟨_, _, rfl, he⟩ <;>
        rw [he] at hupdate
      · exact Or.inl hupdate
      · cases hupdate
      · cases hupdate
      · cases hupdate
        exact Or.inr List.mem_cons_self
    · exact Or.inr (List.mem_cons_of_mem _ hmem)

theorem sessionState_eq_stopping (h : sessionState conn t xs = .stopping m a) :
    t = .stopping m a ∨ .asked m (.cancel conn) a ∈ xs := by
  induction xs generalizing t with
  | nil => exact Or.inl h
  | cons x xs ih =>
    rcases ih h with hupdate | hmem
    · rcases update_cases conn t x with he | ⟨_, _, _, -, he⟩ | ⟨_, _, rfl, he⟩ | ⟨_, _, -, he⟩ <;>
        rw [he] at hupdate
      · exact Or.inl hupdate
      · cases hupdate
      · cases hupdate
        exact Or.inr List.mem_cons_self
      · cases hupdate
    · exact Or.inr (List.mem_cons_of_mem _ hmem)

theorem sessionState_ne_untouched (h : t ≠ .untouched) : sessionState conn t xs ≠ .untouched := by
  induction xs generalizing t with
  | nil => exact h
  | cons x xs ih => exact ih (update_ne_untouched h)

end

/-- A connection is only released when nothing is left to be done about its session. -/
def ReleasedClear (conn : ℕ) (t : SessionState) : List Entry → Prop
  | [] => True
  | x :: xs => (∀ m, x = .noted m (.released conn) → t.Clear m) ∧
    ReleasedClear conn (t.update conn x) xs

theorem releasedClear_append {conn : ℕ} {t : SessionState} {xs ys : List Entry} :
    ReleasedClear conn t (xs ++ ys) ↔
      ReleasedClear conn t xs ∧ ReleasedClear conn (sessionState conn t xs) ys := by
  induction xs generalizing t with
  | nil => exact (iff_of_eq (true_and _)).symm
  | cons x xs ih =>
    rw [List.cons_append, ReleasedClear, ReleasedClear, ih, and_assoc]
    rfl

/-! ## What calls do with a connection -/

/-- Something that a call does with a connection. -/
inductive UseStep where
  | take
  | asked (moment : ℕ) (answer : Answer Yield) (t : SessionStep)
  | letGo (moment : ℕ)
  | hand (steps : List CleanupStep)

/-- What a deed is for a connection, if anything. -/
def Deed.useStep? (conn : ℕ) : Deed → Option UseStep
  | .asked m r a => (r.sessionStep? conn).map (.asked m a)
  | .closed _ => none
  | .held _ c => if c = conn then some .take else none
  | .letGo m c => if c = conn then some (.letGo m) else none
  | .left _ c steps => if c = conn then some (.hand steps) else none

theorem useStep?_eq_some_letGo {conn m : ℕ} {d : Deed} (h : d.useStep? conn = some (.letGo m)) :
    d = .letGo m conn := by
  cases d with
  | asked m r a =>
    obtain ⟨_, -, hno⟩ := Option.map_eq_some_iff.1 h
    cases hno
  | closed => cases h
  | held | left =>
    obtain ⟨-, hno⟩ := Option.ite_none_right_eq_some.1 h
    cases hno
  | letGo m c =>
    obtain ⟨rfl, he⟩ := Option.ite_none_right_eq_some.1 h
    cases he
    rfl

theorem useStep?_eq_some_hand {conn : ℕ} {steps : List CleanupStep} {d : Deed}
    (h : d.useStep? conn = some (.hand steps)) : ∃ m, d = .left m conn steps := by
  cases d with
  | asked m r a =>
    obtain ⟨_, -, hno⟩ := Option.map_eq_some_iff.1 h
    cases hno
  | closed => cases h
  | held | letGo =>
    obtain ⟨-, hno⟩ := Option.ite_none_right_eq_some.1 h
    cases hno
  | left m c steps' =>
    obtain ⟨rfl, he⟩ := Option.ite_none_right_eq_some.1 h
    cases he
    exact ⟨m, rfl⟩

/-- What calls have made of a connection. -/
inductive Usage where
  | untaken
  /-- A call holds it. -/
  | fresh
  /-- Its session will not be limited any more. -/
  | plain
  /-- The call that holds it has limited its session. -/
  | limited
  /-- That call has asked for its session to be restored. -/
  | restoring (due : Option ℕ)
  /-- A cleanup is to restore its session. -/
  | handed
  | restored
  /-- Things went wrong. -/
  | misused

namespace Usage

/-- What one more act makes of a connection. -/
def next : Usage → UseStep → Usage
  | .untaken, .take => .fresh
  | .fresh, .asked _ _ .limit => .limited
  | .fresh, .asked _ _ _ => .fresh
  | .fresh, .letGo _ | .fresh, .hand _ => .plain
  | .plain, .asked _ _ .limit => .misused
  | .plain, _ => .plain
  | .limited, .asked m a .reset | .restoring _, .asked m a .reset =>
    .restoring (a.wait.map (m + ·))
  | .limited, .asked _ _ _ | .restoring _, .asked _ _ _ => .limited
  | .limited, .hand steps | .restoring _, .hand steps =>
    if steps = cleanupSteps true true ∨ steps = cleanupSteps false true then .handed else .misused
  | .restoring due, .letGo m => if due.any (· ≤ m) then .restored else .misused
  | .handed, .letGo _ => .handed
  | _, _ => .misused

/-- A connection is restored when it is let go of, with its session being restored. -/
theorem next_eq_restored {q : Usage} {a : UseStep} (h : q.next a = .restored) :
    ∃ m due, q = .restoring due ∧ a = .letGo m := by
  cases q with
  | restoring due =>
    cases a with
    | letGo m => exact ⟨m, due, rfl, rfl⟩
    | take => cases h
    | asked m a t => cases t <;> cases h
    | hand steps =>
      rw [next] at h
      split at h <;> cases h
  | limited =>
    cases a with
    | letGo | take => cases h
    | asked m a t => cases t <;> cases h
    | hand steps =>
      rw [next] at h
      split at h <;> cases h
  | untaken | fresh | plain | handed | restored | misused =>
    cases a with
    | asked m a t => cases t <;> cases h
    | _ => cases h

/-- A connection is handed to a cleanup when it is left to it. -/
theorem next_eq_handed {q : Usage} {a : UseStep} (h : q.next a = .handed) :
    q = .handed ∨ ∃ steps, a = .hand steps := by
  cases a with
  | hand steps => exact Or.inr ⟨steps, rfl⟩
  | take => cases q <;> cases h
  | asked m a t => cases q <;> cases t <;> cases h
  | letGo m =>
    cases q with
    | handed => exact Or.inl rfl
    | restoring due =>
      rw [next] at h
      split at h <;> cases h
    | _ => cases h

/-- What one more deed makes of a connection. -/
def step (conn : ℕ) (q : Usage) (d : Deed) : Usage := (d.useStep? conn).elim q q.next

/-- What deeds make of a connection. -/
def after (conn : ℕ) (q : Usage) (ds : List Deed) : Usage := ds.foldl (step conn) q

section
variable {conn : ℕ} {q : Usage} {d : Deed} {ds ds' : List Deed}

@[simp] theorem after_nil : after conn q [] = q := rfl

@[simp] theorem after_cons : after conn q (d :: ds) = after conn (q.step conn d) ds := rfl

theorem after_some : after conn q (some d).toList = q.step conn d := rfl

@[simp] theorem after_append : after conn q (ds ++ ds') = after conn (after conn q ds) ds' :=
  List.foldl_append

theorem step_of_none (h : d.useStep? conn = none) : q.step conn d = q := by
  rw [step, h]
  rfl

theorem step_asked {m : ℕ} {r : Request} {a : Answer Yield} :
    q.step conn (.asked m r a) = (r.sessionStep? conn).elim q fun k => q.next (.asked m a k) := by
  rw [step, Deed.useStep?]
  cases r.sessionStep? conn <;> rfl

@[simp] theorem step_held {m : ℕ} : q.step conn (.held m conn) = q.next .take := by
  simp [step, Deed.useStep?]

@[simp] theorem step_letGo {m : ℕ} : q.step conn (.letGo m conn) = q.next (.letGo m) := by
  simp [step, Deed.useStep?]

@[simp] theorem step_left {m : ℕ} {steps : List CleanupStep} :
    q.step conn (.left m conn steps) = q.next (.hand steps) := by
  simp [step, Deed.useStep?]

/-- Deeds that are nothing to a connection leave it as it is. -/
theorem after_of_none (h : ∀ d ∈ ds, d.useStep? conn = none) : after conn q ds = q := by
  induction ds with
  | nil => rfl
  | cons d ds ih =>
    rw [after_cons, step_of_none (h d List.mem_cons_self)]
    exact ih fun d' hd' => h d' (List.mem_cons_of_mem _ hd')

@[simp] theorem after_misused : after conn .misused ds = .misused := by
  induction ds with
  | nil => rfl
  | cons d ds ih =>
    have hstep : Usage.misused.step conn d = .misused := by
      unfold step
      cases d.useStep? conn <;> rfl
    rw [after_cons, hstep, ih]

/-- A connection that is restored was let go of with its session being restored. -/
theorem exists_letGo_of_restored (h : after conn q ds = .restored) : q = .restored ∨
    ∃ front m back due, ds = front ++ .letGo m conn :: back ∧
      after conn q front = .restoring due := by
  induction ds generalizing q with
  | nil => exact Or.inl h
  | cons d ds ih =>
    rcases ih h with hstep | ⟨front, m, back, due, rfl, hfront⟩
    · unfold step at hstep
      cases huse : d.useStep? conn with
      | none =>
        rw [huse] at hstep
        exact Or.inl hstep
      | some a =>
        rw [huse] at hstep
        obtain ⟨m, due, rfl, rfl⟩ := next_eq_restored hstep
        obtain rfl := useStep?_eq_some_letGo huse
        exact Or.inr ⟨[], m, ds, due, rfl, rfl⟩
    · exact Or.inr ⟨d :: front, m, back, due, rfl, hfront⟩

/-- A connection that is handed to a cleanup was left to it. -/
theorem exists_left_of_handed (h : after conn q ds = .handed) :
    q = .handed ∨ ∃ m steps, .left m conn steps ∈ ds := by
  induction ds generalizing q with
  | nil => exact Or.inl h
  | cons d ds ih =>
    rcases ih h with hstep | ⟨m, steps, hmem⟩
    · unfold step at hstep
      cases huse : d.useStep? conn with
      | none =>
        rw [huse] at hstep
        exact Or.inl hstep
      | some a =>
        rw [huse] at hstep
        rcases next_eq_handed hstep with rfl | ⟨steps, rfl⟩
        · exact Or.inl rfl
        · obtain ⟨m, rfl⟩ := useStep?_eq_some_hand huse
          exact Or.inr ⟨m, steps, List.mem_cons_self⟩
    · exact Or.inr ⟨m, steps, List.mem_cons_of_mem _ hmem⟩

/-- Where things did not go wrong, they did not do so on the way. -/
theorem ne_misused_of_after (h : after conn q ds ≠ .misused) : q ≠ .misused := by
  rintro rfl
  exact h after_misused

end

end Usage

/-! ## States that are consistent -/

namespace State

variable {conn : ℕ} {s s' : State σ}

/-- The cleanups on a connection. -/
def cleanupsOn (conn : ℕ) (s : State σ) : List Cleanup := s.cleanups.filter (·.conn = conn)

theorem cleanupsOn_eq_nil_iff {conn : ℕ} {s : State σ} :
    s.cleanupsOn conn = [] ↔ ∀ c ∈ s.cleanups, c.conn ≠ conn := by
  simp only [cleanupsOn, List.filter_eq_nil_iff, decide_eq_true_eq, ne_eq]

/-- One call holds a connection, and no cleanup is under way on it. -/
def HeldByOne (conn : ℕ) (s : State σ) : Prop := s.held.count conn = 1 ∧ s.cleanupsOn conn = []

/-- A state in which things are as they should be with a connection, for what calls have made of it
and how its session stands. -/
inductive Consistent (conn : ℕ) (s : State σ) : Usage → SessionState → Prop
  | untaken : conn ∉ s.held → s.cleanupsOn conn = [] → Consistent conn s .untaken .untouched
  | fresh : s.HeldByOne conn → Consistent conn s .fresh .untouched
  | plain : Consistent conn s .plain .untouched
  | limited {t} : s.HeldByOne conn → t ≠ .untouched → Consistent conn s .limited t
  | restoring {m a} : s.HeldByOne conn →
    Consistent conn s (.restoring (a.wait.map (m + ·))) (.restoring m a)
  /-- A cleanup is going to restore the session. -/
  | handed {cancel t} : s.cleanupsOn conn = [⟨conn, none, cleanupSteps cancel true⟩] →
    t ≠ .untouched → Consistent conn s .handed t
  /-- A cleanup waits for the server to stop. -/
  | stopping {p m a} : s.cleanupsOn conn = [⟨conn, some p, [.reset]⟩] →
    p.due = a.wait.map (m + ·) → Consistent conn s .handed (.stopping m a)
  /-- A cleanup restores the session. -/
  | resetting {p m a} : s.cleanupsOn conn = [⟨conn, some p, []⟩] → p.due = a.wait.map (m + ·) →
    Consistent conn s .handed (.restoring m a)
  /-- A cleanup has restored the session. -/
  | resetDone {t} : s.cleanupsOn conn = [⟨conn, none, []⟩] → t.Clear s.now →
    Consistent conn s .handed t
  | past {t} : s.cleanupsOn conn = [] → t.Clear s.now → Consistent conn s .handed t
  | restored {t} : s.cleanupsOn conn = [] → t.Clear s.now → Consistent conn s .restored t

theorem Consistent.mono {q : Usage} {t : SessionState} (h : s.Consistent conn q t)
    (hheld : s'.held.count conn = s.held.count conn)
    (hcleanups : s'.cleanupsOn conn = s.cleanupsOn conn) (hnow : s.now ≤ s'.now) :
    s'.Consistent conn q t := by
  have hsole : s.HeldByOne conn → s'.HeldByOne conn := fun ⟨hone, hnone⟩ =>
    ⟨hheld.trans hone, hcleanups.trans hnone⟩
  cases h with
  | untaken hconn hnone =>
    refine .untaken ?_ (hcleanups.trans hnone)
    rw [← List.count_eq_zero] at hconn ⊢
    exact hheld.trans hconn
  | fresh h => exact .fresh (hsole h)
  | plain => exact .plain
  | limited h ht => exact .limited (hsole h) ht
  | restoring h => exact .restoring (hsole h)
  | handed h ht => exact .handed (hcleanups.trans h) ht
  | stopping h hdue => exact .stopping (hcleanups.trans h) hdue
  | resetting h hdue => exact .resetting (hcleanups.trans h) hdue
  | resetDone h hclear => exact .resetDone (hcleanups.trans h) (hclear.mono hnow)
  | past h hclear => exact .past (hcleanups.trans h) (hclear.mono hnow)
  | restored h hclear => exact .restored (hcleanups.trans h) (hclear.mono hnow)

/-- A connection that nobody has any more can be released. -/
theorem Consistent.clear {q : Usage} {t : SessionState} (h : s.Consistent conn q t)
    (hheld : conn ∉ s.held) (hnone : s.cleanupsOn conn = []) : t.Clear s.now := by
  cases h with
  | untaken | plain => trivial
  | fresh h | limited h _ | restoring h =>
    have hone := h.1
    rw [List.count_eq_zero.2 hheld] at hone
    cases hone
  | handed h _ | stopping h _ | resetting h _ | resetDone h _ =>
    rw [hnone] at h
    cases h
  | past _ hclear | restored _ hclear => exact hclear

/-! ## Cleanups go on -/

section
variable {c c' : Cleanup} {xs ys : List Cleanup} {t : SessionState} {source : Source σ}

theorem cleanupsOn_other (cs : List Cleanup) (hs : s.cleanups = xs ++ c :: ys)
    (hs' : s'.cleanups = xs ++ (cs ++ ys)) (hc : c.conn ≠ conn) (hcs : ∀ d ∈ cs, d.conn ≠ conn) :
    s'.cleanupsOn conn = s.cleanupsOn conn := by
  have hnone : cs.filter (·.conn = conn) = [] := by simpa [List.filter_eq_nil_iff] using hcs
  simp [cleanupsOn, hs, hs', hnone, hc]

/-- Where there is one cleanup on a connection, it is the one that goes on. -/
theorem cleanupsOn_same (cs : List Cleanup) (hs : s.cleanups = xs ++ c :: ys)
    (hs' : s'.cleanups = xs ++ (cs ++ ys)) (hc : c.conn = conn) (hcs : ∀ d ∈ cs, d.conn = conn)
    (hone : s.cleanupsOn conn = [c']) : c = c' ∧ s'.cleanupsOn conn = cs := by
  have hall : cs.filter (·.conn = conn) = cs := by simpa [List.filter_eq_self] using hcs
  rw [cleanupsOn, hs, List.filter_append, List.filter_cons_of_pos (by simpa using hc)] at hone
  obtain ⟨hxs, hrest⟩ | ⟨_, hxs, hrest⟩ := List.append_eq_cons_iff.1 hone
  · obtain ⟨rfl, hys⟩ := List.cons.inj hrest
    refine ⟨rfl, ?_⟩
    rw [cleanupsOn, hs', List.filter_append, List.filter_append, hxs, hys, hall]
    simp
  · simp at hrest

theorem cleanupsOn_ne_nil (hs : s.cleanups = xs ++ c :: ys) (hc : c.conn = conn) :
    s.cleanupsOn conn ≠ [] := by
  simp [cleanupsOn, hs, hc]

/-- A cleanup starts its next step. -/
theorem Consistent.starts {q : Usage} {step : CleanupStep} {rest : List CleanupStep}
    {a : Answer Yield} {result : Except Error Unit} (h : s.Consistent conn q t)
    (hs : s.cleanups = xs ++ ⟨conn, none, step :: rest⟩ :: ys)
    (hs' : s'.cleanups =
      xs ++ ([⟨conn, some ⟨step, a.wait.map (s.now + ·), result⟩, rest⟩] ++ ys)) :
    s'.Consistent conn q (t.update conn (.asked s.now (step.request conn) a)) := by
  have hsome : s.cleanupsOn conn ≠ [] := cleanupsOn_ne_nil hs rfl
  have hsame : ∀ c', s.cleanupsOn conn = [c'] → _ = c' ∧ s'.cleanupsOn conn = _ := fun _ =>
    cleanupsOn_same [⟨conn, some ⟨step, a.wait.map (s.now + ·), result⟩, rest⟩] hs hs' rfl (by simp)
  cases h with
  | plain =>
    cases step <;> rw [update_asked] <;>
      simp [CleanupStep.request, Request.sessionStep?, SessionState.after]
    · exact .plain
    · exact .plain
  | untaken _ hnone | past hnone _ | restored hnone _ => exact absurd hnone hsome
  | fresh h | limited h _ | restoring h => exact absurd h.2 hsome
  | @handed cancel t hone ht =>
    obtain ⟨he, hrest⟩ := hsame _ hone
    have hupdate : ∀ step, step ∈ [CleanupStep.cancel, .reset] →
        t.update conn (.asked s.now (step.request conn) a) =
          if step = .cancel then .stopping s.now a else .restoring s.now a := by
      intro step _
      cases t with
      | untouched => exact absurd rfl ht
      | _ =>
        cases step <;>
          simp [update_asked, CleanupStep.request, Request.sessionStep?, SessionState.after]
    cases cancel with
    | true =>
      cases he
      rw [hupdate .cancel (by simp)]
      exact .stopping hrest rfl
    | false =>
      cases he
      rw [hupdate .reset (by simp)]
      exact .resetting hrest rfl
  | stopping hone _ | resetting hone _ | resetDone hone _ => cases (hsame _ hone).1

/-- A cleanup gets its answer. -/
theorem Consistent.answered {q : Usage} {p : PendingStep} {rest : List CleanupStep}
    (h : s.Consistent conn q t) (hs : s.cleanups = xs ++ ⟨conn, some p, rest⟩ :: ys)
    (hs' : s'.cleanups = xs ++ ([⟨conn, none, rest⟩] ++ ys)) (hnow : s'.now = s.now)
    (hdue : p.due.any (· ≤ s.now)) : s'.Consistent conn q t := by
  have hsome : s.cleanupsOn conn ≠ [] := cleanupsOn_ne_nil hs rfl
  have hsame : ∀ c', s.cleanupsOn conn = [c'] → _ = c' ∧ s'.cleanupsOn conn = _ := fun _ =>
    cleanupsOn_same [⟨conn, none, rest⟩] hs hs' rfl (by simp)
  cases h with
  | plain => exact .plain
  | untaken _ hnone | past hnone _ | restored hnone _ => exact absurd hnone hsome
  | fresh h | limited h _ | restoring h => exact absurd h.2 hsome
  | stopping hone _ =>
    obtain ⟨he, hrest⟩ := hsame _ hone
    cases he
    have hone' : s'.cleanupsOn conn = [⟨conn, none, cleanupSteps false true⟩] := hrest
    exact .handed hone' SessionState.noConfusion
  | @resetting _ m a hone hpending =>
    obtain ⟨he, hrest⟩ := hsame _ hone
    cases he
    refine .resetDone hrest ?_
    rw [hpending, Option.any_map, Option.any_eq_true] at hdue
    obtain ⟨w, hw, hle⟩ := hdue
    exact ⟨w, hw, hnow ▸ of_decide_eq_true hle⟩
  | handed hone _ | resetDone hone _ => cases (hsame _ hone).1

/-- A cleanup is over. -/
theorem Consistent.ends {q : Usage} (h : s.Consistent conn q t)
    (hs : s.cleanups = xs ++ ⟨conn, none, []⟩ :: ys) (hs' : s'.cleanups = xs ++ ([] ++ ys))
    (hnow : s'.now = s.now) : s'.Consistent conn q t := by
  have hsome : s.cleanupsOn conn ≠ [] := cleanupsOn_ne_nil hs rfl
  have hsame : ∀ c', s.cleanupsOn conn = [c'] → _ = c' ∧ s'.cleanupsOn conn = _ := fun _ =>
    cleanupsOn_same [] hs hs' rfl (by simp)
  cases h with
  | plain => exact .plain
  | untaken _ hnone | past hnone _ | restored hnone _ => exact absurd hnone hsome
  | fresh h | limited h _ | restoring h => exact absurd h.2 hsome
  | resetDone hone hclear => exact .past (hsame _ hone).2 (hnow ▸ hclear)
  | @handed cancel _ hone _ => cases cancel <;> cases (hsame _ hone).1
  | stopping hone _ | resetting hone _ => cases (hsame _ hone).1

end

/-! ## Calls do something -/

section
variable {q : Usage} {t : SessionState} {source : Source σ} {m : ℕ} {a : Answer Yield}

/-- A call asks for something. -/
theorem Consistent.asks {r : Request} (h : s.Consistent conn q t) (hheld : s'.held = s.held)
    (hcleanups : s'.cleanups = s.cleanups) (hnow : s.now ≤ s'.now)
    (hq : q.step conn (.asked m r a) ≠ .misused) :
    s'.Consistent conn (q.step conn (.asked m r a)) (t.update conn (.asked m r a)) := by
  have hsame : s'.cleanupsOn conn = s.cleanupsOn conn := by rw [cleanupsOn, hcleanups, cleanupsOn]
  have hsole : s.HeldByOne conn → s'.HeldByOne conn := fun ⟨hone, hnone⟩ =>
    ⟨by rw [hheld, hone], hsame.trans hnone⟩
  rw [update_asked]
  rw [Usage.step_asked] at hq ⊢
  cases hsession : r.sessionStep? conn with
  | none => exact h.mono (by rw [hheld]) hsame hnow
  | some k =>
    rw [hsession] at hq
    cases h with
    | untaken _ _ | handed _ _ | stopping _ _ | resetting _ _ | resetDone _ _ | past _ _
    | restored _ _ =>
      exact absurd rfl hq
    | fresh h =>
      cases k with
      | limit => exact .limited (hsole h) SessionState.noConfusion
      | stop | reset => exact .fresh (hsole h)
    | plain =>
      cases k with
      | limit => exact absurd rfl hq
      | stop | reset => exact .plain
    | limited h ht =>
      cases k with
      | limit => exact .limited (hsole h) SessionState.noConfusion
      | stop =>
        cases t with
        | untouched => exact absurd rfl ht
        | _ => exact .limited (hsole h) SessionState.noConfusion
      | reset =>
        cases t with
        | untouched => exact absurd rfl ht
        | _ => exact .restoring (hsole h)
    | restoring h =>
      cases k with
      | limit | stop => exact .limited (hsole h) SessionState.noConfusion
      | reset => exact .restoring (hsole h)

/-- A call comes to hold the connection. -/
theorem Consistent.holds (h : s.Consistent conn q t) (hheld : s'.held = conn :: s.held)
    (hcleanups : s'.cleanups = s.cleanups) (hq : q.step conn (.held m conn) ≠ .misused) :
    s'.Consistent conn (q.step conn (.held m conn)) t := by
  rw [Usage.step_held] at hq ⊢
  cases h with
  | untaken hconn hnone =>
    refine .fresh ⟨?_, ?_⟩
    · rw [hheld, List.count_cons_self, List.count_eq_zero.2 hconn]
    · rw [← hnone, cleanupsOn, hcleanups, cleanupsOn]
  | plain => exact .plain
  | fresh _ | limited _ _ | restoring _ | handed _ _ | stopping _ _ | resetting _ _ | resetDone _ _
  | past _ _ | restored _ _ => exact absurd rfl hq

/-- A call lets go of the connection. -/
theorem Consistent.letsGo (h : s.Consistent conn q t) (hcleanups : s'.cleanups = s.cleanups)
    (hnow : s'.now = s.now) (hq : q.step conn (.letGo s.now conn) ≠ .misused) :
    s'.Consistent conn (q.step conn (.letGo s.now conn)) t := by
  have hsame : s'.cleanupsOn conn = s.cleanupsOn conn := by rw [cleanupsOn, hcleanups, cleanupsOn]
  rw [Usage.step_letGo] at hq ⊢
  cases h with
  | fresh _ | plain => exact .plain
  | @restoring m a h =>
    have hnext : Usage.next (.restoring (a.wait.map (m + ·))) (.letGo s.now) =
        if (a.wait.map (m + ·)).any (· ≤ s.now) then .restored else .misused := rfl
    rw [hnext] at hq ⊢
    by_cases hdue : (a.wait.map (m + ·)).any (· ≤ s.now)
    · rw [if_pos hdue]
      refine .restored (hsame.trans h.2) ?_
      rw [Option.any_map, Option.any_eq_true] at hdue
      obtain ⟨w, hw, hle⟩ := hdue
      exact ⟨w, hw, hnow ▸ of_decide_eq_true hle⟩
    · rw [if_neg hdue] at hq
      exact absurd rfl hq
  | handed hone ht => exact .handed (hsame.trans hone) ht
  | stopping hone hdue => exact .stopping (hsame.trans hone) hdue
  | resetting hone hdue => exact .resetting (hsame.trans hone) hdue
  | resetDone hone hclear => exact .resetDone (hsame.trans hone) (hnow ▸ hclear)
  | past hone hclear => exact .past (hsame.trans hone) (hnow ▸ hclear)
  | untaken _ _ | limited _ _ | restored _ _ => exact absurd rfl hq

/-- A call leaves the connection to a cleanup. -/
theorem Consistent.leaves {steps : List CleanupStep} (h : s.Consistent conn q t)
    (hcleanups : s'.cleanups = s.cleanups ++ [⟨conn, none, steps⟩])
    (hq : q.step conn (.left m conn steps) ≠ .misused) :
    s'.Consistent conn (q.step conn (.left m conn steps)) t := by
  rw [Usage.step_left] at hq ⊢
  have hhanded : s.cleanupsOn conn = [] → t ≠ .untouched →
      (if steps = cleanupSteps true true ∨ steps = cleanupSteps false true then Usage.handed
        else .misused) ≠ .misused →
      s'.Consistent conn (if steps = cleanupSteps true true ∨ steps = cleanupSteps false true then
        .handed else .misused) t := by
    intro hnone ht hq
    have hone : s'.cleanupsOn conn = [⟨conn, none, steps⟩] := by
      have happend : s'.cleanupsOn conn = s.cleanupsOn conn ++ [⟨conn, none, steps⟩] := by
        simp [cleanupsOn, hcleanups]
      rw [happend, hnone, List.nil_append]
    by_cases hsteps : steps = cleanupSteps true true ∨ steps = cleanupSteps false true
    · rw [if_pos hsteps]
      rcases hsteps with rfl | rfl
      · exact .handed hone ht
      · exact .handed hone ht
    · rw [if_neg hsteps] at hq
      exact absurd rfl hq
  cases h with
  | fresh _ | plain => exact .plain
  | limited h ht => exact hhanded h.2 ht hq
  | restoring h => exact hhanded h.2 SessionState.noConfusion hq
  | untaken _ _ | handed _ _ | stopping _ _ | resetting _ _ | resetDone _ _ | past _ _
  | restored _ _ =>
    exact absurd rfl hq

end

end State

/-! ## Moves -/

section
variable {source : Source σ} {s s' : State σ} {conn c m : ℕ} {q : Usage} {t : SessionState}

theorem useStep?_held_other (h : c ≠ conn) : (Deed.held m c).useStep? conn = none := if_neg h

theorem useStep?_letGo_other (h : c ≠ conn) : (Deed.letGo m c).useStep? conn = none := if_neg h

theorem useStep?_left_other {steps : List CleanupStep} (h : c ≠ conn) :
    (Deed.left m c steps).useStep? conn = none := if_neg h

theorem sessionStep?_step_other {step : CleanupStep} (h : c ≠ conn) :
    (step.request c).sessionStep? conn = none := by
  cases step <;> simp [CleanupStep.request, Request.sessionStep?, h]

theorem releasedClear_singleton {x : Entry} (h : ∀ m, x = .noted m (.released conn) → t.Clear m) :
    ReleasedClear conn t [x] := ⟨h, trivial⟩

namespace State

/-! What is done on any connection, this one or another. -/

theorem Consistent.starts_on {step : CleanupStep} {rest : List CleanupStep} {a : Answer Yield}
    {result : Except Error Unit} {xs ys : List Cleanup} (h : s.Consistent conn q t)
    (hs : s.cleanups = xs ++ ⟨c, none, step :: rest⟩ :: ys)
    (hs' : s'.cleanups =
      xs ++ ([⟨c, some ⟨step, a.wait.map (s.now + ·), result⟩, rest⟩] ++ ys))
    (hheld : s'.held = s.held) (hnow : s'.now = s.now) :
    s'.Consistent conn q (t.update conn (.asked s.now (step.request c) a)) := by
  by_cases hc : c = conn
  · subst hc
    exact h.starts hs hs'
  · rw [update_asked, sessionStep?_step_other hc]
    refine h.mono (by rw [hheld]) (cleanupsOn_other [_] hs hs' hc fun d hd => ?_) hnow.ge
    rwa [List.mem_singleton.1 hd]

theorem Consistent.answered_on {p : PendingStep} {rest : List CleanupStep} {xs ys : List Cleanup}
    (h : s.Consistent conn q t) (hs : s.cleanups = xs ++ ⟨c, some p, rest⟩ :: ys)
    (hs' : s'.cleanups = xs ++ ([⟨c, none, rest⟩] ++ ys)) (hheld : s'.held = s.held)
    (hnow : s'.now = s.now) (hdue : p.due.any (· ≤ s.now)) : s'.Consistent conn q t := by
  by_cases hc : c = conn
  · subst hc
    exact h.answered hs hs' hnow hdue
  · refine h.mono (by rw [hheld]) (cleanupsOn_other [_] hs hs' hc fun d hd => ?_) hnow.ge
    rwa [List.mem_singleton.1 hd]

theorem Consistent.ends_on {xs ys : List Cleanup} (h : s.Consistent conn q t)
    (hs : s.cleanups = xs ++ ⟨c, none, []⟩ :: ys) (hs' : s'.cleanups = xs ++ ([] ++ ys))
    (hheld : s'.held = s.held) (hnow : s'.now = s.now) : s'.Consistent conn q t := by
  by_cases hc : c = conn
  · subst hc
    exact h.ends hs hs' hnow
  · exact h.mono (by rw [hheld]) (cleanupsOn_other [] hs hs' hc (List.forall_mem_nil _)) hnow.ge

theorem Consistent.holds_on (h : s.Consistent conn q t) (hheld : s'.held = c :: s.held)
    (hcleanups : s'.cleanups = s.cleanups) (hnow : s'.now = s.now)
    (hq : q.step conn (.held m c) ≠ .misused) : s'.Consistent conn (q.step conn (.held m c)) t := by
  by_cases hc : c = conn
  · subst hc
    exact h.holds hheld hcleanups hq
  · rw [Usage.step_of_none (useStep?_held_other hc)]
    refine h.mono ?_ (by rw [cleanupsOn, hcleanups, cleanupsOn]) hnow.ge
    rw [hheld]
    exact List.count_cons_of_ne hc

theorem Consistent.letsGo_on (h : s.Consistent conn q t) (hheld : s'.held = s.held.erase c)
    (hcleanups : s'.cleanups = s.cleanups) (hnow : s'.now = s.now)
    (hq : q.step conn (.letGo s.now c) ≠ .misused) :
    s'.Consistent conn (q.step conn (.letGo s.now c)) t := by
  by_cases hc : c = conn
  · subst hc
    exact h.letsGo hcleanups hnow hq
  · rw [Usage.step_of_none (useStep?_letGo_other hc)]
    refine h.mono ?_ (by rw [cleanupsOn, hcleanups, cleanupsOn]) hnow.ge
    rw [hheld]
    exact List.count_erase_of_ne (Ne.symm hc)

theorem Consistent.leaves_on {steps : List CleanupStep} (h : s.Consistent conn q t)
    (hheld : s'.held = s.held) (hcleanups : s'.cleanups = s.cleanups ++ [⟨c, none, steps⟩])
    (hnow : s'.now = s.now) (hq : q.step conn (.left m c steps) ≠ .misused) :
    s'.Consistent conn (q.step conn (.left m c steps)) t := by
  by_cases hc : c = conn
  · subst hc
    exact h.leaves hcleanups hq
  · rw [Usage.step_of_none (useStep?_left_other hc)]
    refine h.mono (by rw [hheld]) ?_ hnow.ge
    simp [cleanupsOn, hcleanups, hc]

end State

/-- **A move preserves consistency**, and releases a connection only when nothing is left to be done
about its session. -/
theorem Moves.consistent {deed : Option Deed} {entries : List Entry}
    (h : Moves source s deed entries s') (ht : s.Consistent conn q t)
    (hq : Usage.after conn q deed.toList ≠ .misused) :
    s'.Consistent conn (Usage.after conn q deed.toList) (sessionState conn t entries) ∧
      ReleasedClear conn t entries := by
  cases h with
  | passes hle => exact ⟨ht.mono rfl rfl hle, trivial⟩
  | notes he =>
    refine ⟨ht.mono rfl rfl (Nat.le_refl _), releasedClear_singleton fun m hx => ?_⟩
    cases hx
    cases he
  | starts hs =>
    exact ⟨ht.starts_on hs rfl rfl rfl, releasedClear_singleton fun m hx => nomatch hx⟩
  | answered hs hdue => exact ⟨ht.answered_on hs rfl rfl rfl hdue, trivial⟩
  | ends hs _ => exact ⟨ht.ends_on hs rfl rfl rfl, trivial⟩
  | @releases c xs ys hs hfree hnone =>
    have hended : (State.log { s with cleanups := xs ++ ys } (.released c)).Consistent conn q t :=
      ht.ends_on hs rfl rfl rfl
    refine ⟨hended, releasedClear_singleton fun m hx => ?_⟩
    cases hx
    exact hended.clear hfree (State.cleanupsOn_eq_nil_iff.2 hnone)
  | closes =>
    have hnone : (Deed.closed s.now).useStep? conn = none := rfl
    rw [Usage.after_some, Usage.step_of_none hnone]
    exact ⟨ht.mono rfl rfl (Nat.le_refl _), releasedClear_singleton fun m hx => nomatch hx⟩
  | asks =>
    rw [Usage.after_some] at hq ⊢
    exact ⟨ht.asks rfl rfl (Nat.le_refl _) hq, releasedClear_singleton fun m hx => nomatch hx⟩
  | holds =>
    rw [Usage.after_some] at hq ⊢
    exact ⟨ht.holds_on rfl rfl rfl hq, releasedClear_singleton fun m hx => nomatch hx⟩
  | letsGo _ =>
    rw [Usage.after_some] at hq ⊢
    exact ⟨ht.letsGo_on rfl rfl rfl hq, trivial⟩
  | @frees c hfree hnone =>
    rw [Usage.after_some] at hq ⊢
    have hlets : (State.log { s with held := s.held.erase c } (.released c)).Consistent conn
        (q.step conn (.letGo s.now c)) t := ht.letsGo_on rfl rfl rfl hq
    refine ⟨hlets, releasedClear_singleton fun m hx => ?_⟩
    cases hx
    exact hlets.clear hfree (State.cleanupsOn_eq_nil_iff.2 hnone)
  | leaves =>
    rw [Usage.after_some] at hq ⊢
    exact ⟨ht.leaves_on rfl rfl rfl hq, trivial⟩

/-- **States stay consistent** as long as things do not go wrong, and connections are only released
when nothing is left to be done about their sessions. -/
theorem Passage.consistent {ds : List Deed} {entries : List Entry}
    (h : Passage source s ds entries s') (ht : s.Consistent conn q t)
    (hq : Usage.after conn q ds ≠ .misused) :
    s'.Consistent conn (Usage.after conn q ds) (sessionState conn t entries) ∧
      ReleasedClear conn t entries := by
  induction h generalizing q t with
  | refl => exact ⟨ht, trivial⟩
  | head hmove _ ih =>
    rw [Usage.after_append] at hq ⊢
    obtain ⟨ht₁, hclear₁⟩ := hmove.consistent ht (Usage.ne_misused_of_after hq)
    obtain ⟨ht', hclear'⟩ := ih ht₁ hq
    rw [sessionState_append, releasedClear_append]
    exact ⟨ht', hclear₁, hclear'⟩

end

end QueryClient.Session
