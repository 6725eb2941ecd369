/-
  The bracket around the work of a transaction.

  * `Bracket` relates some work to what comes of a transaction that is not given up;
  * `transaction_bracketed`: every such transaction is bracketed in this way;
  * `closed_before_release_iff`: a transaction that is given up is closed before its connection is
    released exactly if its work was over by then.
-/
import QueryClient.Proofs.Session.Transaction
import QueryClient.Session.Script

namespace QueryClient.Session

open Run State

variable {σ α : Type} {conn : ℕ} {c : Client}

/-! ## Transactions that are not given up -/

/-- Whether a run came to an end of its own. -/
def completed : Except Halt α → Bool
  | .ok _ => true
  | .error halt => !halt.givenUp

theorem exists_of_not_completed {o : Except Halt α} (h : ¬ completed o) :
    ∃ halt : Halt, o = .error halt ∧ halt.givenUp := by
  cases o with
  | ok a => exact absurd rfl h
  | error halt => exact ⟨halt, rfl, by simpa [completed] using h⟩

def Happening.isAcquire : Happening → Bool
  | .asked .acquire _ => true
  | _ => false

/-- What comes of a transaction for some work, and what concerns its connection. -/
inductive Bracket (env : Env σ) (c : Client) (s s' : State σ) (work : Work σ α) :
    Except Halt (Response α) → List Happening → Prop
  /-- No connection is acquired, whatever the callback is. -/
  | unacquired {e : Error} :
    (∀ callback : Callback σ α, (c.transact callback).exec env s =
      (.ok (.err (.transaction "failed to acquire a connection" e)), s')) →
    Bracket env c s s' work (.ok (.err (.transaction "failed to acquire a connection" e)))
      [.asked .acquire (.error e)]
  /-- No transaction is begun, whatever the callback is. -/
  | unbegun {e : Error} {tail : List Happening} :
    (∀ callback : Callback σ α, (c.transact callback).exec env s =
      (.ok (.err (.transaction "BEGIN failed" e)), s')) →
    Released (s.connections + 1) tail →
    Bracket env c s s' work (.ok (.err (.transaction "BEGIN failed" e)))
      ([.asked .acquire (.ok ()), .batch (s.connections + 1) "BEGIN" (.error e)] ++ tail)
  /-- The work is done, and the transaction closed as is due. -/
  | closed {o : Except Halt α} {outcome : Except Halt (Response α)} {s₁ s₂ : State σ}
      {inner ending tail : List Happening} :
    Opened env s (s.connections + 1) s₁ →
    (work.perform (c.inside (s.connections + 1)) []).exec env s₁ = (o, s₂) →
    Observed env.source s₁ inner s₂ →
    work.Performs (c.inside (s.connections + 1)) (s.connections + 1) o
      (inner.filter (·.concerns (s.connections + 1))) →
    Completes (s.connections + 1) o ending outcome → Released (s.connections + 1) tail →
    Bracket env c s s' work outcome
      ([.asked .acquire (.ok ()), .batch (s.connections + 1) "BEGIN" (.ok ())] ++
        inner.filter (·.concerns (s.connections + 1)) ++ ending ++ tail)

variable {env : Env σ} {s s' : State σ} {work : Work σ α} {outcome : Except Halt (Response α)}
  {t : List Happening}

theorem bracket_of_course (hc : c.transaction = none)
    (h : (c.transact (Work.callback (.ok work))).exec env s = (outcome, s'))
    (hcompleted : completed outcome)
    (hcourse : Course env c s (.ok work) outcome t) : Bracket env c s s' work outcome t := by
  cases hcourse with
  | unacquired _ hall => exact .unacquired fun callback => (hall callback).trans h
  | acquiring _ hgiven => simp [completed, hgiven] at hcompleted
  | acquired hacquire hbegins hreleased =>
    cases hbegins with
    | unbegun _ hall =>
      refine .unbegun (fun callback => ?_) hreleased
      rw [← h, exec_transact hc, exec_transact hc, hacquire]
      dsimp only
      rw [hall callback]
    | beginning _ hgiven => simp [completed, hgiven] at hcompleted
    | baseless _ hplan => cases hplan
    | closed hbegin hplan hwork hinner hperforms hcloses =>
      cases hplan
      rcases hcloses with hcompletes | ⟨halt, rfl, hgiven, _⟩
      · have hbracket : Bracket env c s s' work outcome _ :=
          .closed ⟨_, hacquire, hbegin⟩ hwork hinner hperforms hcompletes hreleased
        simpa using hbracket
      · simp [completed, hgiven] at hcompleted

/-- What concerns the connection of a transaction once it is acquired. -/
inductive Happening.Belongs (conn : ℕ) : Happening → Prop
  | bracket {sql : String} {v : Verdict} : sql ∈ brackets → Belongs conn (.batch conn sql v)
  | inner {r : Request} {v : Verdict} : r.Scoped conn → Belongs conn (.asked r v)
  | released : Belongs conn (.noted (.released conn))

theorem Completes.belongs {o : Except Halt α} {ending : List Happening}
    (h : Completes conn o ending outcome) : ∀ x ∈ ending, x.Belongs conn := by
  intro x hx
  cases h with
  | committed | failed | panicked =>
    rw [List.mem_singleton.1 hx]
    exact .bracket (by decide)
  | uncommitted =>
    simp only [List.mem_cons, List.not_mem_nil, or_false] at hx
    rcases hx with rfl | rfl
    · exact .bracket (by decide)
    · exact .bracket (by decide)

theorem Released.belongs {tail : List Happening} (h : Released conn tail) :
    ∀ x ∈ tail, x.Belongs conn := by
  intro x hx
  rcases h with rfl | rfl
  · cases hx
  · rw [List.mem_singleton.1 hx]
    exact .released

/-- Behind the one request for a connection there is only what belongs to it. -/
theorem Bracket.exists_eq_cons (h : Bracket env c s s' work outcome t) :
    ∃ v rest, t = .asked .acquire v :: rest ∧ ∀ x ∈ rest, x.Belongs (s.connections + 1) := by
  cases h with
  | unacquired _ => exact ⟨_, [], rfl, fun _ hx => nomatch hx⟩
  | unbegun _ htail =>
    refine ⟨_, _, rfl, fun x hx => ?_⟩
    rcases List.mem_cons.1 hx with rfl | hx
    · exact .bracket (by decide)
    · exact htail.belongs x hx
  | @closed _ _ _ _ inner ending tail _ _ _ hperforms hcompletes htail =>
    refine ⟨.ok (), .batch (s.connections + 1) "BEGIN" (.ok ()) ::
      (inner.filter (·.concerns (s.connections + 1)) ++ ending ++ tail), by simp, fun x hx => ?_⟩
    simp only [List.mem_cons, List.mem_append] at hx
    rcases hx with rfl | (hx | hx) | hx
    · exact .bracket (by decide)
    · obtain ⟨r, v, rfl, hscoped⟩ := hperforms.asks x hx
      exact .inner hscoped
    · exact hcompletes.belongs x hx
    · exact htail.belongs x hx

theorem Happening.Belongs.not_isAcquire {x : Happening} (h : x.Belongs conn) :
    x.isAcquire = false := by
  cases h with
  | bracket | released => rfl
  | @inner r v hr =>
    cases r with
    | statement => rfl
    | acquire | cancel => cases hr

/-- No statement on a connection restores the limit of its session, and those that set a limit do so
for the transaction only. -/
def LimitsLocally (conn : ℕ) (trace : List Happening) : Prop :=
  ∀ kind sql values v, Happening.asked (.statement kind conn sql values) v ∈ trace →
    sql ≠ resetStatement ∧ (sql = limitStatement → ∃ limit, values = [.text limit, .bool true])

theorem Happening.Belongs.limitsLocally {kind : StatementKind} {sql : String}
    {values : List Value} {v : Verdict}
    (h : (Happening.asked (.statement kind conn sql values) v).Belongs conn) :
    sql ≠ resetStatement ∧ (sql = limitStatement → ∃ limit, values = [.text limit, .bool true]) := by
  cases h with
  | bracket hsql =>
    simp only [brackets, List.mem_cons, List.not_mem_nil, or_false] at hsql
    rcases hsql with rfl | rfl | rfl <;> exact ⟨by decide, fun he => absurd he (by decide)⟩
  | inner hr => exact hr.2.2.2

theorem countP_isAcquire_filter (trace : List Happening) (conn : ℕ) :
    (trace.filter (·.concerns conn)).countP Happening.isAcquire =
      trace.countP Happening.isAcquire := by
  rw [List.countP_filter]
  congr 1
  funext x
  rcases x with ⟨_ | _ | _, v⟩ | e <;> rfl

/-- **A transaction that is not given up is bracketed**: one connection is asked for; if it is not
acquired or the transaction not begun, the callback does not come into it; else the statements on it
are `BEGIN`, those of the work, `COMMIT` if the work has a value, and `ROLLBACK` if it has none or
the `COMMIT` fails.  The response is the value, or the error that brought the failure about. -/
theorem transaction_bracketed (hc : c.transaction = none) (hs : s.Sound)
    (h : (c.transact (Work.callback (.ok work))).exec env s = (outcome, s'))
    (hcompleted : completed outcome) :
    ∃ trace, Observed env.source s trace s' ∧
      Bracket env c s s' work outcome (trace.filter (·.concerns (s.connections + 1))) ∧
      trace.countP Happening.isAcquire = 1 ∧ LimitsLocally (s.connections + 1) trace := by
  obtain ⟨trace, hobs, hcourse⟩ := Client.course_of_transact hc env hs (.ok work)
  rw [h] at hobs hcourse
  have hbracket := bracket_of_course hc h hcompleted hcourse
  obtain ⟨v, rest, ht, hbelongs⟩ := hbracket.exists_eq_cons
  refine ⟨trace, hobs, hbracket, ?_, fun kind sql values v hmem => ?_⟩
  · have hnone : rest.countP Happening.isAcquire = 0 :=
      List.countP_eq_zero.2 fun x hx => by simp [(hbelongs x hx).not_isAcquire]
    rw [← countP_isAcquire_filter trace (s.connections + 1), ht, List.countP_cons_of_pos rfl, hnone]
  · have hconcerns : Happening.asked (.statement kind (s.connections + 1) sql values) v ∈
        trace.filter (·.concerns (s.connections + 1)) :=
      List.mem_filter.2 ⟨hmem, by simp [Happening.concerns]⟩
    rw [ht] at hconcerns
    rcases List.mem_cons.1 hconcerns with he | hx
    · cases he
    · exact (hbelongs _ hx).limitsLocally

/-- A deletion as the work of a transaction. -/
def clearing : Work σ Json :=
  .ask (.execute { schema := "public", table := "users", operation := .delete } none none)
    fun _ => .done .null

/-- What comes of the deletion where a caller waits for a minute, and the state it leaves. -/
def clear (script : Script) : Except Halt (Response Json) × State Script :=
  (Client.transact {} (Work.callback (.ok clearing))).exec ⟨Script.source, [60000000000]⟩
    { source := script }

theorem transaction_bracketed_of_clearing :
    completed (clear {}).1 ∧ ∃ trace, Observed Script.source { source := {} } trace (clear {}).2 ∧
      Bracket ⟨Script.source, [60000000000]⟩ {} { source := {} } (clear {}).2 clearing (clear {}).1
        (trace.filter (·.concerns 1)) ∧
      trace.countP Happening.isAcquire = 1 ∧ LimitsLocally 1 trace := by
  have hcompleted : completed (clear {}).1 := by decide +kernel
  have hsound : State.Sound ({ source := {} } : State Script) := fun _ hc => nomatch hc
  have hclear : (Client.transact {} (Work.callback (.ok clearing))).exec
      ⟨Script.source, [60000000000]⟩ { source := {} } = ((clear {}).1, (clear {}).2) :=
    (Prod.eta (clear {})).symm
  refine ⟨hcompleted, transaction_bracketed ?_ hsound hclear hcompleted⟩
  rfl

/-! ## Transactions that are given up -/

/-- A `COMMIT` or a `ROLLBACK` was sent on a connection. -/
def Closed (conn : ℕ) (t : List Happening) : Prop :=
  ∃ sql v, (sql = "COMMIT" ∨ sql = "ROLLBACK") ∧ Happening.batch conn sql v ∈ t

theorem closed_append_iff {t t' : List Happening} :
    Closed conn (t ++ t') ↔ Closed conn t ∨ Closed conn t' := by
  simp [Closed, and_or_left, exists_or]

/-- Beginning a transaction does not close it. -/
theorem closed_begin_iff {t : List Happening} {v : Verdict} :
    Closed conn (.batch conn "BEGIN" v :: t) ↔ Closed conn t := by
  simp [Closed]

/-- A transaction was closed while its connection had not been released. -/
def ClosedBeforeRelease (conn : ℕ) (trace : List Happening) : Prop :=
  ∃ front back, trace = front ++ back ∧ Closed conn front ∧
    Happening.noted (.released conn) ∉ front

theorem closedBeforeRelease_iff {trace body tail : List Happening}
    (h : trace.filter (·.concerns conn) = body ++ tail) (htail : Released conn tail)
    (hbody : Happening.noted (.released conn) ∉ body) :
    ClosedBeforeRelease conn trace ↔ Closed conn body := by
  constructor
  · rintro ⟨front, back, rfl, ⟨sql, v, hsql, hmem⟩, -⟩
    have hfilter : Happening.batch conn sql v ∈ body ++ tail := by
      rw [← h]
      exact List.mem_filter.2 ⟨List.mem_append_left _ hmem, by simp [Happening.concerns]⟩
    rcases List.mem_append.1 hfilter with hin | hin
    · exact ⟨sql, v, hsql, hin⟩
    · rcases htail with rfl | rfl
      · cases hin
      · cases List.mem_singleton.1 hin
  · rintro ⟨sql, v, hsql, hmem⟩
    obtain ⟨front, back, rfl, hfront, -⟩ := List.filter_eq_append_iff.1 h
    refine ⟨front, back, rfl, ⟨sql, v, hsql, ?_⟩, fun hreleased => hbody ?_⟩
    · rw [← hfront] at hmem
      exact (List.mem_filter.1 hmem).1
    · rw [← hfront]
      exact List.mem_filter.2 ⟨hreleased, by simp [Happening.concerns, Event.concerns]⟩

theorem Work.Performs.not_closed {o : Except Halt α} (h : work.Performs c conn o t) :
    ¬ Closed conn t := by
  rintro ⟨sql, v, -, hmem⟩
  obtain ⟨r, v', he, hr⟩ := h.asks _ hmem
  cases he
  exact hr.2.1 rfl

theorem Work.Performs.released_notMem {o : Except Halt α} (h : work.Performs c conn o t) :
    Happening.noted (.released conn) ∉ t := by
  intro hmem
  obtain ⟨r, v, he, -⟩ := h.asks _ hmem
  cases he

/-- A transaction whose caller gave up is left. -/
theorem Closes.abandons {o : Except Halt α} {ending : List Happening} {halt : Halt}
    (h : Closes conn o ending (.error halt : Except Halt (Response α))) (hgiven : halt.givenUp) :
    Abandons conn o ending halt := by
  rcases h with hcompletes | ⟨_, he, -, habandons⟩
  · cases hcompletes
    cases hgiven
  · cases he
    exact habandons

/-- A transaction that is left is closed exactly if its work had come to an end of its own. -/
theorem Abandons.closed_iff {o : Except Halt α} {ending : List Happening} {halt : Halt}
    (h : Abandons conn o ending halt) : Closed conn ending ↔ completed o := by
  cases h with
  | working hgiven =>
    simp [completed, hgiven, Closed]
  | committing => exact ⟨fun _ => rfl, fun _ => ⟨_, _, Or.inl rfl, List.mem_cons_self⟩⟩
  | uncommitted => exact ⟨fun _ => rfl, fun _ => ⟨_, _, Or.inl rfl, List.mem_cons_self⟩⟩
  | undoing hgiven =>
    exact ⟨fun _ => by simp [completed, hgiven], fun _ => ⟨_, _, Or.inr rfl, List.mem_cons_self⟩⟩

theorem Abandons.released_notMem {o : Except Halt α} {ending : List Happening} {halt : Halt}
    (h : Abandons conn o ending halt) : Happening.noted (.released conn) ∉ ending := by
  cases h <;> simp

/-- **A transaction that does not run to completion is closed before its connection is released
exactly if its work had come to an end of its own**: neither when the work itself is given up nor
when the callback panics before there is any work. -/
theorem closed_before_release_iff {plan : Except String (Work σ α)} {halt : Halt} {s₁ : State σ}
    (hc : c.transaction = none) (hs : s.Sound) (hopened : Opened env s (s.connections + 1) s₁)
    (h : (c.transact (Work.callback plan)).exec env s = (.error halt, s'))
    (huncompleted : halt.givenUp ∨ ∃ text, plan = .error text) :
    ∃ trace, Observed env.source s trace s' ∧
      (ClosedBeforeRelease (s.connections + 1) trace ↔ ∃ work, plan = .ok work ∧
        completed ((work.perform (c.inside (s.connections + 1)) []).exec env s₁).1) := by
  obtain ⟨trace, hobs, hcourse⟩ := Client.course_of_transact hc env hs plan
  rw [h] at hobs hcourse
  refine ⟨trace, hobs, ?_⟩
  obtain ⟨s₀, hacquire, hbegin⟩ := hopened
  generalize ht : trace.filter (·.concerns (s.connections + 1)) = t at hcourse
  cases hcourse with
  | acquiring hnever _ => exact absurd hacquire (hnever _ _)
  | @acquired s₀' _ t tail hacquire' hbegins hreleased =>
    obtain rfl : s₀ = s₀' := congrArg Prod.snd (hacquire.symm.trans hacquire')
    suffices hbody : (Closed (s.connections + 1) t ↔ ∃ work, plan = .ok work ∧
        completed ((work.perform (c.inside (s.connections + 1)) []).exec env s₁).1) ∧
        Happening.noted (.released (s.connections + 1)) ∉ t by
      have hnone : Happening.noted (.released (s.connections + 1)) ∉
          .asked .acquire (.ok ()) :: t := by simpa using hbody.2
      rw [← hbody.1, closedBeforeRelease_iff ht hreleased hnone]
      simp [Closed]
    cases hbegins with
    | beginning hnever _ => exact absurd hbegin (hnever _)
    | baseless _ hplan => simp [Closed, hplan]
    | @closed work o _ s₁' s₂ inner ending hbegin' hplan hwork _ hperforms hcloses =>
      obtain rfl : s₁ = s₁' := congrArg Prod.snd (hbegin.symm.trans hbegin')
      have hgiven : halt.givenUp := huncompleted.resolve_right fun ⟨_, he⟩ => by
        cases hplan.symm.trans he
      have habandons := hcloses.abandons hgiven
      refine ⟨?_, ?_⟩
      · rw [closed_begin_iff, closed_append_iff, habandons.closed_iff]
        simp [hperforms.not_closed, hplan, hwork]
      · simp [hperforms.released_notMem, habandons.released_notMem]

/-- The selection of all users. -/
def allUsers : Query := { schema := "public", table := "users" }

/-- The deletion never comes to an end. -/
def hanging : Script := { executes := [⟨none, .ok 0⟩] }

theorem closed_before_release_iff_of_hanging :
    ∃ halt s₁, Opened ⟨Script.source, [60000000000]⟩ { source := hanging } 1 s₁ ∧
      (clear hanging).1 = .error halt ∧ halt.givenUp ∧
      ∃ trace, Observed Script.source { source := hanging } trace (clear hanging).2 ∧
        (ClosedBeforeRelease 1 trace ↔ ∃ work, .ok clearing = (.ok work : Except String _) ∧
          completed ((work.perform (Client.inside {} 1) []).exec
            ⟨Script.source, [60000000000]⟩ s₁).1) := by
  have hgivenUp : ¬ completed (clear hanging).1 := by decide +kernel
  obtain ⟨halt, he, hgiven⟩ := exists_of_not_completed hgivenUp
  have hsound : State.Sound ({ source := hanging } : State Script) := fun _ hc => nomatch hc
  have hopened : ∃ s₁, Opened ⟨Script.source, [60000000000]⟩ { source := hanging } 1 s₁ :=
    ⟨_, _, rfl, rfl⟩
  obtain ⟨s₁, hs₁⟩ := hopened
  have hclear : (Client.transact {} (Work.callback (.ok clearing))).exec
      ⟨Script.source, [60000000000]⟩ { source := hanging } = (.error halt, (clear hanging).2) :=
    he ▸ (Prod.eta (clear hanging)).symm
  refine ⟨halt, s₁, hs₁, he, hgiven, closed_before_release_iff ?_ hsound hs₁ hclear (Or.inl hgiven)⟩
  rfl

/-- The statements on a connection, and its release. -/
def Event.line? (conn : ℕ) : Event → Option String
  | .sent _ c sql _ => if c = conn then some sql else none
  | .released c => if c = conn then some "released" else none
  | _ => none

/-- What happens on a connection: the statements, and the requests to stop. -/
def Event.text? (conn : ℕ) : Event → Option String
  | .sent _ c sql _ => if c = conn then some sql else none
  | .cancelled c => if c = conn then some "stop" else none
  | _ => none

/-- What comes of a transaction whose callback panics before there is any work. -/
def collapse : Except Halt (Response Json) × State Script :=
  (Client.transact {} (Work.callback (.error "no work"))).exec ⟨Script.source, []⟩ { source := {} }

/-- A connection is released with its transaction open when its caller gives up on a deletion that
never comes to an end, and when the callback panics before there is any work. -/
theorem released_open :
    ((∃ s₁, Opened ⟨Script.source, [60000000000]⟩ { source := hanging } 1 s₁) ∧
      ¬ completed (clear hanging).1 ∧ (clear hanging).2.history.filterMap (Event.line? 1) =
        ["BEGIN", "DELETE FROM \"public\".\"users\"", "released"]) ∧
    (∃ s₁, Opened ⟨Script.source, []⟩ { source := {} } 1 s₁) ∧
      collapse.1 = .error (.panicked "no work") ∧
      collapse.2.history.filterMap (Event.line? 1) = ["BEGIN", "released"] :=
  ⟨⟨⟨_, _, rfl, rfl⟩, by decide +kernel⟩, ⟨_, _, rfl, rfl⟩, rfl, by decide +kernel⟩

end QueryClient.Session
