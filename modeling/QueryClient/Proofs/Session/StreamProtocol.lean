/-
  What a stream gives in the course of its life.

  A stream is polled time and again, its caller may abort at any time, and in the end it may be
  closed or dropped.

  * `RowStream.watch` and `RowStream.leave` are the life of a stream;
  * `Gives`: rows as they come, one end, and nothing more;
  * `stream_protocol`: every stream keeps to that; its lease ends once, when the stream does, and the
    server is asked to stop once if the stream ended before its rows did.
-/
import Mathlib.Algebra.BigOperators.Group.List.Basic
import QueryClient.Proofs.Session.Streams

namespace QueryClient.Session

open Run

variable {σ : Type}

/-! ## The life of a stream -/

/-- Something that happens to a stream that is open. -/
inductive Turn where
  | poll
  /-- The caller aborts. -/
  | abort
  | elapse (time : ℕ)

/-- What a poll gives, and how things stand then. -/
structure Poll where
  /-- Whether the caller had aborted. -/
  late : Bool
  item : Item
  /-- Whether the stream has come to an end. -/
  done : Bool
  /-- The connections that calls hold. -/
  held : List ℕ

/-- How a stream is left. -/
inductive Leaving where
  | kept
  | closed
  | dropped
  deriving DecidableEq

namespace RowStream

/-- Takes a turn, and says what a poll gives. -/
def turn (s : RowStream) : Turn → Run σ (Option Poll × RowStream)
  | .poll => do
    let late ← aborted s.abort
    let (item, s) ← s.poll
    return (some { late, item, done := s.done, held := (← get).held }, s)
  | .abort => do
    let now ← Run.now
    return (none, { s with abort := some now })
  | .elapse time => do
    Run.settle
    let env ← read
    modify fun st => State.advance env.source (st.now + time) st
    return (none, s)

/-- Takes some turns, and says what the polls give. -/
def watch (s : RowStream) : List Turn → Run σ (List Poll × RowStream)
  | [] => return ([], s)
  | t :: turns => do
    let (poll, s) ← s.turn t
    let (polls, s) ← s.watch turns
    return (poll.toList ++ polls, s)

def leave (s : RowStream) : Leaving → Run σ Unit
  | .kept => pure ()
  | .closed => s.close
  | .dropped => s.drop

end RowStream

/-! ## What it gives -/

/-- How far a stream has come. -/
inductive Fate where
  | ongoing
  /-- There were no more rows, or there was an error. -/
  | finished
  /-- The caller aborted. -/
  | interrupted
  deriving DecidableEq

/-- Whether the server is asked to stop: the stream ended, and not of its own accord. -/
def Fate.Stops (leaving : Leaving) : Fate → Prop
  | .ongoing => leaving ≠ .kept
  | .finished => False
  | .interrupted => True

instance (leaving : Leaving) : DecidablePred (Fate.Stops leaving)
  | .ongoing => inferInstanceAs (Decidable (leaving ≠ .kept))
  | .finished => instDecidableFalse
  | .interrupted => instDecidableTrue

/-- A stream has come to an end. -/
def Over (polls : List Poll) : Prop := ∀ p ∈ polls, p.item = .ended ∧ p.done

/-- What polls give for the answers to the requests for rows, as far as there are polls. -/
inductive Gives : List (Answer Row) → List Poll → Fate → Prop
  | nil {rows} : Gives rows [] .ongoing
  | pending {rows polls fate held} : Gives rows polls fate →
    Gives rows (⟨false, .pending, false, held⟩ :: polls) fate
  | row {answer rest r polls fate held} : answer.result = .ok r → Gives rest polls fate →
    Gives (answer :: rest) (⟨false, .row r, false, held⟩ :: polls) fate
  | failed {answer rest e polls held} : answer.result = .error e → Over polls →
    Gives (answer :: rest) (⟨false, .failed e, true, held⟩ :: polls) .finished
  | exhausted {polls held} : Over polls → Gives [] (⟨false, .ended, true, held⟩ :: polls) .finished
  /-- That the caller aborts counts more than what has come. -/
  | aborted {rows polls held} : Over polls →
    Gives rows (⟨true, .failed (.aborted "stream aborted by caller"), true, held⟩ :: polls)
      .interrupted

/-- The connections that calls hold once a lease has ended. -/
def Lease.freed (l : Lease) (held : List ℕ) : List ℕ := if l.shared then held else held.erase l.conn

/-! ## The connections that calls hold -/

/-- The connections that calls hold after a deed. -/
def Deed.holding (held : List ℕ) : Deed → List ℕ
  | .held _ conn => conn :: held
  | .letGo _ conn => held.erase conn
  | _ => held

section
variable {source : Source σ} {s s' : State σ} {deed : Option Deed} {ds : List Deed}
  {entries : List Entry}

theorem Moves.held_eq (h : Moves source s deed entries s') :
    s'.held = deed.toList.foldl Deed.holding s.held := by
  cases h <;> rfl

/-- Only deeds change which connections calls hold. -/
theorem Passage.held_eq (h : Passage source s ds entries s') :
    s'.held = ds.foldl Deed.holding s.held := by
  induction h with
  | refl => rfl
  | head hmove _ ih => rw [List.foldl_append, ← hmove.held_eq, ih]

end

/-! ## Cleanups that stop first -/

/-- A cleanup that asks the server to stop does that first. -/
def Cleanup.Orderly (c : Cleanup) : Prop :=
  .cancel ∉ c.steps.tail ∧ (c.pending.isSome → .cancel ∉ c.steps)

def State.Orderly (s : State σ) : Prop := ∀ c ∈ s.cleanups, c.Orderly

/-- What is left to cleanups begins with the request to stop, if there is one. -/
def StopsFirst (ds : List Deed) : Prop :=
  ∀ m conn steps, .left m conn steps ∈ ds → .cancel ∉ steps.tail

section
variable {source : Source σ} {s s' : State σ} {deed : Option Deed} {ds : List Deed}
  {entries : List Entry}

theorem Moves.orderly (h : Moves source s deed entries s') (hs : s.Orderly)
    (hdeed : StopsFirst deed.toList) : s'.Orderly := by
  cases h with
  | starts hcleanups =>
    refine forall_mem_replace [_] hs hcleanups fun hc d hd => ?_
    rw [List.mem_singleton.1 hd]
    exact ⟨fun hmem => hc.1 (List.mem_of_mem_tail hmem), fun _ => hc.1⟩
  | answered hcleanups _ =>
    refine forall_mem_replace [_] hs hcleanups fun hc d hd => ?_
    rw [List.mem_singleton.1 hd]
    exact ⟨hc.1, fun h => nomatch h⟩
  | ends hcleanups _ | releases hcleanups _ _ =>
    exact forall_mem_replace [] hs hcleanups fun _ => List.forall_mem_nil _
  | leaves =>
    intro c hc
    rcases List.mem_append.1 hc with hc | hc
    · exact hs c hc
    · rw [List.mem_singleton.1 hc]
      exact ⟨hdeed _ _ _ List.mem_cons_self, fun h => nomatch h⟩
  | passes _ | notes _ | closes | asks | holds | letsGo _ | frees _ _ => exact hs

theorem Passage.orderly (h : Passage source s ds entries s') (hs : s.Orderly)
    (hds : StopsFirst ds) : s'.Orderly := by
  induction h with
  | refl => exact hs
  | head hmove _ ih =>
    exact ih
      (hmove.orderly hs fun m conn steps hmem => hds m conn steps (List.mem_append_left _ hmem))
      fun m conn steps hmem => hds m conn steps (List.mem_append_right _ hmem)

/-- When all cleanups wait, those that stop first have done that. -/
theorem State.Settled.cancelsLeft_eq_zero (h : s.Settled) (hs : s.Orderly) (conn : ℕ) :
    s.cancelsLeft conn = 0 := by
  refine List.sum_eq_zero fun n hn => ?_
  obtain ⟨c, hc, rfl⟩ := List.mem_map.1 hn
  obtain ⟨p, hp, -⟩ := h c hc
  have hnone : .cancel ∉ c.steps := (hs c hc).2 (by rw [hp]; rfl)
  unfold Cleanup.cancels
  split
  · exact List.count_eq_zero.2 hnone
  · rfl

end

theorem cancel_notMem_tail (cancel reset : Bool) :
    CleanupStep.cancel ∉ (cleanupSteps cancel reset).tail := by
  cases cancel <;> cases reset <;> decide

/-! ## The end of the lease -/

section
variable {s s' : RowStream} {l : Lease} {m m' conn : ℕ} {item : Item} {ds : List Deed}
  {held : List ℕ} {late interrupted : Bool}

/-- The deeds with which a lease ends, where the server may be asked to stop. -/
structure Lease.Frees (l : Lease) (interrupted : Bool) (ds : List Deed) : Prop where
  holding : ∀ held, ds.foldl Deed.holding held = l.freed held
  cancels : ∀ conn, cancelsOf conn ds = if l.conn = conn ∧ interrupted then 1 else 0
  stopsFirst : StopsFirst ds

namespace Lease

theorem holding_letsGo : (l.letsGo m).foldl Deed.holding held = l.freed held := by
  unfold letsGo freed
  cases l.shared <;> rfl

theorem frees_finishes : s.lease.Frees interrupted (s.finishes interrupted m) := by
  unfold RowStream.finishes discards
  constructor
  case holding =>
    intro held
    rw [List.foldl_append, holding_letsGo]
    split <;> rfl
  case cancels =>
    intro conn
    unfold letsGo cleanupSteps
    cases interrupted <;> cases s.lease.reset <;> cases s.lease.shared <;> simp [Deed.cancels]
  case stopsFirst =>
    intro m' conn steps hmem
    unfold letsGo at hmem
    rcases List.mem_append.1 hmem with hmem | hmem
    · split at hmem
      · cases hmem
      · cases List.mem_singleton.1 hmem
        exact cancel_notMem_tail _ _
    · split at hmem
      · cases hmem
      · cases List.mem_singleton.1 hmem

theorem frees_releasing {o : Except Halt Unit} (h : l.Releasing true m o ds m') (ho : o = .ok ()) :
    l.Frees true ds := by
  cases h with
  | givenUp _ => cases ho
  | @past front _ hcleaning =>
    have hfront : ∃ m₁ a tail, front = .asked m₁ (.cancel l.conn) a :: tail ∧
        (tail = [] ∨ ∃ m₂ a', tail = [.asked m₂ (CleanupStep.reset.request l.conn) a']) := by
      cases hreset : l.reset <;> rw [hreset] at hcleaning
      · cases hcleaning with | answered _ hdone =>
        cases hdone
        exact ⟨_, _, _, rfl, Or.inl rfl⟩
      · cases hcleaning with | answered _ hrest =>
        cases hrest with | answered _ hdone =>
        cases hdone
        exact ⟨_, _, _, rfl, Or.inr ⟨_, _, rfl⟩⟩
    obtain ⟨m₁, a, tail, rfl, htail⟩ := hfront
    have hquiet : ∀ held,
        (Deed.asked m₁ (.cancel l.conn) a :: tail).foldl Deed.holding held = held := by
      intro held
      rcases htail with rfl | ⟨_, _, rfl⟩ <;> rfl
    constructor
    case holding =>
      intro held
      rw [List.foldl_append, hquiet, holding_letsGo]
    case cancels =>
      intro conn
      unfold letsGo
      rcases htail with rfl | ⟨_, _, rfl⟩ <;> cases l.shared <;>
        simp [Deed.cancels, CleanupStep.request]
    case stopsFirst =>
      intro m' conn steps hmem
      unfold letsGo at hmem
      rcases htail with rfl | ⟨_, _, rfl⟩ <;> cases l.shared <;> simp at hmem

end Lease

/-! ## Turns -/

namespace RowStream

/-- What a turn makes of a stream, and its deeds. -/
inductive Turns (stream : RowStream) (before : List ℕ) (moment : ℕ) :
    Option Poll → RowStream → List Deed → Prop
  | aside (abort : Option ℕ) : Turns stream before moment none { stream with abort } []
  | polled {item left ds} : stream.Polling moment item left ds →
    Turns stream before moment
      (some ⟨stream.abort.any (· ≤ moment), item, left.done, ds.foldl Deed.holding before⟩) left ds

/-- **A turn always comes to its end.** -/
theorem exec_turn (env : Env σ) (t : Turn) (s : RowStream) (st : State σ) :
    ∃ p s' st' ds entries, (s.turn t).exec env st = (.ok (p, s'), st') ∧
      Passage env.source st ds entries st' ∧ s.Turns st.held st.now p s' ds := by
  cases t with
  | poll =>
    have hacts : Acts env st.now s.poll _ := acts_poll
    obtain ⟨ds, entries, hpassage, item, s', ho, hpolling, -⟩ := hacts.passes st rfl
    have hturn : (s.turn .poll).exec env st = (.ok (some ⟨s.abort.any (· ≤ st.now), item, s'.done,
        ((s.poll).exec env st).2.held⟩, s'), ((s.poll).exec env st).2) := by
      have hlate := exec_aborted s.abort env st
      rw [turn, exec_bind_of_ok (congrArg Prod.fst hlate), hlate, exec_bind_of_ok ho]
      rfl
    refine ⟨_, s', _, ds, entries, hturn, hpassage, ?_⟩
    rw [hpassage.held_eq]
    exact .polled hpolling
  | abort =>
    exact ⟨none, { s with abort := some st.now }, st, [], [], rfl, .refl st, .aside _⟩
  | elapse time =>
    obtain ⟨hsettle, hnow, -⟩ := State.idle_settle env.source st
    obtain ⟨hadvance, -⟩ := State.idle_advance env.source (State.settle env.source st)
      ((State.settle env.source st).now + time)
    obtain ⟨entries, hpassage⟩ := hsettle.trans hadvance
    exact ⟨none, s, _, [], entries, rfl, hpassage, .aside s.abort⟩

/-- Nothing comes of turns after the end. -/
theorem exec_watch_of_done (env : Env σ) (turns : List Turn) {s : RowStream} (hs : s.done)
    (st : State σ) : ∃ polls s' st' entries, (s.watch turns).exec env st = (.ok (polls, s'), st') ∧
      Passage env.source st [] entries st' ∧ Over polls ∧ s'.done ∧ s'.lease = s.lease ∧
      ∀ p ∈ polls, p.held = st.held := by
  induction turns generalizing s st with
  | nil => exact ⟨[], s, st, [], rfl, .refl st, List.forall_mem_nil _, hs, rfl, List.forall_mem_nil _⟩
  | cons t turns ih =>
    obtain ⟨p, s₁, st₁, ds, entries, hturn, hpassage, hturns⟩ := exec_turn env t s st
    have hfirst : ds = [] ∧ s₁.done ∧ s₁.lease = s.lease ∧
        ∀ q ∈ p, (q.item = .ended ∧ q.done) ∧ q.held = st.held := by
      cases hturns with
      | aside abort => exact ⟨rfl, hs, rfl, fun q hq => nomatch hq⟩
      | polled hpolling =>
        cases hpolling with
        | past _ =>
          refine ⟨rfl, hs, rfl, fun q hq => ?_⟩
          cases hq
          exact ⟨⟨rfl, hs⟩, rfl⟩
        | aborted hundone | exhausted hundone | row hundone | failed hundone | pending hundone =>
          rw [hs] at hundone
          cases hundone
    obtain ⟨rfl, hs₁, hlease, hpoll⟩ := hfirst
    obtain ⟨polls, s', st', entries', hwatch, hrest, hover, hs', hlease', hheld⟩ := ih hs₁ st₁
    refine ⟨p.toList ++ polls, s', st', entries ++ entries', ?_, hpassage.trans hrest, ?_, hs',
      hlease'.trans hlease, ?_⟩
    · rw [watch, exec_bind_of_ok (congrArg Prod.fst hturn), hturn]
      dsimp only
      rw [exec_bind_of_ok (congrArg Prod.fst hwatch), hwatch]
      rfl
    · intro q hq
      rcases List.mem_append.1 hq with hq | hq
      · exact (hpoll q (Option.mem_toList.1 hq)).1
      · exact hover q hq
    · intro q hq
      rcases List.mem_append.1 hq with hq | hq
      · exact (hpoll q (Option.mem_toList.1 hq)).2
      · rw [hheld q hq, hpassage.held_eq]
        rfl

/-- What has been seen of a stream, how far it has come, and its deeds. -/
structure Watched (s : RowStream) (held : List ℕ) (polls : List Poll) (s' : RowStream)
    (ds : List Deed) (fate : Fate) : Prop where
  gives : Gives s.rows polls fate
  done : s'.done ↔ fate ≠ .ongoing
  lease : s'.lease = s.lease
  held : ∀ p ∈ polls, p.held = if p.done then s.lease.freed held else held
  unended : fate = .ongoing → ds = []
  frees : fate ≠ .ongoing → s.lease.Frees (fate = .interrupted) ds

/-- What a turn makes of a stream that has not come to its end. -/
inductive Progress (s : RowStream) (held : List ℕ) (moment : ℕ) :
    Option Poll → RowStream → List Deed → Prop
  /-- The stream goes on, and gives later what is left of it. -/
  | ongoing {p s'} : s'.done = false → s'.lease = s.lease →
    (∀ q ∈ p, q.done = false ∧ q.held = held) →
    (∀ polls fate, Gives s'.rows polls fate → Gives s.rows (p.toList ++ polls) fate) →
    Progress s held moment p s' []
  /-- A poll brings the end. -/
  | ended {late item interrupted fate} : fate ≠ .ongoing →
    interrupted = decide (fate = .interrupted) →
    (∀ polls held, Over polls → Gives s.rows (⟨late, item, true, held⟩ :: polls) fate) →
    Progress s held moment
      (some ⟨late, item, true, (s.finishes interrupted moment).foldl Deed.holding held⟩) s.ended
      (s.finishes interrupted moment)

theorem Turns.progress {moment : ℕ} {p : Option Poll} (hs : s.done = false)
    (h : s.Turns held moment p s' ds) : s.Progress held moment p s' ds := by
  have hfinished : Fate.finished ≠ .ongoing := Fate.noConfusion
  cases h with
  | aside abort => exact .ongoing hs rfl (fun _ hq => nomatch hq) fun _ _ hgives => hgives
  | polled hpolling =>
    cases hpolling with
    | past hdone =>
      rw [hs] at hdone
      cases hdone
    | aborted _ habort hle =>
      have hlate : s.abort.any (· ≤ moment) = true := by
        rw [habort]
        exact decide_eq_true hle
      rw [hlate]
      exact .ended Fate.noConfusion rfl fun _ _ hover => .aborted hover
    | exhausted _ hearly hrows =>
      rw [any_le_eq_false_iff.2 hearly]
      refine .ended hfinished rfl fun _ _ hover => ?_
      rw [hrows]
      exact .exhausted hover
    | failed _ hearly hrows _ hresult =>
      rw [any_le_eq_false_iff.2 hearly]
      refine .ended hfinished rfl fun _ _ hover => ?_
      rw [hrows]
      exact .failed hresult hover
    | row _ hearly hrows _ hresult =>
      rw [any_le_eq_false_iff.2 hearly]
      refine .ongoing hs rfl (fun q hq => ?_) fun _ _ hgives => ?_
      · cases hq
        exact ⟨hs, rfl⟩
      · rw [hrows, hs]
        exact .row hresult hgives
    | pending _ hearly _ _ =>
      rw [any_le_eq_false_iff.2 hearly]
      refine .ongoing hs rfl (fun q hq => ?_) fun _ _ hgives => ?_
      · cases hq
        exact ⟨hs, rfl⟩
      · rw [hs]
        exact .pending hgives

/-- What is seen of a stream that goes on comes before what is seen then. -/
theorem Watched.after {s₁ : RowStream} {p : Option Poll} {polls : List Poll} {fate : Fate}
    (h : s₁.Watched held polls s' ds fate) (hlease : s₁.lease = s.lease)
    (hp : ∀ q ∈ p, q.done = false ∧ q.held = held)
    (hgives : Gives s.rows (p.toList ++ polls) fate) :
    s.Watched held (p.toList ++ polls) s' ds fate := by
  refine ⟨hgives, h.done, h.lease.trans hlease, fun q hq => ?_, h.unended, fun hfate => ?_⟩
  · rcases List.mem_append.1 hq with hq | hq
    · obtain ⟨hundone, hheld⟩ := hp q (Option.mem_toList.1 hq)
      rw [hundone]
      exact hheld
    · rw [← hlease]
      exact h.held q hq
  · rw [← hlease]
    exact h.frees hfate

/-- Where a poll brings the end, there is nothing more to see. -/
theorem exec_watch_ended {env : Env σ} (turns : List Turn) {st st₁ : State σ} {late : Bool}
    {fate : Fate} {entries : List Entry}
    (hpassage : Passage env.source st (s.finishes interrupted m) entries st₁)
    (hgives : ∀ polls held, Over polls → Gives s.rows (⟨late, item, true, held⟩ :: polls) fate)
    (hfate : fate ≠ .ongoing) (hinterrupted : interrupted = decide (fate = .interrupted)) :
    ∃ polls s' st' ds entries' fate, (s.ended.watch turns).exec env st₁ = (.ok (polls, s'), st') ∧
      Passage env.source st ds entries' st' ∧
      s.Watched st.held (⟨late, item, true, (s.finishes interrupted m).foldl Deed.holding st.held⟩ ::
        polls) s' ds fate := by
  have hfrees : s.lease.Frees interrupted (s.finishes interrupted m) := Lease.frees_finishes
  obtain ⟨polls, s', st', entries', hwatch, hrest, hover, hdone, hlease, hheld⟩ :=
    exec_watch_of_done env turns (s := s.ended) rfl st₁
  refine ⟨polls, s', st', _, _, fate, hwatch, hpassage.trans hrest, ?_⟩
  rw [List.append_nil]
  constructor
  case gives => exact hgives polls _ hover
  case done => exact iff_of_true hdone hfate
  case lease => exact hlease
  case held =>
    intro p hp
    rcases List.mem_cons.1 hp with rfl | hp
    · exact hfrees.holding st.held
    · rw [hheld p hp, (hover p hp).2, if_pos rfl, hpassage.held_eq, hfrees.holding]
  case unended => exact fun h => absurd h hfate
  case frees =>
    intro _
    rw [← hinterrupted]
    exact hfrees

/-- **What is seen of a stream** that is watched. -/
theorem exec_watch (env : Env σ) (turns : List Turn) {s : RowStream} (hs : s.done = false)
    (st : State σ) : ∃ polls s' st' ds entries fate,
      (s.watch turns).exec env st = (.ok (polls, s'), st') ∧ Passage env.source st ds entries st' ∧
      s.Watched st.held polls s' ds fate := by
  induction turns generalizing s st with
  | nil =>
    refine ⟨[], s, st, [], [], .ongoing, rfl, .refl st, .nil, ?_, rfl, List.forall_mem_nil _,
      fun _ => rfl, fun h => absurd rfl h⟩
    simp [hs]
  | cons t turns ih =>
    obtain ⟨p, s₁, st₁, ds, entries, hturn, hpassage, hturns⟩ := exec_turn env t s st
    suffices hrest : ∃ polls s' st' ds' entries' fate,
        (s₁.watch turns).exec env st₁ = (.ok (polls, s'), st') ∧
        Passage env.source st ds' entries' st' ∧
        s.Watched st.held (p.toList ++ polls) s' ds' fate by
      obtain ⟨polls, s', st', ds', entries', fate, hwatch, hrest, hwatched⟩ := hrest
      refine ⟨_, s', st', ds', entries', fate, ?_, hrest, hwatched⟩
      rw [watch, exec_bind_of_ok (congrArg Prod.fst hturn), hturn]
      dsimp only
      rw [exec_bind_of_ok (congrArg Prod.fst hwatch), hwatch]
      rfl
    cases hturns.progress hs with
    | ongoing hs₁ hlease hp hgives =>
      have hsame : st₁.held = st.held := hpassage.held_eq
      obtain ⟨polls, s', st', ds', entries', fate, hwatch, hrest, hwatched⟩ := ih hs₁ st₁
      rw [hsame] at hwatched
      exact ⟨polls, s', st', ds', _, fate, hwatch, hpassage.trans hrest,
        hwatched.after hlease hp (hgives polls fate hwatched.gives)⟩
    | ended hfate hinterrupted hgives =>
      exact exec_watch_ended turns hpassage hgives hfate hinterrupted

theorem Closing.of_ok {o : Except Halt Unit} (h : s.Closing m o ds m') (ho : o = .ok ()) :
    (s.done → ds = []) ∧ (s.done = false → s.lease.Frees true ds) := by
  cases h with
  | past hdone =>
    refine ⟨fun _ => rfl, fun hundone => ?_⟩
    rw [hdone] at hundone
    cases hundone
  | closed hundone hreleasing =>
    refine ⟨fun hdone => ?_, fun _ => Lease.frees_releasing hreleasing ho⟩
    rw [hdone] at hundone
    cases hundone

/-- **How a stream is left.** -/
theorem exec_leave (env : Env σ) (leaving : Leaving) (s : RowStream) (st : State σ) :
    ∃ o st' ds entries, (s.leave leaving).exec env st = (o, st') ∧
      Passage env.source st ds entries st' ∧ (leaving ≠ .closed → o = .ok ()) ∧
      (o = .ok () → (s.done ∨ leaving = .kept → ds = []) ∧
        (s.done = false → leaving ≠ .kept → s.lease.Frees true ds)) := by
  cases leaving with
  | kept =>
    exact ⟨.ok (), st, [], [], rfl, .refl st, fun _ => rfl, fun _ => ⟨fun _ => rfl,
      fun _ he => absurd rfl he⟩⟩
  | dropped =>
    have hacts : Acts env st.now s.drop _ := acts_drop
    obtain ⟨ds, entries, hpassage, ho, rfl, -⟩ := hacts.passes st rfl
    refine ⟨.ok (), _, _, entries, Prod.ext ho rfl, hpassage, fun _ => rfl, fun _ => ⟨?_, ?_⟩⟩
    · rintro (hdone | he)
      · exact if_pos hdone
      · cases he
    · intro hdone _
      unfold drops
      rw [hdone]
      exact Lease.frees_finishes
  | closed =>
    have hacts : Acts env st.now s.close _ := acts_close
    obtain ⟨ds, entries, hpassage, hclosing⟩ := hacts.passes st rfl
    refine ⟨_, _, ds, entries, rfl, hpassage, fun he => absurd rfl he, fun ho => ?_⟩
    obtain ⟨hquiet, hfrees⟩ := hclosing.of_ok ho
    refine ⟨?_, fun hundone _ => hfrees hundone⟩
    rintro (hdone | he)
    · exact hquiet hdone
    · cases he

end RowStream

/-- What has happened to the connection of a stream in the course of its life: whether its lease has
ended, and whether the server was to stop. -/
structure Lease.Served (l : Lease) (ends stops : Prop) [Decidable ends] [Decidable stops]
    (st : State σ) (entries : List Entry) (st' : State σ) : Prop where
  held : st'.held = if ends then l.freed st.held else st.held
  cancels : ∀ conn, entries.countP (·.isCancel conn) + st'.cancelsLeft conn =
    st.cancelsLeft conn + if l.conn = conn ∧ stops then 1 else 0
  /-- All that cleanups were to stop is stopped. -/
  stopped : st.Orderly → ∀ conn, st'.cancelsLeft conn = 0

/-- What deeds have done once cleanups have gone on. -/
theorem Lease.served {source : Source σ} {st st' : State σ} {entries : List Entry} {ends stops : Prop}
    [Decidable ends] [Decidable stops] (hpassage : Passage source st ds entries st')
    (hnone : ¬ ends → ds = []) (hfrees : ends → l.Frees (decide stops) ds) (hstops : stops → ends) :
    ∃ entries', Chronicles source st (entries ++ entries') (State.settle source st') ∧
      l.Served ends stops st (entries ++ entries') (State.settle source st') := by
  obtain ⟨⟨entries', hidle⟩, -, hsettled⟩ := State.idle_settle source st'
  have hwhole : Passage source st ds (entries ++ entries') (State.settle source st') := by
    simpa using hpassage.trans hidle
  refine ⟨entries', hwhole.chronicles, ?_⟩
  by_cases hends : ends
  · have hfrees := hfrees hends
    refine ⟨?_, fun conn => ?_, fun horderly => ?_⟩
    · rw [hwhole.held_eq, hfrees.holding, if_pos hends]
    · rw [hwhole.cancels, hfrees.cancels]
      simp only [decide_eq_true_eq]
    · exact hsettled.cancelsLeft_eq_zero (hwhole.orderly horderly hfrees.stopsFirst)
  · obtain rfl := hnone hends
    have hstops : ¬ stops := fun h => hends (hstops h)
    refine ⟨?_, fun conn => ?_, fun horderly => ?_⟩
    · rw [hwhole.held_eq, if_neg hends]
      rfl
    · rw [hwhole.cancels, cancelsOf_nil, if_neg fun h => hstops h.2]
    · exact hsettled.cancelsLeft_eq_zero
        (hwhole.orderly horderly fun _ _ _ hmem => nomatch hmem)

end

/-- **Every stream gives rows as they come, one end, and nothing more**, whatever the answers to its
requests are and whenever it is polled.  Its lease ends once: with the stream, or when it is closed or
dropped before.  The server is asked to stop once if the stream did not end of its own accord, and
never else. -/
theorem stream_protocol (env : Env σ) (st : State σ) (lease : Lease) (rows : List (Answer Row))
    (abort : Option ℕ) (turns : List Turn) (leaving : Leaving) :
    ∃ polls s st₁ fate o st₂,
      (({ lease, rows, abort } : RowStream).watch turns).exec env st = (.ok (polls, s), st₁) ∧
      Gives rows polls fate ∧ (s.done ↔ fate ≠ .ongoing) ∧
      (∀ p ∈ polls, p.held = if p.done then lease.freed st.held else st.held) ∧
      (s.leave leaving).exec env st₁ = (o, st₂) ∧ (leaving ≠ .closed → o = .ok ()) ∧
      (o = .ok () → ∃ entries, Chronicles env.source st entries (State.settle env.source st₂) ∧
        lease.Served (fate ≠ .ongoing ∨ leaving ≠ .kept) (fate.Stops leaving) st entries
          (State.settle env.source st₂)) := by
  obtain ⟨polls, s, st₁, ds, entries, fate, hwatch, hpassage, hwatched⟩ :=
    RowStream.exec_watch env turns (s := { lease, rows, abort }) rfl st
  obtain ⟨o, st₂, ds', entries', hleave, hpassage', hclosed, hleft⟩ :=
    RowStream.exec_leave env leaving s st₁
  refine ⟨polls, s, st₁, fate, o, st₂, hwatch, hwatched.gives, hwatched.done, hwatched.held, hleave,
    hclosed, fun ho => ?_⟩
  obtain ⟨hquiet, hfrees⟩ := hleft ho
  rw [hwatched.lease] at hfrees
  have hkept : ¬ (fate ≠ .ongoing ∨ leaving ≠ .kept) → ds ++ ds' = [] := by
    intro hkept
    obtain ⟨hongoing, hkept⟩ : fate = .ongoing ∧ leaving = .kept := by
      simpa only [not_or, not_not] using hkept
    rw [hwatched.unended hongoing, hquiet (Or.inr hkept)]
    rfl
  have hended : fate ≠ .ongoing ∨ leaving ≠ .kept →
      lease.Frees (decide (fate.Stops leaving)) (ds ++ ds') := by
    intro hends
    by_cases hongoing : fate = .ongoing
    · have hundone : s.done = false := by
        rw [← Bool.not_eq_true, hwatched.done]
        exact fun h => h hongoing
      have hkept := hends.resolve_left fun h => h hongoing
      have hstops : fate.Stops leaving := by
        rw [hongoing]
        exact hkept
      rw [hwatched.unended hongoing, List.nil_append, decide_eq_true hstops]
      exact hfrees hundone hkept
    · rw [hquiet (Or.inl (hwatched.done.2 hongoing)), List.append_nil]
      have hfrees := hwatched.frees hongoing
      cases fate with
      | ongoing => exact absurd rfl hongoing
      | finished => exact hfrees
      | interrupted => exact hfrees
  have hstops : fate.Stops leaving → fate ≠ .ongoing ∨ leaving ≠ .kept := by
    intro hstops
    cases fate with
    | ongoing => exact Or.inr hstops
    | finished => exact Or.inl Fate.noConfusion
    | interrupted => exact Or.inl Fate.noConfusion
  obtain ⟨_, hchronicles, hserved⟩ := Lease.served (hpassage.trans hpassage') hkept hended hstops
  exact ⟨_, hchronicles, hserved⟩

end QueryClient.Session
