/-
  Calls and the cleanups beside them, move by move.

  A state changes by small moves.  Some are deeds of a call: it asks the source, or closes it, holds
  a connection, lets go of it, or leaves it to a cleanup.  The others happen beside: time passes,
  something is noted, a cleanup goes on or is over, with which its connection may be released.

  * `Moves` has all of them, with what they add to the chronicle;
  * `Passage source s deeds entries s'`: such moves lead from one state to another;
  * `passage_settle` and `passage_advance`: cleanups go on, and time passes, without deeds;
  * `Passage.cancels`: a request to stop is a deed, or a cleanup makes it to which it was left.
-/
import QueryClient.Proofs.Session.Chronicle
import Mathlib.Tactic.Linarith

namespace QueryClient.Session

variable {σ : Type}

/-! ## Deeds and moves -/

/-- What a call does of its own accord, and when. -/
inductive Deed where
  | asked (moment : ℕ) (r : Request) (a : Answer Yield)
  /-- The source is closed. -/
  | closed (moment : ℕ)
  | held (moment conn : ℕ)
  | letGo (moment conn : ℕ)
  /-- The connection is left to a cleanup. -/
  | left (moment conn : ℕ) (steps : List CleanupStep)

/-- The request that a deed is, unless it is one that cleanups make. -/
def Deed.inquiry? : Deed → Option Inquiry
  | .asked m r a => if r.isStep then none else some ⟨m, r, a⟩
  | _ => none

theorem Deed.eq_of_inquiry? {d : Deed} {i : Inquiry} (h : d.inquiry? = some i) :
    d = .asked i.moment i.request i.answer := by
  cases d with
  | asked m r a =>
    rw [inquiry?] at h
    split at h
    · cases h
    · cases h
      rfl
  | _ => cases h

/-- What is recorded of a deed. -/
def Deed.entry? : Deed → Option Entry
  | .asked m r a => some (.asked m r a)
  | .closed m => some (.noted m .closed)
  | .held m conn => some (.noted m (.acquired conn))
  | _ => none

/-- Whether an event is noted without a change of anything else. -/
def Event.isAside : Event → Bool
  | .acquireFailed | .traced _ | .shown _ => true
  | _ => false

/-- The state after a request. -/
def State.afterRequest (source : Source σ) (r : Request) (s : State σ) : State σ :=
  { s.log r.event with source := (source.respond r s.source).2 }

/-- The answer to a request. -/
def State.answerTo (source : Source σ) (r : Request) (s : State σ) : Answer Yield :=
  (source.respond r s.source).1

/-- One change of a state, with the deed that it is, if it is one. -/
inductive Moves (source : Source σ) : State σ → Option Deed → List Entry → State σ → Prop
  /-- Time passes. -/
  | passes {s t} : s.now ≤ t → Moves source s none [] { s with now := t }
  | notes {s e} : e.isAside → Moves source s none [.noted s.now e] (s.log e)
  | closes {s} : Moves source s (some (.closed s.now)) [.noted s.now .closed]
    { s.log .closed with source := source.close s.source }
  /-- A cleanup starts its next step. -/
  | starts {s conn step rest result xs ys} :
    s.cleanups = xs ++ ⟨conn, none, step :: rest⟩ :: ys →
    Moves source s none [.asked s.now (step.request conn) (s.answerTo source (step.request conn))]
      { s.afterRequest source (step.request conn) with
        cleanups := xs ++ ⟨conn, some ⟨step,
          (s.answerTo source (step.request conn)).wait.map (s.now + ·), result⟩, rest⟩ :: ys }
  /-- A cleanup gets its answer. -/
  | answered {s conn p rest xs ys} : s.cleanups = xs ++ ⟨conn, some p, rest⟩ :: ys →
    p.due.any (· ≤ s.now) →
    Moves source s none [] { s with cleanups := xs ++ ⟨conn, none, rest⟩ :: ys }
  /-- A cleanup is over; the connection is held, or another cleanup goes on with it. -/
  | ends {s conn xs ys} : s.cleanups = xs ++ ⟨conn, none, []⟩ :: ys →
    conn ∈ s.held ∨ (∃ c ∈ xs ++ ys, c.conn = conn) →
    Moves source s none [] { s with cleanups := xs ++ ys }
  /-- The connection is released with that. -/
  | releases {s conn xs ys} : s.cleanups = xs ++ ⟨conn, none, []⟩ :: ys →
    conn ∉ s.held → (∀ c ∈ xs ++ ys, c.conn ≠ conn) →
    Moves source s none [.noted s.now (.released conn)]
      (State.log { s with cleanups := xs ++ ys } (.released conn))
  | asks {s r} : Moves source s (some (.asked s.now r (s.answerTo source r)))
    [.asked s.now r (s.answerTo source r)] (s.afterRequest source r)
  | holds {s} : Moves source s (some (.held s.now (s.connections + 1)))
    [.noted s.now (.acquired (s.connections + 1))] s.hold.2
  /-- The connection is still held, or a cleanup goes on with it. -/
  | letsGo {s conn} : conn ∈ s.held.erase conn ∨ (∃ c ∈ s.cleanups, c.conn = conn) →
    Moves source s (some (.letGo s.now conn)) [] { s with held := s.held.erase conn }
  /-- The connection is released with that. -/
  | frees {s conn} : conn ∉ s.held.erase conn → (∀ c ∈ s.cleanups, c.conn ≠ conn) →
    Moves source s (some (.letGo s.now conn)) [.noted s.now (.released conn)]
      (State.log { s with held := s.held.erase conn } (.released conn))
  | leaves {s conn steps} : Moves source s (some (.left s.now conn steps)) [] (s.spawn conn steps)

/-- Moves lead from one state to another. -/
inductive Passage (source : Source σ) : State σ → List Deed → List Entry → State σ → Prop
  | refl (s) : Passage source s [] [] s
  | head {s s₁ s' deed deeds entries entries'} : Moves source s deed entries s₁ →
    Passage source s₁ deeds entries' s' →
    Passage source s (deed.toList ++ deeds) (entries ++ entries') s'

section
variable {source : Source σ} {s s₁ s' : State σ} {deed : Option Deed} {ds ds' : List Deed}
  {xs ys : List Entry}

theorem Passage.single (h : Moves source s deed xs s') : Passage source s deed.toList xs s' := by
  simpa using Passage.head h (.refl s')

theorem Passage.trans (h : Passage source s ds xs s₁) (h' : Passage source s₁ ds' ys s') :
    Passage source s (ds ++ ds') (xs ++ ys) s' := by
  induction h with
  | refl => exact h'
  | head hmove _ ih => simpa only [List.append_assoc] using Passage.head hmove (ih h')

/-- What leads to a state without a deed. -/
def Idle (source : Source σ) (s s' : State σ) : Prop := ∃ xs, Passage source s [] xs s'

theorem Idle.refl (s : State σ) : Idle source s s := ⟨[], .refl s⟩

theorem Idle.single (h : Moves source s none xs s') : Idle source s s' := ⟨xs, .single h⟩

theorem Idle.trans (h : Idle source s s₁) (h' : Idle source s₁ s') : Idle source s s' := by
  obtain ⟨xs, h⟩ := h
  obtain ⟨ys, h'⟩ := h'
  exact ⟨xs ++ ys, h.trans h'⟩

/-! ## What moves record -/

theorem Moves.chronicles (h : Moves source s deed xs s') : Chronicles source s xs s' := by
  cases h with
  | passes _ | answered _ _ | ends _ _ | letsGo _ | leaves => exact .nil rfl rfl rfl
  | closes | holds | releases _ _ _ | frees _ _ => exact ⟨.noted rfl .nil, rfl, rfl⟩
  | @notes e he =>
    have hrequest : e.isRequest = false := by cases e <;> first | rfl | cases he
    have heffect : e.effect source s.source = s.source := by cases e <;> first | rfl | cases he
    exact ⟨.noted hrequest (heffect.symm ▸ .nil), rfl, rfl⟩
  | starts _ => exact ⟨.asked .nil, rfl, rfl⟩
  | asks => exact ⟨.asked .nil, rfl, rfl⟩

/-- **Moves are recorded in full.** -/
theorem Passage.chronicles (h : Passage source s ds xs s') : Chronicles source s xs s' := by
  induction h with
  | refl => exact .nil rfl rfl rfl
  | head hmove _ ih => exact hmove.chronicles.append ih

theorem Moves.now_le (h : Moves source s deed xs s') : s.now ≤ s'.now := by
  cases h with
  | passes ht => exact ht
  | _ => exact Nat.le_refl _

theorem Passage.now_le (h : Passage source s ds xs s') : s.now ≤ s'.now := by
  induction h with
  | refl => exact Nat.le_refl _
  | head hmove _ ih => exact hmove.now_le.trans ih

theorem Moves.moment_eq (h : Moves source s deed xs s') {x : Entry} (hx : x ∈ xs) :
    x.moment = s.now := by
  cases h with
  | passes _ | answered _ _ | ends _ _ | letsGo _ | leaves => cases hx
  | _ =>
    rw [List.mem_singleton.1 hx]
    rfl

/-- What is recorded on the way is recorded by one of the moves. -/
theorem Passage.exists_moves (h : Passage source s ds xs s') {x : Entry} (hx : x ∈ xs) :
    ∃ s₁ s₂ deed ys, s.now ≤ s₁.now ∧ Moves source s₁ deed ys s₂ ∧ s₂.now ≤ s'.now ∧ x ∈ ys ∧
      ∀ d ∈ deed, d ∈ ds := by
  induction h with
  | refl => cases hx
  | @head s s₁ s' deed _ ys _ hmove hrest ih =>
    rcases List.mem_append.1 hx with hx | hx
    · exact ⟨s, s₁, deed, ys, Nat.le_refl _, hmove, hrest.now_le, hx, fun d hd =>
        List.mem_append_left _ (Option.mem_toList.2 hd)⟩
    · obtain ⟨t₁, t₂, deed', ys', hfront, hmove', hback, hx, hds⟩ := ih hx
      exact ⟨t₁, t₂, deed', ys', hmove.now_le.trans hfront, hmove', hback, hx, fun d hd =>
        List.mem_append_right _ (hds d hd)⟩

/-- What happens on the way happens meanwhile. -/
theorem Passage.moments (h : Passage source s ds xs s') {x : Entry} (hx : x ∈ xs) :
    s.now ≤ x.moment ∧ x.moment ≤ s'.now := by
  obtain ⟨s₁, s₂, deed, ys, hfront, hmove, hback, hx, -⟩ := h.exists_moves hx
  rw [hmove.moment_eq hx]
  exact ⟨hfront, hmove.now_le.trans hback⟩

theorem Moves.inquiries (h : Moves source s deed xs s') :
    inquiries xs = deed.toList.filterMap Deed.inquiry? := by
  cases h with
  | starts _ => simp [Session.inquiries, Entry.inquiry?]
  | _ => rfl

/-- **The requests of a call** are among its deeds, and cleanups make the others. -/
theorem Passage.inquiries (h : Passage source s ds xs s') :
    inquiries xs = ds.filterMap Deed.inquiry? := by
  induction h with
  | refl => rfl
  | head hmove _ ih =>
    rw [List.filterMap_append, ← hmove.inquiries, ← ih]
    exact List.filterMap_append

/-- A passage can be divided at a deed. -/
theorem Passage.split {d : Deed} {front back : List Deed}
    (h : Passage source s (front ++ d :: back) xs s') :
    ∃ s₁ s₂ xs₁ x xs₂, Passage source s front xs₁ s₁ ∧ Moves source s₁ (some d) x s₂ ∧
      Passage source s₂ back xs₂ s' ∧ xs = xs₁ ++ (x ++ xs₂) := by
  generalize hds : front ++ d :: back = ds at h
  induction h generalizing front with
  | refl => simp at hds
  | @head s s₁ s' deed deeds x xs hmove hrest ih =>
    cases deed with
    | none =>
      obtain ⟨t₁, t₂, xs₁, y, xs₂, hfront, hd, hback, rfl⟩ := ih hds
      exact ⟨t₁, t₂, x ++ xs₁, y, xs₂, Passage.head hmove hfront, hd, hback, by simp⟩
    | some d' =>
      cases front with
      | nil =>
        obtain ⟨rfl, rfl⟩ := List.cons.inj hds
        exact ⟨_, _, [], x, xs, .refl _, hmove, hrest, rfl⟩
      | cons d'' front =>
        obtain ⟨rfl, hrest'⟩ := List.cons.inj hds
        obtain ⟨t₁, t₂, xs₁, y, xs₂, hfront, hd, hback, rfl⟩ := ih hrest'
        exact ⟨t₁, t₂, x ++ xs₁, y, xs₂, Passage.head hmove hfront, hd, hback, by simp⟩

theorem Passage.exists_split (h : Passage source s ds xs s') {d : Deed} (hd : d ∈ ds) :
    ∃ s₁ s₂ front back xs₁ x xs₂, Passage source s front xs₁ s₁ ∧ Moves source s₁ (some d) x s₂ ∧
      Passage source s₂ back xs₂ s' ∧ xs = xs₁ ++ (x ++ xs₂) := by
  obtain ⟨front, back, rfl⟩ := List.append_of_mem hd
  obtain ⟨s₁, s₂, xs₁, x, xs₂, h⟩ := h.split
  exact ⟨s₁, s₂, front, back, xs₁, x, xs₂, h⟩

/-- **Deeds are recorded.** -/
theorem Passage.entry_mem (h : Passage source s ds xs s') {d : Deed} {x : Entry} (hd : d ∈ ds)
    (hx : d.entry? = some x) : x ∈ xs := by
  obtain ⟨s₁, s₂, _, _, xs₁, y, xs₂, -, hmove, -, rfl⟩ := h.exists_split hd
  refine List.mem_append_right _ (List.mem_append_left _ ?_)
  cases hmove with
  | holds | asks | closes =>
    cases hx
    exact List.mem_cons_self
  | letsGo _ | frees _ _ | leaves => cases hx

/-- A connection that is acquired is one that a call comes to hold. -/
theorem Passage.held_of_acquired (h : Passage source s ds xs s') {m conn : ℕ}
    (hx : .noted m (.acquired conn) ∈ xs) : .held m conn ∈ ds := by
  obtain ⟨s₁, s₂, deed, ys, -, hmove, -, hx, hds⟩ := h.exists_moves hx
  refine hds _ ?_
  cases hmove with
  | holds =>
    cases List.mem_singleton.1 hx
    rfl
  | @notes e he =>
    cases List.mem_singleton.1 hx
    cases he
  | passes _ | answered _ _ | ends _ _ | letsGo _ | leaves => cases hx
  | closes | starts _ | releases _ _ _ | asks | frees _ _ => cases List.mem_singleton.1 hx

/-- The source is closed by a call. -/
theorem Passage.closed_mem (h : Passage source s ds xs s') {m : ℕ}
    (hx : .noted m .closed ∈ xs) : .closed m ∈ ds := by
  obtain ⟨s₁, s₂, deed, ys, -, hmove, -, hx, hds⟩ := h.exists_moves hx
  refine hds _ ?_
  cases hmove with
  | closes =>
    cases List.mem_singleton.1 hx
    rfl
  | @notes e he =>
    cases List.mem_singleton.1 hx
    cases he
  | passes _ | answered _ _ | ends _ _ | letsGo _ | leaves => cases hx
  | holds | starts _ | releases _ _ _ | asks | frees _ _ => cases List.mem_singleton.1 hx

/-- **Moves are a trace**, unless the source is closed. -/
theorem Passage.observed (h : Passage source s ds xs s') (hds : ∀ m, .closed m ∉ ds) :
    Observed source s (xs.map Entry.happening) s' :=
  h.chronicles.observed fun m hm => hds m (h.closed_mem hm)

theorem Moves.stays_held {conn : ℕ} (h : Moves source s deed xs s') (hconn : conn ∈ s.held)
    (hdeed : ∀ m, deed ≠ some (.letGo m conn)) :
    conn ∈ s'.held ∧ ∀ m, .noted m (.released conn) ∉ xs := by
  cases h with
  | releases _ hfree _ =>
    refine ⟨hconn, fun m hm => ?_⟩
    cases List.mem_singleton.1 hm
    exact hfree hconn
  | @letsGo conn' _ =>
    have hother : conn ≠ conn' := by
      rintro rfl
      exact hdeed _ rfl
    exact ⟨(List.mem_erase_of_ne hother).2 hconn, fun m hm => nomatch hm⟩
  | @frees conn' _ _ =>
    have hother : conn ≠ conn' := by
      rintro rfl
      exact hdeed _ rfl
    refine ⟨(List.mem_erase_of_ne hother).2 hconn, fun m hm => ?_⟩
    cases List.mem_singleton.1 hm
    exact hother rfl
  | @notes e he =>
    refine ⟨hconn, fun m hm => ?_⟩
    cases List.mem_singleton.1 hm
    cases he
  | holds =>
    refine ⟨List.mem_cons_of_mem _ hconn, fun m hm => ?_⟩
    cases List.mem_singleton.1 hm
  | passes _ | answered _ _ | ends _ _ | leaves => exact ⟨hconn, fun m hm => nomatch hm⟩
  | closes | starts _ | asks =>
    refine ⟨hconn, fun m hm => ?_⟩
    cases List.mem_singleton.1 hm

/-- A connection is not released as long as a call holds it. -/
theorem Passage.stays_held {conn : ℕ} (h : Passage source s ds xs s') (hconn : conn ∈ s.held)
    (hds : ∀ m, .letGo m conn ∉ ds) :
    conn ∈ s'.held ∧ ∀ m, .noted m (.released conn) ∉ xs := by
  induction h with
  | refl => exact ⟨hconn, fun m hm => nomatch hm⟩
  | head hmove _ ih =>
    obtain ⟨hheld, hunreleased⟩ := hmove.stays_held hconn fun m he =>
      hds m (List.mem_append_left _ (he ▸ List.mem_cons_self))
    obtain ⟨hheld', hunreleased'⟩ := ih hheld fun m hm => hds m (List.mem_append_right _ hm)
    refine ⟨hheld', fun m hm => ?_⟩
    rcases List.mem_append.1 hm with hm | hm
    · exact hunreleased m hm
    · exact hunreleased' m hm

theorem Moves.connections_le (h : Moves source s deed xs s') :
    s.connections ≤ s'.connections := by
  cases h with
  | holds => exact Nat.le_succ _
  | _ => exact Nat.le_refl _

theorem Passage.connections_le (h : Passage source s ds xs s') :
    s.connections ≤ s'.connections := by
  induction h with
  | refl => exact Nat.le_refl _
  | head hmove _ ih => exact hmove.connections_le.trans ih

/-- A connection that a call comes to hold is a new one. -/
theorem Passage.held_fresh (h : Passage source s ds xs s') {m conn : ℕ}
    (hd : .held m conn ∈ ds) : s.connections < conn ∧ conn ≤ s'.connections := by
  obtain ⟨s₁, s₂, _, _, _, _, _, hfront, hmove, hback, -⟩ := h.exists_split hd
  cases hmove with
  | holds => exact ⟨Nat.lt_succ_of_le hfront.connections_le, hback.connections_le⟩

end

/-! ## Connections that are taken -/

section
variable {source : Source σ} {s s' : State σ} {deed : Option Deed} {ds ds' : List Deed}
  {xs : List Entry} {conn : ℕ}

/-- The connection that a deed takes, if it does. -/
def Deed.held? : Deed → Option ℕ
  | .held _ conn => some conn
  | _ => none

/-- The connections that deeds take. -/
def heldIn (ds : List Deed) : List ℕ := ds.filterMap Deed.held?

@[simp] theorem heldIn_append : heldIn (ds ++ ds') = heldIn ds ++ heldIn ds' :=
  List.filterMap_append

theorem mem_heldIn : conn ∈ heldIn ds ↔ ∃ m, .held m conn ∈ ds := by
  unfold heldIn
  rw [List.mem_filterMap]
  constructor
  · rintro ⟨d, hd, he⟩
    cases d with
    | held m conn' =>
      cases he
      exact ⟨m, hd⟩
    | _ => cases he
  · rintro ⟨m, hd⟩
    exact ⟨_, hd, rfl⟩

/-- **No connection is taken twice.** -/
theorem Passage.nodup_heldIn (h : Passage source s ds xs s') : (heldIn ds).Nodup := by
  induction h with
  | refl => exact List.nodup_nil
  | head hmove hrest ih =>
    rw [heldIn_append]
    cases hmove with
    | holds =>
      refine List.nodup_cons.2 ⟨fun hmem => ?_, ih⟩
      obtain ⟨m, hd⟩ := mem_heldIn.1 hmem
      exact Nat.lt_irrefl _ (hrest.held_fresh hd).1
    | _ => exact ih

theorem Moves.connections_eq (h : Moves source s deed xs s') :
    s'.connections = s.connections + (heldIn deed.toList).length := by
  cases h <;> rfl

/-- Connections are handed out one by one. -/
theorem Passage.connections_eq (h : Passage source s ds xs s') :
    s'.connections = s.connections + (heldIn ds).length := by
  induction h with
  | refl => rfl
  | head hmove _ ih =>
    rw [ih, hmove.connections_eq, heldIn_append, List.length_append, Nat.add_assoc]

end

/-! ## Cleanups on a connection -/

/-- No cleanup is under way on a connection. -/
def State.Undisturbed (conn : ℕ) (s : State σ) : Prop := ∀ c ∈ s.cleanups, c.conn ≠ conn

section
variable {source : Source σ} {s s' : State σ} {deed : Option Deed} {ds : List Deed}
  {entries : List Entry} {conn : ℕ}

/-- What holds of all, where one is replaced by others. -/
theorem forall_mem_replace {α : Type} {P : α → Prop} {all front back : List α} {a : α}
    (as : List α) (h : ∀ b ∈ all, P b) (hall : all = front ++ a :: back)
    (has : P a → ∀ b ∈ as, P b) : ∀ b ∈ front ++ (as ++ back), P b := by
  intro b hb
  rw [hall] at h
  rw [List.mem_append, List.mem_append] at hb
  rcases hb with hb | hb | hb
  · exact h b (List.mem_append_left _ hb)
  · exact has (h a (List.mem_append_right _ List.mem_cons_self)) b hb
  · exact h b (List.mem_append_right _ (List.mem_cons_of_mem _ hb))

theorem Moves.undisturbed (h : Moves source s deed entries s') (hs : s.Undisturbed conn)
    (hdeed : ∀ m steps, deed ≠ some (.left m conn steps)) : s'.Undisturbed conn := by
  cases h with
  | starts hcleanups =>
    exact forall_mem_replace [_] hs hcleanups fun hc d hd => by rwa [List.mem_singleton.1 hd]
  | answered hcleanups _ =>
    exact forall_mem_replace [_] hs hcleanups fun hc d hd => by rwa [List.mem_singleton.1 hd]
  | ends hcleanups _ | releases hcleanups _ _ =>
    exact forall_mem_replace [] hs hcleanups fun _ => List.forall_mem_nil _
  | @leaves conn' _ =>
    intro c hc
    rcases List.mem_append.1 hc with hc | hc
    · exact hs c hc
    · rw [List.mem_singleton.1 hc]
      rintro rfl
      exact hdeed _ _ rfl
  | passes _ | notes _ | closes | asks | holds | letsGo _ | frees _ _ => exact hs

/-- A cleanup is under way only where a call has left one. -/
theorem Passage.undisturbed (h : Passage source s ds entries s') (hs : s.Undisturbed conn)
    (hds : ∀ m steps, .left m conn steps ∉ ds) : s'.Undisturbed conn := by
  induction h with
  | refl => exact hs
  | head hmove _ ih =>
    refine ih (hmove.undisturbed hs fun m steps he => ?_) fun m steps hmem =>
      hds m steps (List.mem_append_right _ hmem)
    exact hds m steps (List.mem_append_left _ (he ▸ List.mem_cons_self))

/-! ## What concerns a connection -/

/-- What a deed asks, with the verdict on it. -/
def Deed.happening? : Deed → Option Happening
  | .asked _ r a => some (.asked r a.judged)
  | _ => none

/-- What deeds ask that concerns a connection. -/
def concerning (conn : ℕ) (ds : List Deed) : List Happening :=
  (ds.filterMap Deed.happening?).filter (·.concerns conn)

@[simp] theorem concerning_nil (conn : ℕ) : concerning conn [] = [] := rfl

@[simp] theorem concerning_append (conn : ℕ) (ds ds' : List Deed) :
    concerning conn (ds ++ ds') = concerning conn ds ++ concerning conn ds' := by
  simp [concerning]

@[simp] theorem concerning_acquire (conn m : ℕ) (a : Answer Yield) :
    concerning conn [.asked m .acquire a] = [.asked .acquire a.judged] := rfl

@[simp] theorem concerning_statement (conn m : ℕ) (kind : StatementKind) (sql : String)
    (values : List Value) (a : Answer Yield) :
    concerning conn [.asked m (.statement kind conn sql values) a] =
      [.asked (.statement kind conn sql values) a.judged] := by
  simp [concerning, Deed.happening?, Happening.concerns]

@[simp] theorem concerning_cancel (conn m conn' : ℕ) (a : Answer Yield) :
    concerning conn [.asked m (.cancel conn') a] = [] := rfl

@[simp] theorem concerning_held (conn m conn' : ℕ) : concerning conn [.held m conn'] = [] := rfl

@[simp] theorem concerning_left (conn m conn' : ℕ) (steps : List CleanupStep) :
    concerning conn [.left m conn' steps] = [] := rfl

/-- Cleanups on a connection restore nothing, and do not release it, for it is held. -/
def State.StopsOnly (conn : ℕ) (s : State σ) : Prop :=
  ∀ c ∈ s.cleanups, c.conn = conn → conn ∈ s.held ∧ .reset ∉ c.steps

theorem State.Undisturbed.stopsOnly (h : s.Undisturbed conn) : s.StopsOnly conn :=
  fun c hc he => absurd he (h c hc)

theorem Moves.stopsOnly (h : Moves source s deed entries s') (hs : s.StopsOnly conn)
    (hletGo : ∀ m, deed ≠ some (.letGo m conn))
    (hleft : ∀ m steps, deed = some (.left m conn steps) → conn ∈ s.held ∧ .reset ∉ steps) :
    s'.StopsOnly conn := by
  have hheld : conn ∈ s.held → conn ∈ s'.held := fun hconn => (h.stays_held hconn hletGo).1
  have hkept : ∀ c ∈ s.cleanups, c.conn = conn → conn ∈ s'.held ∧ .reset ∉ c.steps :=
    fun c hc he => (hs c hc he).imp_left hheld
  cases h with
  | starts hcleanups =>
    refine forall_mem_replace [_] hkept hcleanups fun hc d hd he => ?_
    rw [List.mem_singleton.1 hd] at he ⊢
    exact (hc he).imp_right fun hreset hmem => hreset (List.mem_cons_of_mem _ hmem)
  | answered hcleanups _ =>
    refine forall_mem_replace [_] hkept hcleanups fun hc d hd => ?_
    rwa [List.mem_singleton.1 hd]
  | ends hcleanups _ | releases hcleanups _ _ =>
    exact forall_mem_replace [] hkept hcleanups fun _ => List.forall_mem_nil _
  | leaves =>
    intro c hc he
    rcases List.mem_append.1 hc with hc | hc
    · exact hkept c hc he
    · rw [List.mem_singleton.1 hc] at he ⊢
      obtain rfl := he
      exact hleft _ _ rfl
  | passes _ | notes _ | closes | asks | holds | letsGo _ | frees _ _ => exact hkept

/-- What is recorded of a move concerns a connection only if a call asks for it. -/
theorem Moves.concerning (h : Moves source s deed entries s') (hs : s.StopsOnly conn)
    (hletGo : ∀ m, deed ≠ some (.letGo m conn)) :
    (entries.map Entry.happening).filter (·.concerns conn) =
      Session.concerning conn deed.toList := by
  cases h with
  | passes _ | answered _ _ | ends _ _ | letsGo _ | leaves | closes | holds | asks => rfl
  | @notes e he => cases e <;> first | rfl | cases he
  | @starts c step rest _ xs ys hcleanups =>
    cases step with
    | cancel => rfl
    | reset =>
      have hother : c ≠ conn := by
        rintro rfl
        exact (hs _ (hcleanups ▸ List.mem_append_right _ List.mem_cons_self) rfl).2
          List.mem_cons_self
      exact List.filter_cons_of_neg (by simp [Entry.happening, CleanupStep.request,
        Happening.concerns, hother])
  | @releases c xs ys hcleanups hfree _ =>
    have hother : c ≠ conn := by
      rintro rfl
      exact hfree (hs _ (hcleanups ▸ List.mem_append_right _ List.mem_cons_self) rfl).1
    exact List.filter_cons_of_neg (by simp [Entry.happening, Happening.concerns, Event.concerns,
      hother])
  | @frees c _ _ =>
    have hother : c ≠ conn := by
      rintro rfl
      exact hletGo _ rfl
    exact List.filter_cons_of_neg (by simp [Entry.happening, Happening.concerns, Event.concerns,
      hother])

/-- **What happens on a connection** is what calls ask there, as long as they keep it and leave
nothing to cleanups but to stop. -/
theorem Passage.concerning (h : Passage source s ds entries s') (hs : s.StopsOnly conn)
    (hletGo : ∀ m, .letGo m conn ∉ ds)
    (hleft : ∀ m steps, .left m conn steps ∈ ds → conn ∈ s.held ∧ .reset ∉ steps) :
    s'.StopsOnly conn ∧
      (entries.map Entry.happening).filter (·.concerns conn) = Session.concerning conn ds := by
  induction h with
  | refl => exact ⟨hs, rfl⟩
  | @head s s₁ s' deed deeds entries entries' hmove _ ih =>
    have hkept : ∀ m, deed ≠ some (.letGo m conn) := fun m he =>
      hletGo m (List.mem_append_left _ (he ▸ List.mem_cons_self))
    have hs₁ := hmove.stopsOnly hs hkept fun m steps he =>
      hleft m steps (List.mem_append_left _ (he ▸ List.mem_cons_self))
    obtain ⟨hs', hrest⟩ := ih hs₁ (fun m hm => hletGo m (List.mem_append_right _ hm))
      fun m steps hm => (hleft m steps (List.mem_append_right _ hm)).imp_left fun hconn =>
        (hmove.stays_held hconn hkept).1
    refine ⟨hs', ?_⟩
    rw [List.map_append, List.filter_append, hmove.concerning hs hkept, hrest, concerning_append]

end

/-! ## Requests to stop -/

/-- Whether an entry asks the server to stop what it does on a connection. -/
def Entry.isCancel (conn : ℕ) : Entry → Bool
  | .asked _ (.cancel c) _ => c = conn
  | _ => false

/-- How often a cleanup will still ask the server to stop what it does on a connection. -/
def Cleanup.cancels (conn : ℕ) (c : Cleanup) : ℕ :=
  if c.conn = conn then c.steps.count .cancel else 0

/-- How often cleanups will still ask the server to stop what it does on a connection. -/
def State.cancelsLeft (conn : ℕ) (s : State σ) : ℕ := (s.cleanups.map (·.cancels conn)).sum

/-- How often a deed makes that the server is asked to stop what it does on a connection. -/
def Deed.cancels (conn : ℕ) : Deed → ℕ
  | .asked _ (.cancel c) _ => if c = conn then 1 else 0
  | .left _ c steps => if c = conn then steps.count .cancel else 0
  | _ => 0

def cancelsOf (conn : ℕ) (ds : List Deed) : ℕ := (ds.map (·.cancels conn)).sum

@[simp] theorem cancelsOf_nil (conn : ℕ) : cancelsOf conn [] = 0 := rfl

@[simp] theorem cancelsOf_cons (conn : ℕ) (d : Deed) (ds : List Deed) :
    cancelsOf conn (d :: ds) = d.cancels conn + cancelsOf conn ds := by
  simp [cancelsOf]

@[simp] theorem cancelsOf_append (conn : ℕ) (ds ds' : List Deed) :
    cancelsOf conn (ds ++ ds') = cancelsOf conn ds + cancelsOf conn ds' := by
  simp [cancelsOf]

section
variable {source : Source σ} {s s' : State σ} {deed : Option Deed} {ds : List Deed}
  {entries : List Entry} {conn : ℕ}

/-- What a step asks is a request to stop, or it is not. -/
theorem countP_isCancel_step (m : ℕ) (c : ℕ) (step : CleanupStep) (a : Answer Yield) :
    [Entry.asked m (step.request c) a].countP (·.isCancel conn) =
      if c = conn then [step].count .cancel else 0 := by
  cases step <;> simp [CleanupStep.request, Entry.isCancel, List.countP_cons]

theorem Moves.cancels (h : Moves source s deed entries s') (conn : ℕ) :
    entries.countP (·.isCancel conn) + s'.cancelsLeft conn =
      s.cancelsLeft conn + cancelsOf conn deed.toList := by
  cases h with
  | @starts c step rest _ xs ys hs =>
    rw [countP_isCancel_step]
    simp only [State.cancelsLeft, hs, List.map_append, List.map_cons, List.sum_append,
      List.sum_cons, Cleanup.cancels, Option.toList_none, cancelsOf_nil]
    by_cases hc : c = conn
    · simp only [hc, if_true, List.count_cons, List.count_nil]
      omega
    · simp [hc]
  | answered hs _ => simp [State.cancelsLeft, hs, Cleanup.cancels]
  | ends hs _ | releases hs _ _ =>
    simp [State.cancelsLeft, State.log, hs, Cleanup.cancels, Entry.isCancel]
  | @asks r =>
    cases r with
    | cancel c =>
      simp only [Option.toList_some, cancelsOf_cons, cancelsOf_nil, Deed.cancels, Entry.isCancel,
        List.countP_cons, List.countP_nil, decide_eq_true_eq]
      have hsame : (s.afterRequest source (.cancel c)).cancelsLeft conn = s.cancelsLeft conn := rfl
      rw [hsame]
      omega
    | _ => simp [State.cancelsLeft, State.afterRequest, State.log, Entry.isCancel, Deed.cancels]
  | leaves => simp [State.cancelsLeft, State.spawn, Cleanup.cancels, Deed.cancels]
  | passes _ | notes _ | closes | holds | letsGo _ | frees _ _ =>
    simp [State.cancelsLeft, State.log, State.hold, Entry.isCancel, Deed.cancels]

/-- **A request to stop** is a deed of a call, or is left to a cleanup by one. -/
theorem Passage.cancels (h : Passage source s ds entries s') (conn : ℕ) :
    entries.countP (·.isCancel conn) + s'.cancelsLeft conn =
      s.cancelsLeft conn + cancelsOf conn ds := by
  induction h with
  | refl => simp
  | head hmove _ ih =>
    have hfirst := hmove.cancels conn
    rw [List.countP_append, cancelsOf_append]
    omega

end

/-! ## Cleanups that go on -/

namespace State

variable {source : Source σ} {s : State σ}

@[simp] theorem cleanups_startStep (source : Source σ) (conn : ℕ) (step : CleanupStep) :
    (startStep source conn step s).2.cleanups = s.cleanups := by
  cases step <;> rfl

@[simp] theorem cleanups_endStep (step : CleanupStep) (result : Except Error Unit) :
    (s.endStep step result).cleanups = s.cleanups := by
  unfold endStep
  cases step.trace? result <;> rfl

theorem cleanups_releaseUnless (others : List Cleanup) (conn : ℕ) :
    (s.releaseUnless others conn).cleanups = s.cleanups := by
  unfold releaseUnless
  split <;> rfl

/-- Every cleanup waits for an answer that is yet to come. -/
def Settled (s : State σ) : Prop :=
  ∀ c ∈ s.cleanups, ∃ p, c.pending = some p ∧ ∀ due ∈ p.due, s.now < due

/-- The state with other cleanups. -/
def withCleanups (s : State σ) (cleanups : List Cleanup) : State σ := { s with cleanups }

@[simp] theorem cleanups_withCleanups (cs : List Cleanup) : (s.withCleanups cs).cleanups = cs := rfl

theorem endStep_withCleanups (step : CleanupStep) (result : Except Error Unit)
    (cs : List Cleanup) :
    (s.withCleanups cs).endStep step result = (s.endStep step result).withCleanups cs := by
  unfold endStep
  cases step.trace? result <;> rfl

theorem releaseUnless_withCleanups (others cs : List Cleanup) (conn : ℕ) :
    (s.withCleanups cs).releaseUnless others conn =
      (s.releaseUnless others conn).withCleanups cs := by
  by_cases h : conn ∈ s.held ∨ others.any (·.conn = conn)
  · rw [releaseUnless, releaseUnless, if_pos h]
    exact if_pos h
  · rw [releaseUnless, releaseUnless, if_neg h]
    exact if_neg h

variable (source s) in
/-- A call lets go of a connection in one move. -/
theorem moves_letGo (conn : ℕ) :
    ∃ entries, Moves source s (some (.letGo s.now conn)) entries (s.letGo conn) := by
  unfold letGo releaseUnless
  dsimp only
  split
  · next h => exact ⟨_, .letsGo (by simpa using h)⟩
  · next h =>
    push Not at h
    exact ⟨_, .frees h.1 (by simpa using h.2)⟩

variable (source s) in
theorem idle_endStep (step : CleanupStep) (result : Except Error Unit) :
    Idle source s (s.endStep step result) := by
  unfold endStep
  cases step.trace? result with
  | none => exact .refl s
  | some t => exact .single (.notes rfl)

variable (source) in
/-- A cleanup is over, and its connection may be released with that. -/
theorem idle_ends (conn : ℕ) (xs ys : List Cleanup) :
    Idle source (s.withCleanups (xs ++ ⟨conn, none, []⟩ :: ys))
      ((s.releaseUnless (xs ++ ys) conn).withCleanups (xs ++ ys)) := by
  unfold releaseUnless
  split
  · next h => exact .single (.ends rfl (h.imp id fun hany => by simpa [-List.any_append] using hany))
  · next h =>
    rw [not_or] at h
    exact .single (.releases rfl h.1 (by simpa [-List.any_append] using h.2))

@[simp] theorem now_endStep (step : CleanupStep) (result : Except Error Unit) :
    (s.endStep step result).now = s.now := by
  unfold endStep
  cases step.trace? result <;> rfl

@[simp] theorem now_releaseUnless (others : List Cleanup) (conn : ℕ) :
    (s.releaseUnless others conn).now = s.now := by
  unfold releaseUnless
  split <;> rfl

variable (source s) in
/-- The request of a step is made as every other. -/
theorem startStep_eq (conn : ℕ) (step : CleanupStep) :
    (startStep source conn step s).2 = s.afterRequest source (step.request conn) ∧
      (startStep source conn step s).1.wait = (s.answerTo source (step.request conn)).wait := by
  cases step <;> exact ⟨rfl, rfl⟩

variable (source) in
/-- Steps are gone through as far as possible. -/
theorem idle_runSteps (conn : ℕ) (steps : List CleanupStep) (s : State σ) (xs ys : List Cleanup) :
    Idle source (s.withCleanups (xs ++ ⟨conn, none, steps⟩ :: ys))
        ((runSteps source conn steps s).1.withCleanups
          (xs ++ (runSteps source conn steps s).2.getD ⟨conn, none, []⟩ :: ys)) ∧
      (runSteps source conn steps s).1.now = s.now ∧
      (∀ c ∈ (runSteps source conn steps s).2, c.conn = conn ∧
        ∃ p, c.pending = some p ∧ ∀ due ∈ p.due, s.now < due) := by
  induction steps generalizing s with
  | nil => exact ⟨.refl _, rfl, fun c hc => nomatch hc⟩
  | cons step rest ih =>
    obtain ⟨hstate, hwait⟩ := startStep_eq source s conn step
    rw [runSteps]
    generalize startStep source conn step s = started at hstate hwait
    obtain ⟨answer, s₁⟩ := started
    obtain rfl : s₁ = s.afterRequest source (step.request conn) := hstate
    dsimp only at hwait ⊢
    have hstart : Idle source (s.withCleanups (xs ++ ⟨conn, none, step :: rest⟩ :: ys))
        ((s.afterRequest source (step.request conn)).withCleanups
          (xs ++ ⟨conn, some ⟨step, answer.wait.map (s.now + ·), answer.result⟩, rest⟩ :: ys)) := by
      rw [hwait]
      exact .single (.starts rfl)
    split
    · next hnow =>
      obtain ⟨hidle, hsame, hleft⟩ :=
        ih ((s.afterRequest source (step.request conn)).endStep step answer.result)
      have hhear : Idle source
          ((s.afterRequest source (step.request conn)).withCleanups
            (xs ++ ⟨conn, some ⟨step, answer.wait.map (s.now + ·), answer.result⟩, rest⟩ :: ys))
          ((s.afterRequest source (step.request conn)).withCleanups
            (xs ++ ⟨conn, none, rest⟩ :: ys)) := by
        refine .single (.answered rfl ?_)
        rw [hnow]
        exact decide_eq_true (Nat.le_refl _)
      have hend := idle_endStep source ((s.afterRequest source (step.request conn)).withCleanups
        (xs ++ ⟨conn, none, rest⟩ :: ys)) step answer.result
      rw [endStep_withCleanups] at hend
      rw [now_endStep] at hsame hleft
      exact ⟨((hstart.trans hhear).trans hend).trans hidle, hsame, hleft⟩
    · next hnow =>
      refine ⟨hstart, rfl, fun c hc => ?_⟩
      cases hc
      refine ⟨rfl, _, rfl, fun due hdue => ?_⟩
      obtain ⟨w, hw, rfl⟩ := Option.map_eq_some_iff.1 (Option.mem_def.1 hdue)
      have hpos : 0 < w := Nat.pos_of_ne_zero fun h0 => hnow (h0 ▸ hw)
      exact Nat.lt_add_of_pos_right hpos

theorem cleanups_runSteps (conn : ℕ) (steps : List CleanupStep) (s : State σ) :
    (runSteps source conn steps s).1.cleanups = s.cleanups := by
  induction steps generalizing s with
  | nil => rfl
  | cons step rest ih =>
    rw [runSteps]
    dsimp only
    split
    · rw [ih, cleanups_endStep, cleanups_startStep]
    · exact cleanups_startStep source conn step

variable (source) in
theorem idle_runCleanup (c : Cleanup) (s : State σ) (xs ys : List Cleanup) :
    Idle source (s.withCleanups (xs ++ c :: ys))
        ((runCleanup source c s).1.withCleanups
          (xs ++ (runCleanup source c s).2.getD ⟨c.conn, none, []⟩ :: ys)) ∧
      (runCleanup source c s).1.now = s.now ∧
      (∀ left ∈ (runCleanup source c s).2,
        ∃ p, left.pending = some p ∧ ∀ due ∈ p.due, s.now < due) := by
  obtain ⟨conn, pending, steps⟩ := c
  cases pending with
  | none =>
    obtain ⟨hidle, hsame, hleft⟩ := idle_runSteps source conn steps s xs ys
    exact ⟨hidle, hsame, fun left hmem => (hleft left hmem).2⟩
  | some p =>
    unfold runCleanup
    dsimp only
    split
    · next hdue =>
      obtain ⟨hidle, hsame, hleft⟩ :=
        idle_runSteps source conn steps (s.endStep p.step p.result) xs ys
      have hhear : Idle source (s.withCleanups (xs ++ ⟨conn, some p, steps⟩ :: ys))
          (s.withCleanups (xs ++ ⟨conn, none, steps⟩ :: ys)) := .single (.answered rfl hdue)
      have hend := idle_endStep source (s.withCleanups (xs ++ ⟨conn, none, steps⟩ :: ys)) p.step
        p.result
      rw [endStep_withCleanups] at hend
      rw [now_endStep] at hsame hleft
      exact ⟨(hhear.trans hend).trans hidle, hsame, fun left hmem => (hleft left hmem).2⟩
    · next hdue =>
      refine ⟨.refl _, rfl, fun left hmem => ?_⟩
      cases hmem
      refine ⟨p, rfl, fun due hmem => ?_⟩
      rw [Option.mem_def.1 hmem] at hdue
      simpa using hdue

variable (source) in
theorem cleanups_runCleanup (c : Cleanup) (s : State σ) :
    (runCleanup source c s).1.cleanups = s.cleanups := by
  unfold runCleanup
  split
  · exact cleanups_runSteps _ _ _
  · split
    · rw [cleanups_runSteps, cleanups_endStep]
    · rfl

theorem idle_settleAll (pending : List Cleanup) (s : State σ)
    (hs : ∀ c ∈ s.cleanups, ∃ p, c.pending = some p ∧ ∀ due ∈ p.due, s.now < due) :
    Idle source (s.withCleanups (s.cleanups ++ pending)) (settleAll source pending s) ∧
      (settleAll source pending s).now = s.now ∧ (settleAll source pending s).Settled := by
  induction pending generalizing s with
  | nil =>
    rw [List.append_nil]
    exact ⟨.refl s, rfl, hs⟩
  | cons c rest ih =>
    obtain ⟨hidle, hsame, hleft⟩ := idle_runCleanup source c s s.cleanups rest
    have hcleanups := cleanups_runCleanup source c s
    rw [settleAll]
    generalize runCleanup source c s = ran at hidle hsame hleft hcleanups
    obtain ⟨s₁, left⟩ := ran
    dsimp only at hidle hsame hleft hcleanups
    cases left with
    | none =>
      have hends := idle_ends source (s := s₁) c.conn s₁.cleanups rest
      have hsame' : (s₁.releaseUnless (s₁.cleanups ++ rest) c.conn).cleanups = s₁.cleanups :=
        cleanups_releaseUnless _ _
      obtain ⟨hrest, hnow, hsettled⟩ := ih (s₁.releaseUnless (s₁.cleanups ++ rest) c.conn) (by
        rw [hsame', hcleanups, now_releaseUnless, hsame]
        exact hs)
      rw [hsame'] at hrest
      rw [now_releaseUnless, hsame] at hnow
      rw [hcleanups] at hends
      exact ⟨(hidle.trans hends).trans (hcleanups ▸ hrest), hnow, hsettled⟩
    | some c' =>
      obtain ⟨hrest, hnow, hsettled⟩ := ih { s₁ with cleanups := s₁.cleanups ++ [c'] } (by
        intro d hd
        rcases List.mem_append.1 hd with hd | hd
        · rw [hcleanups] at hd
          dsimp only
          rw [hsame]
          exact hs d hd
        · rw [List.mem_singleton.1 hd]
          dsimp only
          rw [hsame]
          exact hleft c' rfl)
      have hmove : s₁.withCleanups (s.cleanups ++ c' :: rest) =
          ({ s₁ with cleanups := s₁.cleanups ++ [c'] } : State σ).withCleanups
            (s₁.cleanups ++ [c'] ++ rest) := by
        rw [hcleanups, List.append_assoc, List.singleton_append]
        rfl
      refine ⟨hidle.trans ?_, hnow.trans hsame, hsettled⟩
      rw [Option.getD_some, hmove]
      exact hrest

variable (source s) in
/-- **Cleanups go on** without deeds, until all of them wait. -/
theorem idle_settle :
    Idle source s (settle source s) ∧ (settle source s).now = s.now ∧
      (settle source s).Settled := by
  have hnone : ∀ c ∈ ({ s with cleanups := [] } : State σ).cleanups,
      ∃ p, c.pending = some p ∧ ∀ due ∈ p.due, s.now < due := List.forall_mem_nil _
  exact idle_settleAll s.cleanups { s with cleanups := [] } hnone

variable (source s) in
/-- **Time passes** without deeds. -/
theorem idle_advance (t : ℕ) :
    Idle source s (advance source t s) ∧ (advance source t s).now = max s.now t := by
  have hwithin : ∀ fuel (s : State σ), Idle source s (advanceWithin source t fuel s) ∧
      (advanceWithin source t fuel s).now = max s.now t := by
    intro fuel
    induction fuel with
    | zero => exact fun s => ⟨.single (.passes (Nat.le_max_left _ _)), rfl⟩
    | succ fuel ih =>
      intro s
      rw [advanceWithin]
      split
      · exact ⟨.single (.passes (Nat.le_max_left _ _)), rfl⟩
      · next due hdue =>
        have hbefore : due < t := by simpa using (List.mem_filter.1 (List.min?_mem hdue)).2
        have hpass : Idle source s { s with now := max s.now due } :=
          .single (.passes (Nat.le_max_left _ _))
        obtain ⟨hsettle, hnow, -⟩ := idle_settle source { s with now := max s.now due }
        obtain ⟨hrest, hend⟩ := ih (settle source { s with now := max s.now due })
        refine ⟨(hpass.trans hsettle).trans hrest, ?_⟩
        rw [hend, hnow]
        dsimp only
        omega
  exact hwithin _ s

end State

end QueryClient.Session
