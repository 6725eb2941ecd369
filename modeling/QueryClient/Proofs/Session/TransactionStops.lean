/-
  Requests to stop on the connection of a transaction.

  A call that stops what the server does waits until that has stopped.  A stream that is given up
  before its end leaves that to a cleanup, which goes on beside the calls that follow.

  * `Proceeds`: the states that calls lead to in the course of a callback;
  * `detached_cancels`: a call in a transaction leaves as many requests to stop to cleanups as it
    gives up streams, and there is no cleanup on the connection before it has given up one.
-/
import QueryClient.Proofs.Session.Bracket

namespace QueryClient.Session

open Run

variable {σ α : Type}

/-! ## The course of a callback -/

/-- What a deed stops. -/
def Deed.stop? : Deed → Option Inquiry
  | .asked m (.cancel conn) a => some ⟨m, .cancel conn, a⟩
  | _ => none

theorem Concludes.cancels {conn m m' : ℕ} {script : List Request} {halt? : Option Halt}
    {ds : List Deed} (h : Concludes conn script m halt? ds m') :
    cancelsOf conn ds = (ds.filterMap Deed.stop?).length := by
  have hasks := h.asks
  clear h
  induction ds with
  | nil => rfl
  | cons d ds ih =>
    have hrest := ih fun d' hd' => hasks d' (List.mem_cons_of_mem _ hd')
    obtain ⟨m₁, r, a, rfl, hr⟩ := hasks d List.mem_cons_self
    rw [cancelsOf_cons, hrest]
    cases r with
    | cancel conn' =>
      obtain rfl : conn' = conn := hr
      have hstop : Deed.stop? (.asked m₁ (.cancel conn') a) = some ⟨m₁, .cancel conn', a⟩ := rfl
      have hcount : Deed.cancels conn' (.asked m₁ (.cancel conn') a) = 1 := if_pos rfl
      rw [List.filterMap_cons_some hstop, List.length_cons, hcount, Nat.add_comm]
    | acquire =>
      have hstop : Deed.stop? (.asked m₁ .acquire a) = none := rfl
      rw [List.filterMap_cons_none hstop]
      exact Nat.zero_add _
    | statement kind conn' sql values =>
      have hstop : Deed.stop? (.asked m₁ (.statement kind conn' sql values) a) = none := rfl
      rw [List.filterMap_cons_none hstop]
      exact Nat.zero_add _

/-- The states that calls lead to in the course of a callback, the streams that there are then, and
how many of them have been given up before their end. -/
inductive Proceeds (env : Env σ) (c : Client) (s : State σ) :
    ℕ → State σ → List RowStream → Prop
  | start : Proceeds env c s 0 s []
  | answered {n s₁ streams s₂ streams' reply} {call : Call σ} : Proceeds env c s n s₁ streams →
    (call.answer c streams).exec env s₁ = (.ok (reply, streams'), s₂) →
    Proceeds env c s (n + if call.forsakes streams reply s₂.now then 1 else 0) s₂ streams'

section
variable {env : Env σ} {c : Client} {conn n : ℕ} {s s₁ s₂ : State σ}
  {streams streams' : List RowStream} {reply : Reply} {call : Call σ}

/-- A call that comes by a connection leaves nothing to cleanups. -/
theorem Connecting.left_notMem {abort : Option ℕ} {m m' : ℕ} {o : Except Halt ℕ} {ds : List Deed}
    (h : Connecting c abort m o ds m') (m₁ conn : ℕ) (steps : List CleanupStep) :
    .left m₁ conn steps ∉ ds := by
  have hraced : ∀ {o m' ds}, Raced abort (fun a ds => ds = [.asked m .acquire a]) m o ds m' →
      .left m₁ conn steps ∉ ds := by
    intro o m' ds hraced hmem
    obtain ⟨-, rfl | ⟨a, rfl⟩⟩ := hraced.asked_once
    · cases hmem
    · cases List.mem_singleton.1 hmem
  cases h with
  | shared _ _ | refusedShared _ _ _ => exact List.not_mem_nil
  | acquired _ h =>
    intro hmem
    rcases List.mem_append.1 hmem with hmem | hmem
    · exact hraced h hmem
    · cases List.mem_singleton.1 hmem
  | refused _ h | stopped _ h | givenUp _ h => exact hraced h

/-- No cleanup is under way on the connection of a transaction that has just begun. -/
theorem Opened.undisturbed (h : Opened env s (s.connections + 1) s₁) (hs : s.Sound) :
    s₁.Undisturbed (s.connections + 1) := by
  obtain ⟨s₀, hacquire, hbegin⟩ := h
  have hacquires : Acts env s.now (Client.connection {} none) (Connecting {} none s.now) :=
    Client.acts_connection
  change Acts env s.now (acquire none) _ at hacquires
  obtain ⟨ds, _, hpassage, hconnecting⟩ := hacquires.passes s rfl
  rw [hacquire] at hpassage hconnecting
  have hacquired : s₀.Undisturbed (s.connections + 1) :=
    hpassage.undisturbed hs.undisturbed fun m steps =>
      hconnecting.left_notMem m (s.connections + 1) steps
  have hbegins : Acts env s₀.now (begin (s.connections + 1) : Run σ Unit) fun _ ds _ =>
      ∃ a, ds = [.asked s₀.now (.statement .batch (s.connections + 1) "BEGIN" []) a] := by
    refine (acts_batch "BEGIN").bind (fun _ ds m₁ h => ?_) fun _ _ _ ⟨_, _, h⟩ => ⟨_, h⟩
    obtain ⟨_, -, rfl⟩ := h
    refine (acts_trace _).mono fun o ds' m' h => ?_
    obtain ⟨-, rfl, -⟩ := h
    exact ⟨_, rfl⟩
  obtain ⟨_, _, hpassage', _, rfl⟩ := hbegins.passes s₀ rfl
  rw [hbegin] at hpassage'
  refine hpassage'.undisturbed hacquired fun m steps hmem => ?_
  cases List.mem_singleton.1 hmem

theorem Call.exec_answer (hc : c.transaction = some conn)
    (hstreams : ∀ s ∈ streams, s.lease = c.lease conn true)
    (h : (call.answer c streams).exec env s = (.ok (reply, streams'), s₁)) :
    ∃ ds entries, Passage env.source s ds entries s₁ ∧
      call.AnsweredInside c conn streams s.now reply streams' ds s₁.now := by
  have hin : call.isTransaction → c.inTransaction := fun _ => by simp [Client.inTransaction, hc]
  have hacts : Acts env s.now (call.answer c streams) (call.Answering c streams s.now) :=
    Call.acts_answer hin
  obtain ⟨ds, entries, hpassage, hanswering⟩ := hacts.passes s rfl
  rw [h] at hpassage hanswering
  exact ⟨ds, entries, hpassage, Call.answeredInside hc hstreams hanswering⟩

theorem SendsScript.undisturbed {m m' : ℕ} {script : List Request} {halt? : Option Halt}
    {ds : List Deed} {entries : List Entry} {source : Source σ}
    (h : SendsScript conn script m halt? false ds m') (hpassage : Passage source s ds entries s₁)
    (hs : s.Undisturbed conn) : s₁.Undisturbed conn := by
  obtain ⟨front, hconcludes, rfl⟩ := h
  refine hpassage.undisturbed hs fun m₁ steps hmem => ?_
  rw [if_neg Bool.false_ne_true, List.append_nil] at hmem
  obtain ⟨_, _, _, he, _⟩ := hconcludes.asks _ hmem
  cases he

/-- **As long as no stream was given up** before its end, no cleanup is under way on the
connection. -/
theorem Proceeds.undisturbed (hc : c.transaction = some conn) (hs : s.Undisturbed conn)
    (h : Proceeds env c s n s₁ streams) :
    (∀ s ∈ streams, s.lease = c.lease conn true) ∧ (n = 0 → s₁.Undisturbed conn) := by
  induction h with
  | start => exact ⟨List.forall_mem_nil _, fun _ => hs⟩
  | @answered n s₁ streams s₂ streams' reply call _ hanswer ih =>
    obtain ⟨hstreams, hundisturbed⟩ := ih
    obtain ⟨ds, entries, hpassage, ⟨halt?, hscripted, -⟩, -, hleases⟩ :=
      Call.exec_answer hc hstreams hanswer
    refine ⟨hleases, fun hn => ?_⟩
    cases hforsakes : call.forsakes streams reply s₂.now
    · rw [hforsakes] at hscripted
      exact hscripted.undisturbed hpassage (hundisturbed (by omega))
    · simp [hforsakes] at hn

/-- **A call in a transaction** waits for what it stops itself, and as long as no stream is given up
before its end nothing else is stopped on the connection.  A call that gives up a stream leaves one
more request to stop to a cleanup, which goes on beside the calls that follow. -/
theorem detached_cancels (hs : s.Sound) (hopened : Opened env s (s.connections + 1) s₁)
    (hcalls : Proceeds env (c.inside (s.connections + 1)) s₁ n s₂ streams) {s₃ : State σ}
    (h : (call.answer (c.inside (s.connections + 1)) streams).exec env s₂ =
      (.ok (reply, streams'), s₃)) :
    (n = 0 → s₂.Undisturbed (s.connections + 1)) ∧
    ∃ (entries : List Entry) (own : List Inquiry), Chronicles env.source s₂ entries s₃ ∧
      (∀ i ∈ own, i.request = .cancel (s.connections + 1) ∧
        .asked i.moment i.request i.answer ∈ entries ∧
        (i.AnsweredBy s₃.now ∨ reply.isGivenUp)) ∧
      entries.countP (·.isCancel (s.connections + 1)) + s₃.cancelsLeft (s.connections + 1) =
        s₂.cancelsLeft (s.connections + 1) + own.length +
          if call.forsakes streams reply s₃.now then 1 else 0 := by
  have hc : (c.inside (s.connections + 1)).transaction = some (s.connections + 1) := rfl
  obtain ⟨hstreams, hundisturbed⟩ := hcalls.undisturbed hc (hopened.undisturbed hs)
  obtain ⟨ds, entries, hpassage, ⟨halt?, ⟨front, hconcludes, rfl⟩, hgiven⟩, -, -⟩ :=
    Call.exec_answer hc hstreams h
  refine ⟨hundisturbed, entries, front.filterMap Deed.stop?, hpassage.chronicles,
    fun i hi => ?_, ?_⟩
  · obtain ⟨d, hd, hstop⟩ := List.mem_filterMap.1 hi
    obtain ⟨m, r, a, rfl, hr⟩ := hconcludes.asks d hd
    cases r with
    | cancel conn =>
      obtain rfl : conn = s.connections + 1 := hr
      obtain rfl := Option.some.inj hstop
      refine ⟨rfl, hpassage.entry_mem (List.mem_append_left _ hd) rfl, ?_⟩
      exact hconcludes.stopped.symm.imp (fun hstopped => hstopped m a hd) hgiven
    | acquire | statement => cases hstop
  · rw [hpassage.cancels, cancelsOf_append, hconcludes.cancels]
    cases call.forsakes streams reply s₃.now
    · rfl
    · have hleft : cancelsOf (s.connections + 1)
          [Deed.left s₃.now (s.connections + 1) [.cancel]] = 1 := by
        simp [Deed.cancels]
      rw [if_pos rfl, if_pos rfl, hleft, Nat.add_assoc]

end

/-- Two rows can be streamed, and a query takes a while. -/
def flowing : Script where
  streams := [.now (.ok [.now (.ok []), .now (.ok [])])]
  queries := [⟨some 5, .ok []⟩]

theorem detached_cancels_of_flowing : ∃ s₁ s₂ s₃ streams streams' reply,
    Opened ⟨Script.source, []⟩ { source := flowing } 1 s₁ ∧
      Proceeds ⟨Script.source, []⟩ (Client.inside {} 1) s₁ 0 s₂ streams ∧
      (Call.answer (Client.inside {} 1) streams (.dropStream 0)).exec ⟨Script.source, []⟩ s₂ =
        (.ok (reply, streams'), s₃) ∧
      (0 = 0 → s₂.Undisturbed 1) ∧
      ∃ (entries : List Entry) (own : List Inquiry), Chronicles Script.source s₂ entries s₃ ∧
        (∀ i ∈ own, i.request = .cancel 1 ∧ .asked i.moment i.request i.answer ∈ entries ∧
          (i.AnsweredBy s₃.now ∨ reply.isGivenUp)) ∧
        entries.countP (·.isCancel 1) + s₃.cancelsLeft 1 = s₂.cancelsLeft 1 + own.length + 1 := by
  have hsound : State.Sound ({ source := flowing } : State Script) := fun _ hc => nomatch hc
  have hselected : ∃ s₁ s₂ stream, Opened ⟨Script.source, []⟩ { source := flowing } 1 s₁ ∧
      (Call.answer (Client.inside {} 1) [] (.stream allUsers none none)).exec
        ⟨Script.source, []⟩ s₁ = (.ok (.opened 0, [stream]), s₂) ∧ stream.done = false :=
    ⟨_, _, _, ⟨_, rfl, rfl⟩, rfl, rfl⟩
  obtain ⟨s₁, s₂, stream, hopened, hselected, hundone⟩ := hselected
  have hproceeds := Proceeds.answered .start hselected
  have hacts : Acts ⟨Script.source, []⟩ s₂.now
      (Call.answer (Client.inside {} 1) [stream] (.dropStream 0)) _ :=
    Call.acts_answer Bool.noConfusion
  obtain ⟨_, _, -, hanswering⟩ := hacts.passes s₂ rfl
  have hdone : ∀ {o ds m'}, (Call.dropStream 0 : Call Script).Answering (Client.inside {} 1) [stream]
      s₂.now o ds m' → ∃ streams', o = .ok (.done, streams') := by
    intro o ds m' h
    cases h with
    | absent hi => cases hi
    | present _ h => exact ⟨_, h.1⟩
  obtain ⟨streams', ho⟩ := hdone hanswering
  obtain ⟨s₃, hdropped⟩ : ∃ s₃, (Call.answer (Client.inside {} 1) [stream] (.dropStream 0)).exec
      ⟨Script.source, []⟩ s₂ = (.ok (.done, streams'), s₃) := ⟨_, Prod.ext ho rfl⟩
  obtain ⟨hundisturbed, entries, own, hchronicles, hown, hcount⟩ :=
    detached_cancels hsound hopened hproceeds hdropped
  have hforsakes : Call.forsakes [stream] .done s₃.now (.dropStream 0 : Call Script) = true := by
    simp [Call.forsakes, hundone]
  rw [hforsakes] at hcount
  exact ⟨s₁, s₂, s₃, [stream], streams', .done, hopened, hproceeds, hdropped, hundisturbed, entries,
    own, hchronicles, hown, hcount⟩

/-- A stream that is dropped in the course of a transaction, and a query after it. -/
def heedless : Work σ Unit :=
  .ask (.stream allUsers none none) fun _ => .ask (.dropStream 0) fun _ =>
    .ask (.execute { schema := "public", table := "orders" } none none) fun _ => .done ()

/-- The server is asked to stop while it executes a query that nobody aborts or gives up. -/
theorem stopped_beside :
    ((Client.transact {} (Work.callback (.ok heedless))).exec ⟨Script.source, []⟩
      { source := flowing }).2.history.filterMap (Event.text? 1) =
        ["BEGIN", "SELECT * FROM \"public\".\"users\"", "SELECT * FROM \"public\".\"orders\"",
          "stop", "COMMIT"] := by
  decide +kernel

end QueryClient.Session
