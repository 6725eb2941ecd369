/-
  What calls do, one after the other.

  * `Patient`: what comes of a run for which the patience may run out;
  * `Call.Answering`: how a call is answered, with some streams open, and its deeds;
  * `Call.acts_answer`: this is what calls do.
-/
import QueryClient.Proofs.Session.Work
import QueryClient.Proofs.Session.Streams

namespace QueryClient.Session

open Run

variable {σ α β : Type}

/-- What comes of a run, as something else. -/
def Mapped (f : α → β) (B : Account α) : Account β := fun o ds m' =>
  ∃ o', B o' ds m' ∧ o = o'.map f

/-- What comes of a run whose caller may give it up when the patience for it runs out. -/
inductive Patient (B : Account α) : Account (Option α)
  | ended {a ds m'} : B (.ok a) ds m' → Patient B (.ok (some a)) ds m'
  | givenUp {level ds m'} : B (.error (.dropped level)) ds m' → Patient B (.ok none) ds m'
  | halted {halt ds m'} : B (.error halt) ds m' → Patient B (.error halt) ds m'

/-- What comes of a call on one of the streams; if there is none, that is the end of it. -/
inductive OnStream (streams : List RowStream) (i : ℕ) (m : ℕ) (absent : Reply)
    (B : RowStream → Account (Reply × List RowStream)) : Account (Reply × List RowStream)
  | absent : streams[i]? = none → OnStream streams i m absent B (.ok (absent, streams)) [] m
  | present {s o ds m'} : streams[i]? = some s → B s o ds m' → OnStream streams i m absent B o ds m'

/-- The source is closed, unless the client belongs to a transaction. -/
def Client.closes (c : Client) (m : ℕ) : List Deed := if c.inTransaction then [] else [.closed m]

/-- The deeds of some streams that are dropped. -/
def dropsAll (streams : List RowStream) (m : ℕ) : List Deed := streams.flatMap (·.drops m)

namespace Call

/-- How a call is answered. -/
def Answering (c : Client) (streams : List RowStream) (m : ℕ) :
    Call σ → Account (Reply × List RowStream)
  | .execute q abort _ =>
    Mapped (fun | some r => (.response r, streams) | none => (.givenUp, streams))
      (Patient (Executing c q (abort.map (m + ·)) m))
  | .stream q abort _ =>
    Mapped (fun
        | some (.ok s) => (.opened streams.length, streams ++ [s])
        | some (.error e) => (.refused e, streams)
        | none => (.givenUp, streams))
      (Patient (Tried (Selecting c q (abort.map (m + ·)) m)))
  | .next i _ => OnStream streams i m (.item .ended) fun s =>
    Mapped (fun (item, s) => (.item item, streams.set i s)) (s.Awaiting m)
  | .abortStream i => fun o ds m' =>
    o = .ok (.done, streams.modify i fun s => { s with abort := some m }) ∧ ds = [] ∧ m' = m
  | .closeStream i _ => OnStream streams i m .done fun s =>
    Mapped (fun closed => (if closed.isSome then .done else .givenUp, streams.modify i finished))
      (Patient (s.Closing m))
  | .dropStream i => OnStream streams i m .done fun s o ds m' =>
    o = .ok (.done, streams.modify i finished) ∧ ds = s.drops m ∧ m' = m
  | .close => fun o ds m' => o = .ok (.done, streams) ∧ ds = c.closes m ∧ m' = m
  | .transact _ => fun o ds m' =>
    o = .ok (.response (.err (.validation "nested transactions are not supported")), streams) ∧
      ds = [] ∧ m' = m
  | .wait time => Mapped (fun _ => (.done, streams)) (Waits time m)

end Call

section
variable {env : Env σ} {m : ℕ}

/-- A run whose value is turned into another one. -/
theorem acts_mapped {r : Run σ α} {B : Account α} (h : Acts env m r B) (f : α → β) :
    Acts env m (r >>= fun a => pure (f a)) (Mapped f B) := by
  refine h.bind (fun a ds m₁ h => .pure ?_) fun halt ds m' h => ⟨_, h, rfl⟩
  rw [List.append_nil]
  exact ⟨_, h, rfl⟩

theorem acts_patiently {r : Run σ α} {B : Account α} (h : ∀ env : Env σ, Acts env m r B)
    (patience : Option ℕ) : Acts env m (patiently patience r) (Patient B) := by
  cases patience with
  | none =>
    refine (h env).bind (fun a ds m₁ h => .pure ?_) fun halt ds m' h => .halted h
    rw [List.append_nil]
    exact .ended h
  | some time =>
    exact Acts.within (fun deadlines => h ⟨env.source, deadlines⟩) (fun _ _ _ => .ended)
      (fun _ _ _ => .givenUp) fun _ _ _ => .halted

theorem acts_dropAll (streams : List RowStream) :
    Acts env m (streams.forM RowStream.drop : Run σ Unit) fun o ds m' =>
      o = .ok () ∧ ds = dropsAll streams m ∧ m' = m := by
  induction streams with
  | nil => exact .pure ⟨rfl, rfl, rfl⟩
  | cons s rest ih =>
    refine RowStream.acts_drop.bind (fun _ ds m₁ h => ?_) fun _ _ _ h => nomatch h.1
    obtain ⟨-, rfl, rfl⟩ := h
    refine ih.mono fun o ds' m' h => ?_
    obtain ⟨rfl, rfl, rfl⟩ := h
    exact ⟨rfl, rfl, rfl⟩

variable {c : Client} {streams : List RowStream}

theorem Client.acts_close : Acts env m (c.close : Run σ Unit) fun o ds m' =>
    o = .ok () ∧ ds = c.closes m ∧ m' = m := by
  unfold close closes
  cases c.inTransaction
  · refine ⟨?_, fun _ _ _ ho => nomatch ho⟩
    rintro s rfl
    refine ⟨_, _, .single .closes, ⟨rfl, rfl, rfl⟩, fun B halike => ?_⟩
    have hclose : B.close = env.source.close := (halike.closed List.mem_cons_self).symm
    exact congrArg (fun close : σ → σ => ((.ok () : Except Halt Unit),
      { s.log .closed with source := close s.source })) hclose
  · exact .pure ⟨rfl, rfl, rfl⟩

/-- A transaction in a transaction is refused. -/
theorem Client.acts_nested (hc : c.inTransaction) (callback : Callback σ α) :
    Acts env m (c.transact callback) fun o ds m' =>
      o = .ok (.err (.validation "nested transactions are not supported")) ∧ ds = [] ∧ m' = m := by
  unfold transact
  rw [if_pos hc]
  exact acts_refuse _ _ _

theorem acts_onStream {i : ℕ} {absent : Reply} {f : RowStream → Run σ (Reply × List RowStream)}
    {B : RowStream → Account (Reply × List RowStream)} (h : ∀ s, Acts env m (f s) (B s)) :
    Acts env m (match streams[i]? with
      | none => pure (absent, streams)
      | some s => f s) (OnStream streams i m absent B) := by
  cases hi : streams[i]? with
  | none => exact .pure (.absent hi)
  | some s => exact (h s).mono fun _ _ _ => .present hi

/-- **What calls do.** -/
theorem Call.acts_answer {call : Call σ} (hcall : call.isTransaction → c.inTransaction) :
    Acts env m (call.answer c streams) (call.Answering c streams m) := by
  cases call with
  | execute q abort patience =>
    refine .now_bind ?_
    have hcall : Acts env m (patiently patience (c.execute q (abort.map (m + ·))))
        (Patient (Executing c q (abort.map (m + ·)) m)) :=
      acts_patiently (fun _ => Client.acts_execute q) patience
    refine hcall.bind (fun r ds m₁ h => ?_) fun halt ds m' h => ⟨_, h, rfl⟩
    rw [← List.append_nil ds] at h
    cases r with
    | none => exact .pure ⟨.ok none, h, rfl⟩
    | some r => exact .pure ⟨.ok (some r), h, rfl⟩
  | stream q abort patience =>
    refine .now_bind ?_
    have hcall : Acts env m (patiently patience (Run.attempt (c.stream q (abort.map (m + ·)))))
        (Patient (Tried (Selecting c q (abort.map (m + ·)) m))) :=
      acts_patiently (fun _ => (Client.acts_stream q _).attempt) patience
    refine hcall.bind (fun r ds m₁ h => ?_) fun halt ds m' h => ⟨_, h, rfl⟩
    rw [← List.append_nil ds] at h
    rcases r with _ | e | s
    · exact .pure ⟨.ok none, h, rfl⟩
    · exact .pure ⟨.ok (some (.error e)), h, rfl⟩
    · exact .pure ⟨.ok (some (.ok s)), h, rfl⟩
  | next i patience => exact acts_onStream fun s => acts_mapped (RowStream.acts_next patience) _
  | abortStream i => exact .now_bind (.pure ⟨rfl, rfl, rfl⟩)
  | closeStream i patience =>
    exact acts_onStream fun s =>
      acts_mapped (acts_patiently (fun _ => RowStream.acts_close) patience) _
  | dropStream i =>
    refine acts_onStream fun s => RowStream.acts_drop.bind (fun _ ds m₁ h => .pure ?_)
      fun _ _ _ h => nomatch h.1
    obtain ⟨-, rfl, rfl⟩ := h
    exact ⟨rfl, List.append_nil _, rfl⟩
  | close =>
    refine Client.acts_close.bind (fun _ ds m₁ h => .pure ?_) fun _ _ _ h => nomatch h.1
    obtain ⟨-, rfl, rfl⟩ := h
    exact ⟨rfl, List.append_nil _, rfl⟩
  | transact callback =>
    refine (Client.acts_nested (hcall rfl) callback).bind (fun r ds m₁ h => .pure ?_)
      fun _ _ _ h => nomatch h.1
    obtain ⟨he, rfl, rfl⟩ := h
    cases he
    exact ⟨rfl, rfl, rfl⟩
  | wait time => exact acts_mapped (acts_wait time) _

end

end QueryClient.Session
