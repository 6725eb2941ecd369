/-
  What calls do in a transaction.

  A call of a transaction sends the first statements of its script on the connection, one after the
  other, and waits for what it stops there.  A stream that is given up before its end leaves it to a
  cleanup to stop that.

  * `Concludes`: what a call asks for itself, and that it waits for what it stops;
  * `Call.forsakes`: whether a call gives up a stream before its end;
  * `Call.AnsweredInside`: what a call of a transaction does and replies;
    `Call.answeredInside_execute` and so on: this is what each of them does;
  * `Work.acts_perform`: the run of some work performs it.
-/
import QueryClient.Proofs.Session.Calling

namespace QueryClient.Session

open Run

variable {σ α β : Type}

/-! ## Runs that are halted -/

/-- A halt that is no failure. -/
def Halt.unfailed? : Halt → Option Halt
  | .failed _ => none
  | halt => some halt

/-- Why a run was halted that has come neither to a value nor to an error. -/
def halted? : Except Halt α → Option Halt
  | .ok _ => none
  | .error halt => halt.unfailed?

theorem halted?_mapError (o : Except Error α) : halted? (o.mapError Halt.failed) = none := by
  cases o <;> rfl

theorem Halt.unfailed?_of_ne {halt : Halt} (h : ∀ e, halt ≠ .failed e) :
    halt.unfailed? = some halt := by
  cases halt with
  | failed e => exact absurd rfl (h e)
  | _ => rfl

theorem Halt.unfailed?_of_givenUp {halt : Halt} (h : halt.givenUp) :
    halt.unfailed? = some halt := by
  refine unfailed?_of_ne ?_
  rintro e rfl
  cases h

theorem Halt.mem_unfailed? {halt : Halt} (h : halt.givenUp) :
    ∀ halt' ∈ halt.unfailed?, halt'.givenUp := by
  rw [unfailed?_of_givenUp h]
  rintro _ ⟨⟩
  exact h

theorem halted?_map (o : Except Halt α) (f : α → β) : halted? (o.map f) = halted? o := by
  cases o <;> rfl

/-! ## What calls ask for -/

/-- Whether a request is made on a connection. -/
def Request.IsOn (conn : ℕ) : Request → Prop
  | .acquire => False
  | .statement _ c _ _ | .cancel c => c = conn

/-- Deeds that ask for the first statements of a script, one after the other, and stop nothing but
what is done on a connection; in the end that has stopped, unless the call was given up. -/
structure Concludes (conn : ℕ) (script : List Request) (m : ℕ) (halt? : Option Halt)
    (ds : List Deed) (m' : ℕ) : Prop where
  le : m ≤ m'
  asks : ∀ d ∈ ds, ∃ m₁ r a, d = .asked m₁ r a ∧ r.IsOn conn
  sends : (concerning conn ds).map Happening.request? <+: script.map some
  givenUp : ∀ halt ∈ halt?, halt.givenUp
  stopped : halt?.isSome ∨
    ∀ m₁ a, .asked m₁ (.cancel conn) a ∈ ds → Inquiry.AnsweredBy m' ⟨m₁, .cancel conn, a⟩

section
variable {c : Client} {conn m m₁ m' : ℕ} {abort : Option ℕ} {ds ds' : List Deed}
  {script rest : List Request} {halt? : Option Halt} {kind : StatementKind} {sql : String}
  {values : List Value}

theorem Concludes.nil (h : m ≤ m') : Concludes conn script m none [] m' :=
  ⟨h, List.forall_mem_nil _, List.nil_prefix, nofun, Or.inr fun _ _ hmem => nomatch hmem⟩

/-- Nothing is asked for by a call that is given up at once. -/
theorem Concludes.idle {halt : Halt} (h : m ≤ m') (hgiven : halt.givenUp) :
    Concludes conn script m (some halt) [] m' :=
  ⟨h, List.forall_mem_nil _, List.nil_prefix, by rintro _ ⟨⟩; exact hgiven, Or.inl rfl⟩

/-- A statement that is waited for, or given up. -/
theorem Concludes.asked {a : Answer Yield} (h : m ≤ m') (hgiven : ∀ halt ∈ halt?, halt.givenUp) :
    Concludes conn [.statement kind conn sql values] m halt?
      [.asked m (.statement kind conn sql values) a] m' where
  le := h
  asks d hd := ⟨_, _, _, List.mem_singleton.1 hd, rfl⟩
  sends := by simp [Happening.request?]
  givenUp := hgiven
  stopped := Or.inr fun _ _ hmem => by cases List.mem_singleton.1 hmem

theorem Concludes.longer (h : Concludes conn script m halt? ds m') :
    Concludes conn (script ++ rest) m halt? ds m' :=
  { h with sends := h.sends.trans (List.map_append ▸ List.prefix_append _ _) }

theorem Concludes.append_of_sends {all : List Request} (h : Concludes conn script m none ds m₁)
    (h' : Concludes conn rest m₁ halt? ds' m')
    (hsends : (concerning conn (ds ++ ds')).map Happening.request? <+: all.map some) :
    Concludes conn all m halt? (ds ++ ds') m' := by
  refine ⟨h.le.trans h'.le, fun d hd => ?_, hsends, h'.givenUp,
    h'.stopped.imp id fun hstopped m₂ a hmem => ?_⟩
  · rcases List.mem_append.1 hd with hd | hd
    · exact h.asks d hd
    · exact h'.asks d hd
  · rcases List.mem_append.1 hmem with hmem | hmem
    · obtain ⟨w, hw, hle⟩ := h.stopped.resolve_left Bool.false_ne_true m₂ a hmem
      exact ⟨w, hw, hle.trans h'.le⟩
    · exact hstopped m₂ a hmem

/-- What is sent in full comes before what follows. -/
theorem Concludes.append (h : Concludes conn script m none ds m₁)
    (hsent : (concerning conn ds).map Happening.request? = script.map some)
    (h' : Concludes conn rest m₁ halt? ds' m') :
    Concludes conn (script ++ rest) m halt? (ds ++ ds') m' := by
  refine h.append_of_sends h' ?_
  rw [concerning_append, List.map_append, List.map_append, hsent]
  exact (List.prefix_append_right_inj _).2 h'.sends

/-- Nothing is sent after what is stopped. -/
theorem Concludes.append_stops (h : Concludes conn script m none ds m₁)
    (h' : Concludes conn [] m₁ halt? ds' m') : Concludes conn script m halt? (ds ++ ds') m' := by
  refine h.append_of_sends h' ?_
  have hnone : concerning conn ds' = [] := List.map_eq_nil_iff.1 (List.prefix_nil.1 h'.sends)
  rw [concerning_append, hnone, List.append_nil]
  exact h.sends

/-! ## Statements -/

theorem Raced.concludes {o : Except Halt (Option (Except Error Yield))}
    (h : Raced abort (fun a ds => ds = [.asked m (.statement kind conn sql values) a]) m o ds m') :
    Concludes conn [.statement kind conn sql values] m (halted? o) ds m' := by
  cases h with
  | late _ _ => exact .nil (Nat.le_refl _)
  | answered hasks _ _ => exact hasks ▸ .asked (Nat.le_add_right _ _) nofun
  | stopped hasks _ hlt _ => exact hasks ▸ .asked hlt.le nofun
  | givenUp hasks hgiven hle _ _ => exact hasks ▸ .asked hle (Halt.mem_unfailed? hgiven)

theorem Cleaning.concludes {o : Except Halt Unit} (h : Cleaning conn [.cancel] m o ds m') :
    Concludes conn [] m (halted? o) ds m' := by
  have hasks : ∀ a, ∀ d ∈ [Deed.asked m (CleanupStep.cancel.request conn) a],
      ∃ m₁ r a, d = .asked m₁ r a ∧ r.IsOn conn :=
    fun a d hd => ⟨_, _, _, List.mem_singleton.1 hd, rfl⟩
  cases h with
  | answered hw hdone =>
    cases hdone
    refine ⟨Nat.le_add_right _ _, hasks _, List.nil_prefix, nofun, Or.inr fun m₂ a hmem => ?_⟩
    obtain ⟨rfl, -, rfl⟩ := Deed.asked.inj (List.mem_singleton.1 hmem)
    exact ⟨_, hw, Nat.le_refl _⟩
  | @givenUp _ _ _ _ halt _ hgiven hle _ =>
    refine ⟨hle, hasks _, List.nil_prefix, Halt.mem_unfailed? hgiven, Or.inl ?_⟩
    rw [halted?, Halt.unfailed?_of_givenUp hgiven]
    rfl

theorem Exchange.concludes {o : Except Halt Yield}
    (h : Exchange conn abort (.statement kind conn sql values) m o ds m') :
    Concludes conn [.statement kind conn sql values] m (halted? o) ds m' := by
  cases h with
  | answered hraced =>
    rw [halted?_mapError]
    exact hraced.concludes
  | stopped hraced hcleaning | halted hraced hcleaning =>
    exact hraced.concludes.append_stops hcleaning.concludes
  | givenUp hraced => exact hraced.concludes

/-- A statement that is answered was sent. -/
theorem Exchange.sent {y : Yield}
    (h : Exchange conn abort (.statement kind conn sql values) m (.ok y) ds m') :
    (concerning conn ds).map Happening.request? = [some (.statement kind conn sql values)] := by
  generalize ho : (.ok y : Except Halt Yield) = o at h
  cases h with
  | answered hraced =>
    cases hraced with | answered hasks _ _ =>
    simp [hasks, Happening.request?]
  | stopped | halted | givenUp => cases ho

/-- The limit of a transaction is local to it. -/
theorem limit_inside (hc : c.transaction = some conn) {limit : Duration}
    (hlimit : c.config.safety.statementTimeout = some limit) :
    c.limitScript conn = [c.timeLimit conn limit] := by
  simp [Client.limitScript, Client.timeLimit, limitRequest, hlimit, Client.inTransaction, hc]

theorem Limiting.concludes (hc : c.transaction = some conn) {o : Except Halt Unit}
    (h : Limiting c conn m o ds m') :
    Concludes conn (c.limitScript conn) m (halted? o) ds m' := by
  cases h with
  | unlimited _ => exact .nil (Nat.le_refl _)
  | answered hlimit _ => exact limit_inside hc hlimit ▸ .asked (Nat.le_add_right _ _) nofun
  | givenUp hlimit hgiven hle _ =>
    exact limit_inside hc hlimit ▸ .asked hle (Halt.mem_unfailed? hgiven)

theorem Limiting.sent (hc : c.transaction = some conn) (h : Limiting c conn m (.ok ()) ds m') :
    (concerning conn ds).map Happening.request? = (c.limitScript conn).map some := by
  cases h with
  | unlimited hnone => simp [Client.limitScript, hnone]
  | answered hlimit _ => simp [limit_inside hc hlimit, Client.timeLimit, Happening.request?]

theorem Counting.concludes {q : Query} {mode : CountMode} (hmode : q.count = some mode)
    (hq : q.operation.isMutation = false) {o : Except Halt (Option Int)}
    (h : Counting c conn q abort mode m o ds m') :
    Concludes conn (c.countScript conn q) m (halted? o) ds m' := by
  have hscript : ∀ {statement}, Statement.compileCount c.config.safety q mode = .ok statement →
      c.countScript conn q = [statement.request .query conn] := fun hs => by
    simp [Client.countScript, hmode, hq, hs]
  cases h with
  | uncompiled _ => exact .nil (Nat.le_refl _)
  | counted hs hexchange | failed hs hexchange | givenUp hs _ hexchange =>
    exact hscript hs ▸ hexchange.concludes

theorem Running.concludes {q : Query} {statement : Statement} {o : Except Halt Outcome}
    (h : Running c conn q statement abort m o ds m') :
    Concludes conn (statement.request (Client.statementKind q) conn :: c.countScript conn q) m
      (halted? o) ds m' := by
  cases h with
  | unanswered hexchange | misfit hexchange _ | fitted hexchange _ _ =>
    exact hexchange.concludes.longer
  | counted hexchange _ hmode hq hcounting =>
    rw [halted?_map]
    exact hexchange.concludes.append hexchange.sent (hcounting.concludes hmode hq)

theorem Working.concludes (hc : c.transaction = some conn) {q : Query} {statement : Statement}
    {o : Except Halt Outcome} (h : Working c conn q statement abort m o ds m') :
    Concludes conn (c.limitScript conn ++
      statement.request (Client.statementKind q) conn :: c.countScript conn q) m
      (halted? o) ds m' := by
  cases h with
  | unlimited hlimiting => exact (hlimiting.concludes hc).longer
  | limited hlimiting hrunning =>
    exact (hlimiting.concludes hc).append (hlimiting.sent hc) hrunning.concludes

theorem Opening.concludes (hc : c.transaction = some conn) {statement : Statement}
    {o : Except Halt (List (Answer Row))} (h : Opening c conn statement abort m o ds m') :
    Concludes conn (c.limitScript conn ++ [statement.request .stream conn]) m
      (halted? o) ds m' := by
  cases h with
  | unlimited hlimiting => exact (hlimiting.concludes hc).longer
  | limited hlimiting hexchange =>
    have hopened := (hlimiting.concludes hc).append (hlimiting.sent hc) hexchange.concludes
    rwa [halted?_map] at hopened

end

/-! ## Leases in a transaction -/

section
variable {c : Client} {conn m m' : ℕ} {abort : Option ℕ} {ds : List Deed}

/-- The lease of a call in a transaction. -/
theorem lease_inside (hc : c.transaction = some conn) (cancel : Bool) :
    c.lease conn cancel = ⟨conn, true, false, cancel⟩ := by
  have hin : c.inTransaction = true := by simp [Client.inTransaction, hc]
  simp [Client.lease, Client.limitsSession, hin]

theorem discards_inside (cancel : Bool) : (⟨conn, true, false, cancel⟩ : Lease).discards m =
    if cancel then [.left m conn [.cancel]] else [] := by
  cases cancel <;> rfl

/-- The end of such a lease takes no time. -/
theorem releasing_inside {cancel : Bool} {o : Except Halt Unit}
    (h : (⟨conn, true, false, cancel⟩ : Lease).Releasing false m o ds m') :
    o = .ok () ∧ ds = [] ∧ m' = m := by
  cases h with
  | past hcleaning =>
    cases hcleaning
    exact ⟨rfl, rfl, rfl⟩
  | givenUp hcleaning => cases hcleaning

/-- A call in a transaction has its connection at once. -/
theorem connected_inside (hc : c.transaction = some conn) {conn' : ℕ}
    (h : Connecting c abort m (.ok conn') ds m') : ds = [] ∧ m' = m ∧ conn' = conn := by
  cases h with
  | shared hconn _ =>
    rw [hc] at hconn
    cases hconn
    exact ⟨rfl, rfl, rfl⟩
  | acquired hnone _ =>
    rw [hc] at hnone
    cases hnone

theorem unconnected_inside (hc : c.transaction = some conn) {halt : Halt}
    (h : Connecting c abort m (.error halt) ds m') : ds = [] ∧ m' = m ∧ ∃ e, halt = .failed e := by
  cases h with
  | refusedShared _ _ _ => exact ⟨rfl, rfl, _, rfl⟩
  | refused hnone _ | stopped hnone _ | givenUp hnone _ =>
    rw [hc] at hnone
    cases hnone

variable (hc : c.transaction = some conn)
include hc

theorem Attempting.concludes {q : Query} {statement : Statement} {o : Except Halt Outcome}
    (h : Attempting c q statement abort m o ds m') :
    Concludes conn (c.limitScript conn ++
      statement.request (Client.statementKind q) conn :: c.countScript conn q) m
      (halted? o) ds m' := by
  cases h with
  | unconnected hconnecting =>
    obtain ⟨rfl, rfl, e, rfl⟩ := unconnected_inside hc hconnecting
    exact .nil (Nat.le_refl _)
  | connected hconnecting husing =>
    obtain ⟨rfl, rfl, rfl⟩ := connected_inside hc hconnecting
    have hin : c.inTransaction = true := by simp [Client.inTransaction, hc]
    rw [hin, lease_inside hc] at husing
    rw [List.nil_append]
    cases husing with
    | halted _ hworking =>
      rw [Bool.not_true, discards_inside, if_neg Bool.false_ne_true, List.append_nil]
      exact hworking.concludes hc
    | released hworking hreleasing =>
      obtain ⟨-, rfl, rfl⟩ := releasing_inside hreleasing
      rw [List.append_nil]
      exact hworking.concludes hc
    | givenUp _ hreleasing => cases (releasing_inside hreleasing).1

/-- **A call sends its statements** on the connection, each at most once: there is one attempt. -/
theorem Executing.concludes {q : Query} {o : Except Halt (Response Json)}
    (h : Executing c q abort m o ds m') :
    Concludes conn (c.executeScript conn q) m (halted? o) ds m' := by
  have honce : c.maxAttempts - 1 = 0 := by simp [Client.maxAttempts, Client.inTransaction, hc]
  have hscript : ∀ {statement}, Statement.compile c.config.safety q = .ok statement →
      c.executeScript conn q = c.limitScript conn ++
        statement.request (Client.statementKind q) conn :: c.countScript conn q := fun hs => by
    rw [Client.executeScript, hs]
  cases h with
  | late _ _ => exact .nil (Nat.le_refl _)
  | uncompiled _ _ => exact .nil (Nat.le_refl _)
  | @tried _ _ _ o _ hs hretrying =>
    rw [honce] at hretrying
    cases hretrying with | last hattempting =>
    have hconcludes := hattempting.concludes hc
    rw [halted?_mapError] at hconcludes
    exact hscript hs ▸ hconcludes
  | givenUp _ hs _ hretrying =>
    rw [honce] at hretrying
    cases hretrying with | last hattempting => exact hscript hs ▸ hattempting.concludes hc

/-! ## Streams in a transaction -/

/-- A call that opens a stream, or fails to, leaves nothing to a cleanup. -/
theorem Streaming.concludes {statement : Statement} {o : Except Error RowStream}
    (h : Streaming c statement abort m (o.mapError .failed) ds m') :
    Concludes conn (c.limitScript conn ++ [statement.request .stream conn]) m none ds m' ∧
      ∀ s, o = .ok s → s.lease = c.lease conn true := by
  generalize ho : o.mapError Halt.failed = o' at h
  cases h with
  | unconnected hconnecting =>
    obtain ⟨rfl, rfl, -⟩ := unconnected_inside hc hconnecting
    refine ⟨.nil (Nat.le_refl _), fun s he => ?_⟩
    rw [he] at ho
    cases ho
  | opened hconnecting hopening =>
    obtain ⟨rfl, rfl, rfl⟩ := connected_inside hc hconnecting
    refine ⟨hopening.concludes hc, fun s he => ?_⟩
    rw [he] at ho
    cases ho
    rfl
  | refused hconnecting hopening hreleasing =>
    obtain ⟨rfl, rfl, rfl⟩ := connected_inside hc hconnecting
    rw [lease_inside hc] at hreleasing
    obtain ⟨-, rfl, rfl⟩ := releasing_inside hreleasing
    rw [List.append_nil]
    refine ⟨hopening.concludes hc, fun s he => ?_⟩
    rw [he] at ho
    cases ho
  | halted _ _ hfailed =>
    cases o with
    | ok _ => cases ho
    | error e =>
      cases ho
      exact absurd rfl (hfailed e)
  | givenUp hconnecting _ hreleasing =>
    obtain ⟨-, -, rfl⟩ := connected_inside hc hconnecting
    rw [lease_inside hc] at hreleasing
    cases (releasing_inside hreleasing).1

/-- A call that is given up while it opens a stream leaves it to a cleanup to stop that. -/
theorem Streaming.leaves {statement : Statement} {halt : Halt}
    (h : Streaming c statement abort m (.error halt) ds m') (hfailed : ∀ e, halt ≠ .failed e) :
    ∃ front, Concludes conn (c.limitScript conn ++ [statement.request .stream conn]) m
        (some halt) front m' ∧ ds = front ++ [.left m' conn [.cancel]] := by
  cases h with
  | unconnected hconnecting =>
    obtain ⟨-, -, e, rfl⟩ := unconnected_inside hc hconnecting
    exact absurd rfl (hfailed e)
  | refused _ _ _ => exact absurd rfl (hfailed _)
  | @halted _ _ _ _ front _ hconnecting hopening _ =>
    obtain ⟨rfl, rfl, rfl⟩ := connected_inside hc hconnecting
    have hconcludes := hopening.concludes hc
    rw [halted?, Halt.unfailed?_of_ne hfailed] at hconcludes
    refine ⟨front, hconcludes, ?_⟩
    rw [lease_inside hc, discards_inside]
    rfl
  | givenUp hconnecting _ hreleasing =>
    obtain ⟨-, -, rfl⟩ := connected_inside hc hconnecting
    rw [lease_inside hc] at hreleasing
    cases (releasing_inside hreleasing).1

omit hc in
theorem streamScript_of_select {q : Query} {columns : String} {statement : Statement}
    (hselect : q.operation = .select columns)
    (hs : Statement.compile c.config.safety q = .ok statement) :
    c.streamScript conn q = c.limitScript conn ++ [statement.request .stream conn] := by
  rw [Client.streamScript, hselect, hs]

/-- **A stream is opened by its statements** on the connection. -/
theorem Selecting.concludes {q : Query} {o : Except Error RowStream}
    (h : Selecting c q abort m (o.mapError .failed) ds m') :
    Concludes conn (c.streamScript conn q) m none ds m' ∧
      ∀ s, o = .ok s → s.lease = c.lease conn true := by
  generalize ho : o.mapError Halt.failed = o' at h
  cases h with
  | refused =>
    refine ⟨.nil (Nat.le_refl _), fun s hs => ?_⟩
    rw [hs] at ho
    cases ho
  | compiled hselect hs hstreaming =>
    rw [streamScript_of_select hselect hs]
    exact Streaming.concludes hc (ho ▸ hstreaming)

theorem Selecting.leaves {q : Query} {halt : Halt}
    (h : Selecting c q abort m (.error halt) ds m') (hfailed : ∀ e, halt ≠ .failed e) :
    ∃ front, Concludes conn (c.streamScript conn q) m (some halt) front m' ∧
      ds = front ++ [.left m' conn [.cancel]] := by
  cases h with
  | refused => exact absurd rfl (hfailed _)
  | compiled hselect hs hstreaming =>
    rw [streamScript_of_select hselect hs]
    exact hstreaming.leaves hc hfailed

end

/-! ## Calls in a transaction -/

def Reply.isGivenUp : Reply → Bool
  | .givenUp => true
  | _ => false

/-- Whether a call gives up a stream before its end, where it is answered at some moment: it is given
up while it opens or closes one, its caller has aborted one, or it drops one. -/
def Call.forsakes (streams : List RowStream) (reply : Reply) (m : ℕ) : Call σ → Bool
  | .stream _ _ _ | .closeStream _ _ => reply.isGivenUp
  | .next i _ => streams[i]?.any fun s => !s.done && s.abort.any (· ≤ m)
  | .dropStream i => streams[i]?.any fun s => !s.done
  | _ => false

/-- What a call does on the connection of its transaction: it waits for what it stops, and leaves at
most a request to stop to a cleanup. -/
def SendsScript (conn : ℕ) (script : List Request) (m : ℕ) (halt? : Option Halt) (forsakes : Bool)
    (ds : List Deed) (m' : ℕ) : Prop :=
  ∃ front, Concludes conn script m halt? front m' ∧
    ds = front ++ if forsakes then [.left m' conn [.cancel]] else []

section
variable {conn m m' : ℕ} {ds : List Deed} {script : List Request} {halt? : Option Halt}
  {forsakes : Bool} {s s' : RowStream} {streams streams' : List RowStream}

theorem Concludes.sendsScript (h : Concludes conn script m halt? ds m') :
    SendsScript conn script m halt? false ds m' := ⟨ds, h, (List.append_nil ds).symm⟩

theorem sendsScript_left (h : m ≤ m')
    (hds : ds = if forsakes then [.left m' conn [.cancel]] else []) :
    SendsScript conn script m none forsakes ds m' := ⟨[], .nil h, hds⟩

/-- The last of the deeds of a stream that is given up within a transaction. -/
theorem finishes_inside (hs : s.lease = ⟨conn, true, false, true⟩) (interrupted : Bool) :
    s.finishes interrupted m = if interrupted then [.left m conn [.cancel]] else [] := by
  unfold RowStream.finishes
  rw [hs]
  exact discards_inside interrupted

theorem RowStream.Polling.left_eq {item : Item} (hs : s.lease = ⟨conn, true, false, true⟩)
    (h : s.Polling m item s' ds) : s'.lease = s.lease ∧
      ds = if !s.done && s.abort.any (· ≤ m) then [.left m conn [.cancel]] else [] := by
  cases h with
  | past hdone => exact ⟨rfl, by simp [hdone]⟩
  | aborted hdone habort hle =>
    have hlate : s.abort.any (· ≤ m) = true := by
      rw [habort]
      exact decide_eq_true hle
    rw [hdone, hlate]
    exact ⟨rfl, finishes_inside hs true⟩
  | exhausted hdone habort _ | failed hdone habort _ _ _ =>
    rw [hdone, any_le_eq_false_iff.2 habort]
    exact ⟨rfl, finishes_inside hs false⟩
  | row hdone habort _ _ _ | pending hdone habort _ _ =>
    rw [hdone, any_le_eq_false_iff.2 habort]
    exact ⟨rfl, rfl⟩

/-- A row is waited for without a request: only what is stopped is left. -/
theorem RowStream.Awaiting.sendsScript {item : Item} (hs : s.lease = ⟨conn, true, false, true⟩)
    (h : s.Awaiting m (.ok (item, s')) ds m') : s'.lease = s.lease ∧
      SendsScript conn script m none (!s.done && s.abort.any (· ≤ m')) ds m' := by
  cases h with
  | polled hpolling =>
    obtain ⟨hsame, hds⟩ := hpolling.left_eq hs
    exact ⟨hsame, sendsScript_left (Nat.le_refl _) hds⟩
  | waited hpending hle hpolling =>
    cases hpending with | pending _ _ _ _ =>
    obtain ⟨hsame, hds⟩ := RowStream.Polling.left_eq
      (s := { s with asked := some (s.asked.getD m) }) hs hpolling
    exact ⟨hsame, sendsScript_left hle hds⟩

/-- A stream is closed by a request that is waited for; a caller who gives up leaves the request to
a cleanup. -/
theorem RowStream.Closing.sendsScript {o : Except Halt Unit}
    (hs : s.lease = ⟨conn, true, false, true⟩) (h : s.Closing m o ds m') :
    SendsScript conn [] m (halted? o) (halted? o).isSome ds m' := by
  cases h with
  | past _ => exact (Concludes.nil (Nat.le_refl _)).sendsScript
  | closed _ hreleasing =>
    rw [hs] at hreleasing
    cases hreleasing with
    | past hcleaning =>
      have hnone : (⟨conn, true, false, true⟩ : Lease).letsGo m' = [] := rfl
      rw [hnone, List.append_nil]
      exact hcleaning.concludes.sendsScript
    | givenUp hcleaning =>
      have hconcludes := hcleaning.concludes
      rw [halted?, Halt.unfailed?_of_givenUp (hcleaning.givenUp_of_error rfl)] at hconcludes ⊢
      rw [discards_inside]
      exact ⟨_, hconcludes, rfl⟩

theorem RowStream.Closing.givenUp_of_error {o : Except Halt Unit} {halt : Halt}
    (h : s.Closing m o ds m') (ho : o = .error halt) : halt.givenUp := by
  subst ho
  cases h with | closed _ hreleasing =>
  cases hreleasing with | givenUp hcleaning => exact hcleaning.givenUp_of_error rfl

/-- A stream that is dropped before its end is left to a cleanup. -/
theorem RowStream.drops_inside (hs : s.lease = ⟨conn, true, false, true⟩) :
    s.drops m = if !s.done then [.left m conn [.cancel]] else [] := by
  unfold RowStream.drops
  rw [finishes_inside hs]
  cases hdone : s.done <;> simp

end

/-- What a call of a transaction does and replies, and the streams that there are then. -/
structure Call.AnsweredInside (c : Client) (conn : ℕ) (streams : List RowStream) (m : ℕ)
    (call : Call σ) (reply : Reply) (streams' : List RowStream) (ds : List Deed) (m' : ℕ) :
    Prop where
  sendsScript : ∃ halt?,
    SendsScript conn (call.script c conn) m halt? (call.forsakes streams reply m') ds m' ∧
      (halt?.isSome → reply.isGivenUp)
  allows : call.Allows reply
  leases : ∀ s ∈ streams', s.lease = c.lease conn true

namespace Call

section
variable {c : Client} {conn m m' : ℕ} {ds : List Deed} {reply : Reply} {q : Query}
  {abort patience : Option ℕ} {i : ℕ} {streams streams' : List RowStream}

/-- A call that does nothing but wait. -/
theorem answeredInside_of_idle {call : Call σ} (hle : m ≤ m') (hds : ds = [])
    (hforsakes : call.forsakes streams reply m' = false) (hallows : call.Allows reply)
    (hleases : ∀ s ∈ streams', s.lease = c.lease conn true) :
    call.AnsweredInside c conn streams m reply streams' ds m' :=
  ⟨⟨none, sendsScript_left hle (by rw [hforsakes, hds]; rfl), nofun⟩, hallows, hleases⟩

variable (hc : c.transaction = some conn) (hstreams : ∀ s ∈ streams, s.lease = c.lease conn true)
include hc hstreams

theorem answeredInside_execute
    (h : (execute q abort patience : Call σ).Answering c streams m (.ok (reply, streams')) ds m') :
    (execute q abort patience : Call σ).AnsweredInside c conn streams m reply streams' ds m' := by
  obtain ⟨_ | r, hpatient, he⟩ := h
  · cases he
  · cases hpatient with
    | ended hexecuting =>
      cases he
      exact ⟨⟨_, (hexecuting.concludes hc).sendsScript, nofun⟩, trivial, hstreams⟩
    | givenUp hexecuting =>
      cases he
      exact ⟨⟨_, (hexecuting.concludes hc).sendsScript, fun _ => rfl⟩, trivial, hstreams⟩

/-- A stream is opened on the connection; a caller who gives up forsakes it. -/
theorem answeredInside_stream
    (h : (stream q abort patience : Call σ).Answering c streams m (.ok (reply, streams')) ds m') :
    (stream q abort patience : Call σ).AnsweredInside c conn streams m reply streams' ds m' := by
  obtain ⟨_ | r, hpatient, he⟩ := h
  · cases he
  · cases hpatient with
    | @ended o _ _ htried =>
      cases htried with | ended hselecting =>
      obtain ⟨hconcludes, hopened⟩ := hselecting.concludes hc
      cases o with
      | error e =>
        cases he
        exact ⟨⟨_, hconcludes.sendsScript, nofun⟩, trivial, hstreams⟩
      | ok s =>
        cases he
        refine ⟨⟨_, hconcludes.sendsScript, nofun⟩, trivial, fun s' hs' => ?_⟩
        rcases List.mem_append.1 hs' with hs' | hs'
        · exact hstreams s' hs'
        · rw [List.mem_singleton.1 hs']
          exact hopened s rfl
    | givenUp htried =>
      cases he
      cases htried with | halted hfailed hselecting =>
      exact ⟨⟨_, hselecting.leaves hc hfailed, fun _ => rfl⟩, trivial, hstreams⟩

theorem answeredInside_next {patience : ℕ}
    (h : (next i patience : Call σ).Answering c streams m (.ok (reply, streams')) ds m') :
    (next i patience : Call σ).AnsweredInside c conn streams m reply streams' ds m' := by
  cases h with
  | absent hi =>
    exact answeredInside_of_idle (Nat.le_refl _) rfl (by rw [forsakes, hi]; rfl) trivial hstreams
  | present hi h =>
    have hlease := hstreams _ (List.mem_of_getElem? hi)
    obtain ⟨_ | ⟨item, s'⟩, hawaiting, he⟩ := h
    · cases he
    · cases he
      obtain ⟨hsame, hscripted⟩ := hawaiting.sendsScript (hlease.trans (lease_inside hc true))
      refine ⟨⟨none, ?_, nofun⟩, trivial, forall_mem_set hstreams (hsame.trans hlease) i⟩
      rw [forsakes, hi]
      exact hscripted

theorem answeredInside_closeStream
    (h : (closeStream i patience : Call σ).Answering c streams m (.ok (reply, streams')) ds m') :
    (closeStream i patience : Call σ).AnsweredInside c conn streams m reply streams' ds m' := by
  have hfinished : ∀ s ∈ streams.modify i finished, s.lease = c.lease conn true :=
    forall_mem_modify hstreams finished (fun _ hs => hs) i
  cases h with
  | absent hi => exact answeredInside_of_idle (Nat.le_refl _) rfl rfl trivial hstreams
  | present hi h =>
    have hlease := (hstreams _ (List.mem_of_getElem? hi)).trans (lease_inside hc true)
    obtain ⟨_ | closed, hpatient, he⟩ := h
    · cases he
    · cases hpatient with
      | ended hclosing =>
        cases he
        exact ⟨⟨_, hclosing.sendsScript hlease, nofun⟩, trivial, hfinished⟩
      | givenUp hclosing =>
        cases he
        exact ⟨⟨_, hclosing.sendsScript hlease, fun _ => rfl⟩, trivial, hfinished⟩

theorem answeredInside_dropStream
    (h : (dropStream i : Call σ).Answering c streams m (.ok (reply, streams')) ds m') :
    (dropStream i : Call σ).AnsweredInside c conn streams m reply streams' ds m' := by
  cases h with
  | absent hi =>
    exact answeredInside_of_idle (Nat.le_refl _) rfl (by rw [forsakes, hi]; rfl) trivial hstreams
  | present hi h =>
    have hlease := (hstreams _ (List.mem_of_getElem? hi)).trans (lease_inside hc true)
    obtain ⟨he, hds, rfl⟩ := h
    cases he
    refine ⟨⟨none, sendsScript_left (Nat.le_refl _) ?_, nofun⟩, trivial,
      forall_mem_modify hstreams finished (fun _ hs => hs) i⟩
    rw [forsakes, hi, hds]
    exact RowStream.drops_inside hlease

/-- **What a call does** on the connection of its transaction. -/
theorem answeredInside {call : Call σ}
    (h : call.Answering c streams m (.ok (reply, streams')) ds m') :
    call.AnsweredInside c conn streams m reply streams' ds m' := by
  cases call with
  | execute q abort patience => exact answeredInside_execute hc hstreams h
  | stream q abort patience => exact answeredInside_stream hc hstreams h
  | next i patience => exact answeredInside_next hc hstreams h
  | closeStream i patience => exact answeredInside_closeStream hc hstreams h
  | dropStream i => exact answeredInside_dropStream hc hstreams h
  | abortStream i =>
    obtain ⟨he, hds, rfl⟩ := h
    cases he
    exact answeredInside_of_idle (Nat.le_refl _) hds rfl trivial
      (forall_mem_modify hstreams (fun s => { s with abort := some m' }) (fun _ hs => hs) i)
  | close =>
    obtain ⟨he, hds, rfl⟩ := h
    cases he
    have hin : c.closes m' = [] := by simp [Client.closes, Client.inTransaction, hc]
    exact answeredInside_of_idle (Nat.le_refl _) (hds.trans hin) rfl trivial hstreams
  | transact callback =>
    obtain ⟨he, hds, rfl⟩ := h
    cases he
    exact answeredInside_of_idle (Nat.le_refl _) hds rfl rfl hstreams
  | wait time =>
    obtain ⟨o, hwaits, he⟩ := h
    cases hwaits with
    | past _ =>
      cases he
      exact answeredInside_of_idle (Nat.le_add_right _ _) rfl rfl trivial hstreams
    | givenUp _ _ _ => cases he

/-! ### Calls that are given up -/

omit hstreams in
theorem sendsScript_of_halted_execute {halt : Halt}
    (h : (execute q abort patience : Call σ).Answering c streams m (.error halt) ds m') :
    SendsScript conn (c.executeScript conn q) m (some halt) false ds m' := by
  obtain ⟨_ | r, hpatient, he⟩ := h
  · cases he
    cases hpatient with | halted hexecuting =>
    have hconcludes := hexecuting.concludes hc
    cases hexecuting with | givenUp _ _ hfailed _ =>
    rw [halted?, Halt.unfailed?_of_ne hfailed] at hconcludes
    exact hconcludes.sendsScript
  · cases he

omit hstreams in
theorem sendsScript_of_halted_stream {halt : Halt}
    (h : (stream q abort patience : Call σ).Answering c streams m (.error halt) ds m') :
    SendsScript conn (c.streamScript conn q) m (some halt) true ds m' := by
  obtain ⟨_ | r, hpatient, he⟩ := h
  · cases he
    cases hpatient with | halted htried =>
    cases htried with | halted hfailed hselecting => exact hselecting.leaves hc hfailed
  · cases he

theorem sendsScript_of_halted_closeStream {halt : Halt}
    (h : (closeStream i patience : Call σ).Answering c streams m (.error halt) ds m') :
    SendsScript conn [] m (some halt) true ds m' := by
  cases h with | present hi h =>
  have hlease := (hstreams _ (List.mem_of_getElem? hi)).trans (lease_inside hc true)
  obtain ⟨_ | closed, hpatient, he⟩ := h
  · cases he
    cases hpatient with | halted hclosing =>
    have hscripted := hclosing.sendsScript hlease
    rwa [halted?, Halt.unfailed?_of_givenUp (hclosing.givenUp_of_error rfl)] at hscripted
  · cases he

/-- A call that is given up has sent the first of its statements. -/
theorem sendsScript_of_halted {call : Call σ} {halt : Halt}
    (h : call.Answering c streams m (.error halt) ds m') :
    ∃ forsakes, SendsScript conn (call.script c conn) m (some halt) forsakes ds m' := by
  cases call with
  | execute q abort patience => exact ⟨false, sendsScript_of_halted_execute hc h⟩
  | stream q abort patience => exact ⟨true, sendsScript_of_halted_stream hc h⟩
  | closeStream i patience => exact ⟨true, sendsScript_of_halted_closeStream hc hstreams h⟩
  | next i patience =>
    cases h with | present hi h =>
    obtain ⟨_ | a, hawaiting, he⟩ := h
    · cases he
      cases hawaiting with | givenUp _ hgiven hle =>
      exact ⟨false, (Concludes.idle hle hgiven).sendsScript⟩
    · cases he
  | wait time =>
    obtain ⟨_ | _, hwaits, he⟩ := h
    · cases he
      cases hwaits with | givenUp hgiven hle _ =>
      exact ⟨false, (Concludes.idle hle hgiven).sendsScript⟩
    · cases he
  | dropStream i => cases h with | present hi h => cases h.1
  | abortStream | close | transact => cases h.1

end

end Call

/-! ## The work of a transaction -/

/-- A request on a connection, or a request to stop there that is left to a cleanup. -/
def Deed.ConfinedTo (conn : ℕ) : Deed → Prop
  | .asked _ r _ => r.IsOn conn
  | .left _ c steps => c = conn ∧ steps = [.cancel]
  | _ => False

/-- The deeds of a run are confined to a connection, and what they ask there is as stated. -/
def Confined (conn : ℕ) (P : Except Halt α → List Happening → Prop) : Account α := fun o ds _ =>
  (∀ d ∈ ds, d.ConfinedTo conn) ∧ P o (concerning conn ds)

section
variable {env : Env σ} {c : Client} {conn m m' : ℕ} {ds ds' : List Deed} {script : List Request}
  {halt? : Option Halt} {forsakes : Bool} {streams : List RowStream}

theorem forall_mem_confinedTo_append (h : ∀ d ∈ ds, d.ConfinedTo conn)
    (h' : ∀ d ∈ ds', d.ConfinedTo conn) : ∀ d ∈ ds ++ ds', d.ConfinedTo conn := fun d hd =>
  (List.mem_append.1 hd).elim (h d) (h' d)

theorem SendsScript.confined (h : SendsScript conn script m halt? forsakes ds m') :
    (∀ d ∈ ds, d.ConfinedTo conn) ∧
      (concerning conn ds).map Happening.request? <+: script.map some := by
  obtain ⟨front, hconcludes, rfl⟩ := h
  have hleft : ∀ d ∈ (if forsakes then [Deed.left m' conn [.cancel]] else []),
      d.ConfinedTo conn := by
    intro d hd
    rw [List.mem_ite_nil_right, List.mem_singleton] at hd
    rw [hd.2]
    exact ⟨rfl, rfl⟩
  refine ⟨forall_mem_confinedTo_append (fun d hd => ?_) hleft, ?_⟩
  · obtain ⟨m₁, r, a, rfl, hr⟩ := hconcludes.asks d hd
    exact hr
  · have hnone : concerning conn (if forsakes then [Deed.left m' conn [.cancel]] else []) = [] := by
      cases forsakes <;> rfl
    rw [concerning_append, hnone, List.append_nil]
    exact hconcludes.sends

section
variable {r : Run σ α} {P : Except Halt α → List Happening → Prop}
  {Q : Except Halt β → List Happening → Prop}

theorem Run.Acts.confined_bind {f : α → Run σ β} (h : Acts env m r (Confined conn P))
    (hok : ∀ a t m₁, P (.ok a) t → Acts env m₁ (f a) (Confined conn fun o t' => Q o (t ++ t')))
    (herror : ∀ halt t, P (.error halt) t → Q (.error halt) t) :
    Acts env m (r >>= f) (Confined conn Q) := by
  refine h.bind (fun a ds m₁ h => ?_) fun halt ds m' h => ⟨h.1, herror _ _ h.2⟩
  refine (hok a _ m₁ h.2).mono fun o ds' m' h' => ?_
  exact ⟨forall_mem_confinedTo_append h.1 h'.1, concerning_append _ _ _ ▸ h'.2⟩

end

/-- Streams that are dropped are left to cleanups. -/
theorem confined_dropsAll (hc : c.transaction = some conn)
    (hstreams : ∀ s ∈ streams, s.lease = c.lease conn true) :
    (∀ d ∈ dropsAll streams m, d.ConfinedTo conn) ∧ concerning conn (dropsAll streams m) = [] := by
  induction streams with
  | nil => exact ⟨List.forall_mem_nil _, rfl⟩
  | cons s rest ih =>
    obtain ⟨hs, hrest⟩ := List.forall_mem_cons.1 hstreams
    obtain ⟨hconfined, hnone⟩ := ih hrest
    have hscripted : SendsScript conn [] m none (!s.done) (s.drops m) m :=
      sendsScript_left (Nat.le_refl m) (RowStream.drops_inside (hs.trans (lease_inside hc true)))
    have hfirst := hscripted.confined
    refine ⟨forall_mem_confinedTo_append hfirst.1 hconfined, ?_⟩
    have hsilent : concerning conn (s.drops m) = [] :=
      List.map_eq_nil_iff.1 (List.prefix_nil.1 hfirst.2)
    have happend : dropsAll (s :: rest) m = s.drops m ++ dropsAll rest m := rfl
    rw [happend, concerning_append, hsilent, hnone]
    rfl

variable (hc : c.transaction = some conn) (hstreams : ∀ s ∈ streams, s.lease = c.lease conn true)
include hc hstreams

/-- What comes after the streams are dropped that are left. -/
theorem Run.Acts.dropAll_bind {f : Unit → Run σ α} {P : Except Halt α → List Happening → Prop}
    (hf : ∀ m, Acts env m (f ()) fun o ds m' => P o [] ∧ ds = [] ∧ m' = m) :
    Acts env m (streams.forM RowStream.drop >>= f) (Confined conn P) := by
  refine (acts_dropAll streams).bind (fun _ ds m₁ h => ?_) fun _ _ _ h => nomatch h.1
  obtain ⟨-, rfl, rfl⟩ := h
  refine (hf m₁).mono fun o ds' m' h' => ?_
  obtain ⟨hP, rfl, -⟩ := h'
  obtain ⟨hconfined, hnone⟩ := confined_dropsAll (m := m₁) hc hstreams
  rw [List.append_nil]
  exact ⟨hconfined, hnone.symm ▸ hP⟩

omit hc hstreams in
theorem Call.mem_leaves (call : Call σ) (hstreams : ∀ s ∈ streams, s.lease = c.lease conn true) :
    ∀ s ∈ call.leaves streams, s.lease = c.lease conn true :=
  forall_mem_leaves hstreams (fun _ hs => hs) call

/-- A call of some work; the streams are dropped if it is given up. -/
theorem Call.acts_answer_onHalt (call : Call σ) :
    Acts env m ((call.answer c streams).onHalt ((call.leaves streams).forM RowStream.drop))
      (Confined conn fun o t =>
        t.map Happening.request? <+: (call.script c conn).map some ∧
        (∀ halt, o = .error halt → halt.givenUp) ∧
        ∀ a, o = .ok a → call.Allows a.1 ∧ ∀ s ∈ a.2, s.lease = c.lease conn true) := by
  have hin : call.isTransaction → c.inTransaction := fun _ => by simp [Client.inTransaction, hc]
  refine (Call.acts_answer hin).onHalt (fun _ => acts_dropAll _) (fun a ds m' h => ?_)
    fun halt ds m' h => ?_
  · obtain ⟨⟨halt?, hscripted, -⟩, hallows, hleases⟩ := Call.answeredInside hc hstreams h
    refine ⟨hscripted.confined.1, hscripted.confined.2, nofun, fun a' he => ?_⟩
    cases he
    exact ⟨hallows, hleases⟩
  · obtain ⟨forsakes, hscripted⟩ := Call.sendsScript_of_halted hc hstreams h
    obtain ⟨hdropped, hnone⟩ := confined_dropsAll (m := m') hc (call.mem_leaves hstreams)
    refine ⟨forall_mem_confinedTo_append hscripted.confined.1 hdropped, ?_, fun halt' he => ?_,
      nofun⟩
    · rw [concerning_append, hnone, List.append_nil]
      exact hscripted.confined.2
    · cases he
      obtain ⟨front, hconcludes, -⟩ := hscripted
      exact hconcludes.givenUp halt rfl

/-- **The run of some work performs it.** -/
theorem Work.acts_perform (work : Work σ α) :
    Acts env m (work.perform c streams) (Confined conn (work.Performs c conn)) := by
  induction work generalizing streams m with
  | done a => exact .dropAll_bind hc hstreams fun _ => .pure ⟨.done, rfl, rfl⟩
  | fail e => exact .dropAll_bind hc hstreams fun _ => .throw trivial ⟨.fail, rfl, rfl⟩
  | panic text => exact .dropAll_bind hc hstreams fun _ => .throw trivial ⟨.panic, rfl, rfl⟩
  | ask call next ih =>
    refine (Call.acts_answer_onHalt hc hstreams call).confined_bind (fun a t m₁ h => ?_)
      fun halt t h => .givenUp h.1 (h.2.1 halt rfl)
    obtain ⟨hsends, -, hends⟩ := h
    obtain ⟨hallows, hleases⟩ := hends a rfl
    exact (ih a.1 hleases).mono fun o ds m' h => ⟨h.1, .ask hsends hallows h.2⟩

end

end QueryClient.Session
