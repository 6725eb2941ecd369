/-
  The link that decides for a chain of causes.

  A chain is looked at from the outside: what its first decisive link says is what counts, and the
  links around it do not matter.  The status of a chain is found in the same way.

  * `Link.Carries l status` and `Link.Decides l b`: the status that a link has, and what it says
    about whether the chain is transient;
  * `verdict?_eq_some_iff`, `status?_eq_some_iff`: links say and have nothing else;
  * `isTransient_append_of_undecided` and `isTransient_append_cons`: links in front that say
    nothing, and links behind one that says something, change nothing;
  * `isTransient_decided`: a chain is as its first decisive link says.
-/
import QueryClient.Proofs.Error.Wrapped

namespace QueryClient

open QueryClient.Text

/-! ## Single links -/

/-- A status of a class whose failures are passing: that of connections, or that of transactions
that are rolled back. -/
def HasPassingClass (status : String) : Prop :=
  "08".toList <+: status.toList ∨ "40".toList <+: status.toList

/-- The errors of the operating system that tell of a connection that is lost or cannot be made. -/
def lostConnectionKinds : List SystemErrorKind :=
  [.connectionReset, .connectionAborted, .timedOut, .connectionRefused, .notFound, .brokenPipe]

/-- The status of a failed statement, or of a report of the server. -/
inductive Link.Carries : Link → String → Prop
  | query (message status : String) : (Link.failure (.query message (some status))).Carries status
  | driver (r : ServerReport) : (Link.driver (.report r)).Carries r.status
  | server (r : ServerReport) : (Link.server r).Carries r.status

/-- What a link says.  With a status it goes by the class; without one, a failure that is neither
of a statement nor of a connection is permanent, and any other link makes the chain transient if it
is a connection that is closed or lost, or if its text names a connection code. -/
inductive Link.Decides : Link → Bool → Prop
  | passing {l : Link} {status : String} (h : l.Carries status) (hclass : HasPassingClass status) :
      l.Decides true
  | lasting {l : Link} {status : String} (h : l.Carries status)
      (hclass : ¬ HasPassingClass status) : l.Decides false
  | permanent {f : Failure} (hquery : f.code ≠ .query) (hconnection : f.code ≠ .connection) :
      (Link.failure f).Decides false
  | closed : (Link.driver .closed).Decides true
  | lost {e : SystemError} (h : e.kind ∈ lostConnectionKinds) : (Link.system e).Decides true
  | text {l : Link} (hstatus : ∀ status, ¬ l.Carries status)
      (hfailure : ∀ f, l = .failure f → f.code = .query ∨ f.code = .connection)
      (h : ∃ mark ∈ connectionMarks, mark.toList <:+: l.message.toList) : l.Decides true

/-- A link that says nothing. -/
def Link.Undecided (l : Link) : Prop := ∀ b, ¬ l.Decides b

section

variable {l : Link} {status : String} {b : Bool}

theorem isTransientStatus_iff : isTransientStatus status ↔ HasPassingClass status := by
  rw [isTransientStatus, Bool.or_eq_true, List.isPrefixOf_iff_prefix, List.isPrefixOf_iff_prefix,
    HasPassingClass]

/-- A link has no other status. -/
theorem status?_eq_some_iff : l.status? = some status ↔ l.Carries status := by
  constructor
  · intro h
    cases l with
    | failure f =>
      cases f with
      | query message status? =>
        cases h
        exact .query message status
      | _ => cases h
    | driver e =>
      cases e with
      | report r =>
        cases h
        exact .driver r
      | _ => cases h
    | server r =>
      cases h
      exact .server r
    | system => cases h
    | other => cases h
  · rintro (_ | _ | _) <;> rfl

theorem status?_eq_none_iff : l.status? = none ↔ ∀ status, ¬ l.Carries status := by
  rw [Option.eq_none_iff_forall_ne_some]
  exact forall_congr' fun status => not_congr status?_eq_some_iff

/-- The text decides for a link that nothing else decides for. -/
theorem decides_of_textVerdict? (hstatus : l.status? = none)
    (hfailure : ∀ f, l = .failure f → f.code = .query ∨ f.code = .connection)
    (h : l.textVerdict? = some b) : l.Decides b := by
  unfold Link.textVerdict? at h
  split_ifs at h with hmentions
  cases h
  exact .text (status?_eq_none_iff.1 hstatus) hfailure (mentionsConnectionCode_iff.1 hmentions)

/-- An error of the operating system has a connection code by its kind or by its text. -/
theorem connectionCode?_isSome_iff {e : SystemError} :
    e.connectionCode?.isSome ↔
      e.kind ∈ lostConnectionKinds ∨ occursIn nameServerText e.message := by
  obtain ⟨kind, text⟩ := e
  cases kind <;> simp [SystemError.connectionCode?, lostConnectionKinds]

/-- An error of the driver is a report, a closed connection, or judged by its text. -/
theorem driver_cases (e : DriverError) : (∃ r, e = .report r) ∨ e = .closed ∨
    (Link.driver e).verdict? = (Link.driver e).textVerdict? ∧ (Link.driver e).status? = none := by
  have hopen : e.isClosed = decide (e = .closed) := rfl
  cases e with
  | report r => exact .inl ⟨r, rfl⟩
  | closed => exact .inr (.inl rfl)
  | _ =>
    refine .inr (.inr ⟨?_, rfl⟩)
    rw [Link.verdict?]
    simp only [DriverError.report?, hopen, reduceCtorEq, decide_false, Bool.false_eq_true, if_false]

/-- A link says what its verdict is. -/
theorem decides_of_verdict? (h : l.verdict? = some b) : l.Decides b := by
  have hclass : ∀ {l : Link} {status : String}, l.Carries status →
      l.Decides (isTransientStatus status) := by
    intro l status hcarries
    cases hstatus : isTransientStatus status with
    | true => exact .passing hcarries (isTransientStatus_iff.1 hstatus)
    | false =>
      exact .lasting hcarries fun hpassing =>
        Bool.false_ne_true (hstatus.symm.trans (isTransientStatus_iff.2 hpassing))
  cases l with
  | failure f =>
    cases f with
    | query message status? =>
      cases status? with
      | some status =>
        cases h
        exact hclass (.query message status)
      | none =>
        rw [Link.verdict?] at h
        exact decides_of_textVerdict? rfl (fun _ hf => by cases hf; exact .inl rfl) h
    | connection message =>
      rw [Link.verdict?] at h
      exact decides_of_textVerdict? rfl (fun _ hf => by cases hf; exact .inr rfl) h
    | _ =>
      cases h
      exact .permanent (fun hcode => by cases hcode) (fun hcode => by cases hcode)
  | driver e =>
    rcases driver_cases e with ⟨r, rfl⟩ | rfl | ⟨htext, hstatus⟩
    · cases h
      exact hclass (.driver r)
    · cases h
      exact .closed
    · exact decides_of_textVerdict? hstatus (fun _ hf => by cases hf) (htext ▸ h)
  | server r =>
    cases h
    exact hclass (.server r)
  | system e =>
    rw [Link.verdict?] at h
    split_ifs at h with hcode
    · cases h
      rcases connectionCode?_isSome_iff.1 hcode with hkind | htext
      · exact .lost hkind
      · exact .text (fun _ hs => by cases hs) (fun _ hf => by cases hf)
          ⟨nameServerText, List.mem_cons_self, hasInfix_iff.1 htext⟩
    · exact decides_of_textVerdict? rfl (fun _ hf => by cases hf) h
  | other text =>
    rw [Link.verdict?] at h
    exact decides_of_textVerdict? rfl (fun _ hf => by cases hf) h

theorem textVerdict?_of_mark (h : ∃ mark ∈ connectionMarks, mark.toList <:+: l.message.toList) :
    l.textVerdict? = some true :=
  if_pos (mentionsConnectionCode_iff.2 h)

/-- A link whose text counts. -/
theorem verdict?_of_text (hstatus : ∀ status, ¬ l.Carries status)
    (hfailure : ∀ f, l = .failure f → f.code = .query ∨ f.code = .connection)
    (h : l.textVerdict? = some true) : l.verdict? = some true := by
  cases l with
  | failure f =>
    cases f with
    | query message status? =>
      cases status? with
      | some status => exact absurd (.query message status) (hstatus status)
      | none => rwa [Link.verdict?]
    | connection message => rwa [Link.verdict?]
    | _ => rcases hfailure _ rfl with hcode | hcode <;> cases hcode
  | driver e =>
    rcases driver_cases e with ⟨r, rfl⟩ | rfl | ⟨htext, -⟩
    · exact absurd (.driver r) (hstatus r.status)
    · rfl
    · exact htext.trans h
  | server r => exact absurd (.server r) (hstatus r.status)
  | system e =>
    rw [Link.verdict?, h]
    split_ifs <;> rfl
  | other text => rwa [Link.verdict?]

/-- **A link says what its verdict is, and nothing else.** -/
theorem verdict?_eq_some_iff : l.verdict? = some b ↔ l.Decides b := by
  refine ⟨decides_of_verdict?, ?_⟩
  rintro (⟨hcarries, hclass⟩ | ⟨hcarries, hclass⟩ | ⟨hquery, hconnection⟩ | _ | hkind |
    ⟨hstatus, hfailure, hmark⟩)
  · rw [verdict?_of_status? (status?_eq_some_iff.2 hcarries), isTransientStatus_iff.2 hclass]
  · rw [verdict?_of_status? (status?_eq_some_iff.2 hcarries),
      Bool.eq_false_iff.2 (mt isTransientStatus_iff.1 hclass)]
  · next f =>
    cases f with
    | query => exact absurd rfl hquery
    | connection => exact absurd rfl hconnection
    | _ => rfl
  · rfl
  · exact if_pos (connectionCode?_isSome_iff.2 (.inl hkind))
  · exact verdict?_of_text hstatus hfailure (textVerdict?_of_mark hmark)

theorem verdict?_eq_none_iff : l.verdict? = none ↔ l.Undecided := by
  rw [Option.eq_none_iff_forall_ne_some]
  exact forall_congr' fun b => not_congr verdict?_eq_some_iff

end

/-! ## Chains -/

section

variable {front chain back : List Link} {l : Link} {b : Bool}

/-- Links in front that say nothing change nothing. -/
theorem isTransient_append_of_undecided (h : ∀ k ∈ front, k.Undecided) (chain : List Link) :
    isTransient (front ++ chain) = isTransient chain := by
  induction front with
  | nil => rfl
  | cons k front ih =>
    rw [List.cons_append, isTransient_cons, verdict?_eq_none_iff.2 (h k List.mem_cons_self)]
    exact ih fun k hk => h k (List.mem_cons_of_mem _ hk)

theorem isTransient_cons_of_decides (h : l.Decides b) (back : List Link) :
    isTransient (l :: back) = b := by
  rw [isTransient_cons, verdict?_eq_some_iff.2 h, Option.getD_some]

/-- Whatever is behind a link that says something does not matter. -/
theorem isTransient_append_cons (h : l.Decides b) (front back back' : List Link) :
    isTransient (front ++ l :: back) = isTransient (front ++ l :: back') := by
  induction front with
  | nil => rw [List.nil_append, List.nil_append, isTransient_cons_of_decides h,
      isTransient_cons_of_decides h]
  | cons k front ih =>
    rw [List.cons_append, List.cons_append, isTransient_cons, isTransient_cons, ih]

/-- A chain has a first link that says something, or none does. -/
theorem exists_first_decisive (chain : List Link) :
    (∃ front l back b, chain = front ++ l :: back ∧ (∀ k ∈ front, k.Undecided) ∧ l.Decides b) ∨
      ∀ k ∈ chain, k.Undecided := by
  induction chain with
  | nil => exact .inr (List.forall_mem_nil _)
  | cons l chain ih =>
    cases hverdict : l.verdict? with
    | some b =>
      exact .inl ⟨[], l, chain, b, rfl, List.forall_mem_nil _, verdict?_eq_some_iff.1 hverdict⟩
    | none =>
      have hl := verdict?_eq_none_iff.1 hverdict
      rcases ih with ⟨front, l', back, b, rfl, hfront, hdecides⟩ | hnone
      · exact .inl ⟨l :: front, l', back, b, rfl, List.forall_mem_cons.2 ⟨hl, hfront⟩, hdecides⟩
      · exact .inr (List.forall_mem_cons.2 ⟨hl, hnone⟩)

/-- What a chain is by the first link that says something. -/
theorem isTransient_eq_iff : isTransient chain = b ↔
    (∃ front l back, chain = front ++ l :: back ∧ (∀ k ∈ front, k.Undecided) ∧ l.Decides b) ∨
      (∀ k ∈ chain, k.Undecided) ∧ b = false := by
  have hnone : (∀ k ∈ chain, k.Undecided) → isTransient chain = false := fun h => by
    have hnil := isTransient_append_of_undecided h []
    rwa [List.append_nil] at hnil
  constructor
  · rintro rfl
    rcases exists_first_decisive chain with ⟨front, l, back, b, rfl, hfront, hdecides⟩ | hundecided
    · refine .inl ⟨front, l, back, rfl, hfront, ?_⟩
      rwa [isTransient_append_of_undecided hfront, isTransient_cons_of_decides hdecides]
    · exact .inr ⟨hundecided, hnone hundecided⟩
  · rintro (⟨front, l, back, rfl, hfront, hdecides⟩ | ⟨hundecided, rfl⟩)
    · rw [isTransient_append_of_undecided hfront, isTransient_cons_of_decides hdecides]
    · exact hnone hundecided

/-- The first status in a chain. -/
theorem firstStatus?_eq_some_iff {status : String} : firstStatus? chain = some status ↔
    ∃ front l back, chain = front ++ l :: back ∧
      (∀ k ∈ front, ∀ status, ¬ k.Carries status) ∧ l.Carries status := by
  rw [firstStatus?, List.findSome?_eq_some_iff]
  simp only [status?_eq_none_iff, status?_eq_some_iff]
  exact exists_congr fun front => exists_congr fun l => exists_congr fun back =>
    and_congr_right fun _ => and_comm

theorem firstStatus?_append_of_none (h : ∀ k ∈ front, ∀ status, ¬ k.Carries status)
    (chain : List Link) : firstStatus? (front ++ chain) = firstStatus? chain := by
  have hnone : front.findSome? Link.status? = none :=
    List.findSome?_eq_none_iff.2 fun k hk => status?_eq_none_iff.2 (h k hk)
  rw [firstStatus?, List.findSome?_append, hnone, Option.none_or, firstStatus?]

theorem firstStatus?_eq_none_iff :
    firstStatus? chain = none ↔ ∀ k ∈ chain, ∀ status, ¬ k.Carries status := by
  rw [firstStatus?, List.findSome?_eq_none_iff]
  exact forall₂_congr fun _ _ => status?_eq_none_iff

/-- An error is judged as a chain, as a failure of another kind is permanent. -/
theorem isRetriable_eq_isTransient (e : Error) : e.isRetriable = isTransient e.chain := by
  obtain ⟨f, causes⟩ := e
  cases f <;> rfl

/-- **The first link that says something decides for the chain**, and without one the chain is
permanent; so links in front that say nothing change nothing, and neither do links behind one that
says something.  The status of a chain is the first that a link has, which links in front without
one do not change. -/
theorem isTransient_decided :
    (∀ chain b, isTransient chain = b ↔
      (∃ front l back, chain = front ++ l :: back ∧ (∀ k ∈ front, k.Undecided) ∧ l.Decides b) ∨
        (∀ k ∈ chain, k.Undecided) ∧ b = false) ∧
    (∀ front chain, (∀ k ∈ front, k.Undecided) → isTransient (front ++ chain) = isTransient chain) ∧
    (∀ front l b back back', l.Decides b →
      isTransient (front ++ l :: back) = isTransient (front ++ l :: back')) ∧
    (∀ e : Error, e.isRetriable = isTransient e.chain) ∧
    (∀ chain status, firstStatus? chain = some status ↔
      ∃ front l back, chain = front ++ l :: back ∧
        (∀ k ∈ front, ∀ status, ¬ k.Carries status) ∧ l.Carries status) ∧
    (∀ chain, firstStatus? chain = none ↔ ∀ k ∈ chain, ∀ status, ¬ k.Carries status) ∧
    (∀ front chain, (∀ k ∈ front, ∀ status, ¬ k.Carries status) →
      firstStatus? (front ++ chain) = firstStatus? chain) :=
  ⟨fun _ _ => isTransient_eq_iff,
    fun _ chain hfront => isTransient_append_of_undecided hfront chain,
    fun front _ _ back back' hl => isTransient_append_cons hl front back back',
    isRetriable_eq_isTransient, fun _ _ => firstStatus?_eq_some_iff,
    fun _ => firstStatus?_eq_none_iff,
    fun _ chain hfront => firstStatus?_append_of_none hfront chain⟩

/-- A connection timed out behind words that say nothing; what is behind it, a duplicate key, does
not count, though its status is the first. -/
theorem isTransient_decided_of_timedOut :
    (Link.other "not sent").Undecided ∧ (Link.system ⟨.timedOut, none⟩).Decides true ∧
    isTransient ([.other "not sent"] ++ .system ⟨.timedOut, none⟩ ::
      [.failure (.query "duplicate key" (some "23505"))]) = true ∧
    firstStatus? [.other "not sent", .system ⟨.timedOut, none⟩,
      .failure (.query "duplicate key" (some "23505"))] = some "23505" := by
  have hwords : (Link.other "not sent").Undecided := verdict?_eq_none_iff.1 (by decide)
  have hlost : (Link.system ⟨.timedOut, none⟩).Decides true := .lost (by decide)
  refine ⟨hwords, hlost, ?_, ?_⟩
  · exact (isTransient_decided.1 _ true).2
      (.inl ⟨_, _, _, rfl, List.forall_mem_singleton.2 hwords, hlost⟩)
  · refine (isTransient_decided.2.2.2.2.1 _ "23505").2
      ⟨[.other "not sent", .system ⟨.timedOut, none⟩], _, [], rfl, ?_, .query _ _⟩
    have hnone : ∀ k ∈ [Link.other "not sent", .system ⟨.timedOut, none⟩], k.status? = none := by
      decide
    exact fun k hk => status?_eq_none_iff.1 (hnone k hk)

end

end QueryClient
