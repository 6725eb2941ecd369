/-
  What becomes of the verdict on an error when it is wrapped.

  * `isTransient_cons`: a chain is judged by its first link, or by the rest if that decides nothing;
  * `decisive?` is the link that decides, and `isTransient_of_decisive?` what it decides;
  * `isRetriable_ofThrown_connection` and `isRetriable_ofThrown_query`: the verdict on an error that
    was wrapped, which has the text of the error inside and, if it is one of a statement, the first
    status in the chain;
  * `wrapped_verdict`: the verdict stays unless a status is brought forward past a link that
    decides.
-/
import QueryClient.Proofs.Error.Mentions

namespace QueryClient

open QueryClient.Text

/-! ## Chains -/

section

variable {l : Link} {chain rest : List Link} {status : String}

/-- A chain is judged by its first link, or by the rest if that decides nothing. -/
theorem isTransient_cons : isTransient (l :: rest) = l.verdict?.getD (isTransient rest) := by
  rw [isTransient, List.findSome?_cons]
  cases l.verdict? <;> rfl

/-- A status decides. -/
theorem verdict?_of_status? (h : l.status? = some status) :
    l.verdict? = some (isTransientStatus status) := by
  cases l with
  | failure f =>
    cases f with
    | query message status? =>
      cases h
      rfl
    | _ => cases h
  | driver e =>
    cases e with
    | report r =>
      cases h
      rfl
    | _ => cases h
  | server r =>
    cases h
    rfl
  | system => cases h
  | other => cases h

theorem textVerdict?_eq_none_iff :
    l.textVerdict? = none ↔ mentionsConnectionCode l.message = false := by
  unfold Link.textVerdict?
  split_ifs with h
  · exact iff_of_false nofun fun hfalse => Bool.false_ne_true (hfalse.symm.trans h)
  · exact iff_of_true rfl (Bool.eq_false_iff.2 h)

/-- A link that decides nothing names no connection code. -/
theorem mentions_eq_false_of_verdict? (h : l.verdict? = none) :
    mentionsConnectionCode l.message = false := by
  refine textVerdict?_eq_none_iff.1 ?_
  unfold Link.verdict? at h
  split at h
  · cases h
  · exact h
  · exact h
  · cases h
  · split at h
    · cases h
    · split_ifs at h
      exact h
  · cases h
  · split_ifs at h
    exact h
  · exact h

/-- The link that decides for a chain. -/
def decisive? (chain : List Link) : Option Link :=
  chain.find? fun l => l.verdict?.isSome

theorem isTransient_of_decisive? (h : decisive? chain = some l) :
    isTransient chain = l.verdict?.getD false := by
  induction chain with
  | nil => cases h
  | cons first rest ih =>
    rw [isTransient_cons]
    rw [decisive?, List.find?_cons] at h
    cases hverdict : first.verdict? with
    | none =>
      rw [hverdict] at h
      exact ih h
    | some b =>
      rw [hverdict] at h
      cases h
      rw [hverdict]
      rfl

/-- The status of the link that decides is the first one. -/
theorem firstStatus?_of_decisive? (h : decisive? chain = some l) (hl : l.status? = some status) :
    firstStatus? chain = some status := by
  induction chain with
  | nil => cases h
  | cons first rest ih =>
    rw [decisive?, List.find?_cons] at h
    rw [firstStatus?, List.findSome?_cons]
    cases hverdict : first.verdict? with
    | none =>
      rw [hverdict] at h
      cases hstatus : first.status? with
      | none => exact ih h
      | some s => cases hverdict.symm.trans (verdict?_of_status? hstatus)
    | some b =>
      rw [hverdict] at h
      cases h
      rw [hl]

end

/-! ## Wrapping -/

/-- A link that decides against its own text: permanent, though the text names a connection code. -/
def Link.Belied (l : Link) : Prop :=
  l.verdict? = some false ∧ mentionsConnectionCode l.message

section

variable {thrown : Link} {rest : List Link} {fallback : String}

/-- The text of a first link counts as the link does, unless it is belied. -/
theorem mentions_or_isTransient (h : ¬ thrown.Belied) :
    (mentionsConnectionCode thrown.message || isTransient (thrown :: rest)) =
      isTransient (thrown :: rest) := by
  rw [isTransient_cons]
  cases hverdict : thrown.verdict? with
  | none => rw [mentions_eq_false_of_verdict? hverdict, Bool.false_or]
  | some b =>
    cases b with
    | true => rw [Option.getD_some, Bool.or_true]
    | false =>
      have hplain : mentionsConnectionCode thrown.message = false :=
        Bool.eq_false_iff.2 fun hmentions => h ⟨hverdict, hmentions⟩
      rw [hplain, Bool.false_or]

/-- The text that a wrapped error has names a code if that of the error inside does. -/
theorem mentions_message_ofThrown (hfallback : mentionsConnectionCode fallback = false)
    (text : String) :
    mentionsConnectionCode (if (trim text).isEmpty then fallback else text) =
      mentionsConnectionCode text := by
  split_ifs with hblank
  · rw [hfallback, ← mentionsConnectionCode_trim text, String.isEmpty_iff.1 hblank]
    decide
  · rfl

theorem textVerdict?_getD (l : Link) (b : Bool) :
    l.textVerdict?.getD b = (mentionsConnectionCode l.message || b) := by
  unfold Link.textVerdict?
  cases mentionsConnectionCode l.message <;> rfl

/-- An error of a connection is judged by its text, then by the chain inside. -/
theorem isRetriable_ofThrown_connection (hfallback : mentionsConnectionCode fallback = false) :
    (Error.ofThrown .connection fallback thrown rest).isRetriable =
      (mentionsConnectionCode thrown.message || isTransient (thrown :: rest)) := by
  have hwords : 'E' ∉ "Connection error: ".toList ∧ 'T' ∉ "Connection error: ".toList := by decide
  set message := if (trim thrown.message).isEmpty then fallback else thrown.message with hmessage
  calc (Error.ofThrown .connection fallback thrown rest).isRetriable
      = isTransient (.failure (.connection message) :: thrown :: rest) := rfl
    _ = (mentionsConnectionCode ("Connection error: " ++ message) ||
          isTransient (thrown :: rest)) := by
        rw [isTransient_cons, Link.verdict?, textVerdict?_getD]
        rfl
    _ = (mentionsConnectionCode thrown.message || isTransient (thrown :: rest)) := by
        rw [mentionsConnectionCode_append hwords, hmessage, mentions_message_ofThrown hfallback]

/-- An error of a statement is judged by the first status, and without one by its text, then by the
chain inside. -/
theorem isRetriable_ofThrown_query (hfallback : mentionsConnectionCode fallback = false) :
    (Error.ofThrown .query fallback thrown rest).isRetriable =
      ((firstStatus? (thrown :: rest)).map isTransientStatus).getD
        (mentionsConnectionCode thrown.message || isTransient (thrown :: rest)) := by
  have hwords : 'E' ∉ "Query error: ".toList ∧ 'T' ∉ "Query error: ".toList := by decide
  set message := if (trim thrown.message).isEmpty then fallback else thrown.message with hmessage
  have hchain : (Error.ofThrown .query fallback thrown rest).isRetriable =
      isTransient (.failure (.query message (firstStatus? (thrown :: rest))) ::
        thrown :: rest) := rfl
  rw [hchain, isTransient_cons]
  cases firstStatus? (thrown :: rest) with
  | some status => rfl
  | none =>
    calc (Link.failure (.query message none)).textVerdict?.getD (isTransient (thrown :: rest))
        = (mentionsConnectionCode ("Query error: " ++ message) ||
            isTransient (thrown :: rest)) := textVerdict?_getD _ _
      _ = (mentionsConnectionCode thrown.message || isTransient (thrown :: rest)) := by
          rw [mentionsConnectionCode_append hwords, hmessage, mentions_message_ofThrown hfallback]

/-- **Wrapping an error keeps the verdict on it, unless a status is brought forward.**  As an error
of a statement the wrapped error has the first status in the chain, and is judged by it; that is the
verdict on the chain if the link that decides there has a status. -/
theorem wrapped_verdict (hfallback : mentionsConnectionCode fallback = false) :
    (¬ thrown.Belied → (Error.ofThrown .connection fallback thrown rest).isRetriable =
      isTransient (thrown :: rest)) ∧
    (firstStatus? (thrown :: rest) = none → ¬ thrown.Belied →
      (Error.ofThrown .query fallback thrown rest).isRetriable = isTransient (thrown :: rest)) ∧
    (∀ status, firstStatus? (thrown :: rest) = some status →
      (Error.ofThrown .query fallback thrown rest).isRetriable = isTransientStatus status) ∧
    ∀ link ∈ decisive? (thrown :: rest), link.status?.isSome →
      (Error.ofThrown .query fallback thrown rest).isRetriable = isTransient (thrown :: rest) := by
  have hstatus : ∀ status, firstStatus? (thrown :: rest) = some status →
      (Error.ofThrown .query fallback thrown rest).isRetriable = isTransientStatus status := by
    intro status h
    rw [isRetriable_ofThrown_query hfallback, h]
    rfl
  refine ⟨fun hbelied => ?_, fun hnone hbelied => ?_, hstatus, fun link hlink hsome => ?_⟩
  · rw [isRetriable_ofThrown_connection hfallback, mentions_or_isTransient hbelied]
  · rw [isRetriable_ofThrown_query hfallback, hnone, mentions_or_isTransient hbelied]
    rfl
  · obtain ⟨status, hlinkStatus⟩ := Option.isSome_iff_exists.1 hsome
    rw [hstatus status (firstStatus?_of_decisive? hlink hlinkStatus),
      isTransient_of_decisive? hlink, verdict?_of_status? hlinkStatus]
    rfl

/-- A broken pipe behind words, a serialization failure behind words, and one behind a transaction
that failed of it. -/
theorem wrapped_verdict_of_failures :
    (Error.ofThrown .connection "failed" (.other "not sent")
      [.system ⟨.brokenPipe, none⟩]).isRetriable =
      isTransient [.other "not sent", .system ⟨.brokenPipe, none⟩] ∧
    (Error.ofThrown .query "failed" (.other "not sent") [.system ⟨.brokenPipe, none⟩]).isRetriable =
      isTransient [.other "not sent", .system ⟨.brokenPipe, none⟩] ∧
    (Error.ofThrown .query "failed" (.failure (.transaction "undone"))
      [.failure (.query "not serialized" (some "40001"))]).isRetriable =
      isTransientStatus "40001" ∧
    (Error.ofThrown .query "failed" (.other "not done")
      [.failure (.query "not serialized" (some "40001"))]).isRetriable =
      isTransient [.other "not done", .failure (.query "not serialized" (some "40001"))] := by
  have hfallback : mentionsConnectionCode "failed" = false := by decide
  have hbelied : ¬ (Link.other "not sent").Belied := fun h => by cases h.1
  exact ⟨(wrapped_verdict hfallback).1 hbelied, (wrapped_verdict hfallback).2.1 rfl hbelied,
    (wrapped_verdict hfallback).2.2.1 _ rfl, (wrapped_verdict hfallback).2.2.2 _ rfl rfl⟩

/-- A transaction that failed is permanent, but not as an error of the statement that it failed of;
a lost connection is passing, but not as an error of the statement that is behind it.  A refusal
that quotes a connection code is permanent, but not under a text of its own. -/
theorem wrapping_changes_verdict :
    mentionsConnectionCode "failed" = false ∧
    (isTransient [.failure (.transaction "undone"),
        .failure (.query "not serialized" (some "40001"))] = false ∧
      (Error.ofThrown .query "failed" (.failure (.transaction "undone"))
        [.failure (.query "not serialized" (some "40001"))]).isRetriable = true) ∧
    (isTransient [.other "read ECONNRESET", .failure (.query "duplicate key" (some "23505"))] =
        true ∧
      (Error.ofThrown .query "failed" (.other "read ECONNRESET")
        [.failure (.query "duplicate key" (some "23505"))]).isRetriable = false) ∧
    isTransient [.failure (.validation "EPIPE")] = false ∧
    (Error.ofThrown .query "failed" (.failure (.validation "EPIPE")) []).isRetriable = true ∧
    (Error.ofThrown .connection "failed" (.failure (.validation "EPIPE")) []).isRetriable =
      true := by
  decide

end

end QueryClient
