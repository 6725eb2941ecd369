/-
  Texts that look like credentials, by patterns.

  * `openSecrets` are the patterns of secrets that stand anywhere in a text, at a word boundary, and
    `wholeSecrets` those of secrets that make up a text;
  * `hasSecret_iff`, `isLongHex_iff` and `isLongBase64_iff`: what is looked for are these patterns;
  * `looksSecret_surrounded`: a secret of the first kind is found whatever stands around it, if no
    word goes on into it.
-/
import QueryClient.Proofs.Statement.Characters
import QueryClient.Proofs.Text.Letters
import QueryClient.Proofs.Text.Pattern
import Mathlib.Data.List.TakeDrop
import Mathlib.Data.List.TakeWhile

namespace QueryClient.Text

open Pattern

/-! ## The patterns -/

/-- A word in any case. -/
def caseless (word : String) : Pattern := spelled (fun c w => foldCase c = w) word.toList

/-- A segment of a signed token, with the point after it. -/
def segment : Pattern := row [chars isUrlSafe 1 none, one (· = '.')]

def signedToken : Pattern :=
  row [spelled (fun c w => c = w) "eyJ".toList, segment, segment, chars isUrlSafe 0 none]

def bearerToken : Pattern :=
  row [caseless "bearer", chars isBlank 1 none, chars isTokenChar 8 none]

/-- A kind of key, and the word key, with at most one mark between them. -/
def keyOf (word : String) : Pattern :=
  row [caseless word, chars (· ∈ ['_', '-']) 0 (some 1), caseless "key"]

def keyword : Pattern :=
  anyOf (["password", "passwd", "pwd", "secret", "token"].map caseless ++
    ["api", "access", "private"].map keyOf)

/-- A key word with a value after it. -/
def secretPair : Pattern :=
  row [keyword, chars isBlank 0 none, one fun c => c = '=' || c = ':']

def longHex : Pattern := chars (fun c => (hexValue? c).isSome) 32 none

def longBase64 : Pattern := row [chars isBase64 40 none, chars (· = '=') 0 (some 2)]

/-- The secrets that stand anywhere in a text. -/
def openSecrets : List Pattern := [signedToken, bearerToken, secretPair].map (seq wordBoundary)

/-- The secrets that make up a text. -/
def wholeSecrets : List Pattern := [longHex, longBase64].map whole

section
variable {cs rest : List Char} {c : Char}

/-! ## Words -/

theorem not_isBlank_of_isTokenChar (h : isTokenChar c) : ¬ isBlank c := by
  have hmarks : ['.', '_', '~', '+', '/', '=', '-'].all fun c => !isBlank c := by decide
  rcases Bool.or_eq_true_iff.1 h with h | h
  · exact (isWord_of_foldCase h).2
  · simpa using List.all_eq_true.1 hmarks c (of_decide_eq_true h)

theorem leaves_exactly {word : List Char} :
    (spelled (fun c w => c = w) word).Leaves cs rest ↔ cs = word ++ rest := by
  induction word generalizing cs with
  | nil => exact leaves_nothing
  | cons w word ih =>
    rw [spelled, leaves_seq rfl (isPlain_spelled _ _)]
    simp only [leaves_one, ih, decide_eq_true_eq]
    constructor
    · rintro ⟨_, ⟨c, rfl, rfl⟩, rfl⟩
      rfl
    · rintro rfl
      exact ⟨_, ⟨w, rfl, rfl⟩, rfl⟩

theorem afterWord?_eq_some_iff {word : List Char} : afterWord? word cs = some rest ↔
    (spelled (fun c w => foldCase c = w) word).Leaves cs rest := by
  induction word generalizing cs with
  | nil => exact Option.some_inj.trans leaves_nothing.symm
  | cons w word ih =>
    rw [spelled, leaves_seq rfl (isPlain_spelled _ _)]
    simp only [leaves_one, decide_eq_true_eq, ← ih]
    cases cs with
    | nil => simp [afterWord?]
    | cons c cs =>
      rw [afterWord?]
      constructor
      · intro h
        obtain ⟨hc, h⟩ := Option.ite_none_right_eq_some.1 h
        exact ⟨cs, ⟨c, hc, rfl⟩, h⟩
      · rintro ⟨_, ⟨_, hc, he⟩, h⟩
        cases he
        exact (if_pos hc).trans h

theorem afterWord?_append (v w : List Char) :
    afterWord? (v ++ w) cs = (afterWord? v cs).bind (afterWord? w) := by
  induction v generalizing cs with
  | nil => rfl
  | cons c v ih =>
    cases cs with
    | nil => rfl
    | cons d cs =>
      rw [List.cons_append, afterWord?, afterWord?, ih]
      split_ifs <;> rfl

/-! ## Runs of a class -/

/-- What stops where a class ends is left by as many of its characters as there are. -/
theorem leaves_chars_iff {q : Char → Bool} {n : ℕ} (hstop : ∀ c ∈ rest.head?, ¬ q c) :
    (chars q n none).Leaves cs rest ↔ n ≤ (cs.takeWhile q).length ∧ cs.dropWhile q = rest := by
  constructor
  · rintro ⟨found, rfl, hn, -, hq⟩
    rw [takeWhile_append_of_stop hq hstop, dropWhile_append_of_stop hq hstop]
    exact ⟨hn, rfl⟩
  · rintro ⟨hn, rfl⟩
    exact ⟨_, List.takeWhile_append_dropWhile.symm, hn, nofun,
      fun c hc => List.mem_takeWhile_imp hc⟩

/-- Where nothing is asked for afterwards, a run of a class may be as long as there are
characters. -/
theorem exists_leaves_chars_iff {q : Char → Bool} {n : ℕ} :
    (∃ rest, (chars q n none).Leaves cs rest) ↔ n ≤ (cs.takeWhile q).length := by
  constructor
  · rintro ⟨rest, found, rfl, hn, -, hq⟩
    rw [List.takeWhile_append_of_pos hq, List.length_append]
    exact Nat.le_add_right_of_le hn
  · intro hn
    exact ⟨cs.dropWhile q, _, List.takeWhile_append_dropWhile.symm, hn, nofun,
      fun c hc => List.mem_takeWhile_imp hc⟩

/-! ## Secrets at a place -/

theorem afterSegment?_eq_some_iff : afterSegment? cs = some rest ↔ segment.Leaves cs rest := by
  have hstop : ∀ c ∈ ('.' :: rest).head?, ¬ isUrlSafe c := by
    rintro c ⟨⟩
    decide
  rw [segment, leaves_row (by simp)]
  simp only [LeaveInTurn, leaves_one, decide_eq_true_eq, exists_eq_left, exists_eq_right,
    leaves_chars_iff hstop]
  rw [afterSegment?, List.span_eq_takeWhile_dropWhile]
  constructor
  · intro h
    split at h
    · next he =>
      obtain ⟨htake, hdrop⟩ := Prod.mk.inj he
      cases h
      rw [htake, hdrop]
      exact ⟨Nat.succ_pos _, rfl⟩
    · cases h
  · rintro ⟨hpos, hdrop⟩
    obtain ⟨c, front, htake⟩ := List.exists_cons_of_length_pos hpos
    simp only [htake, hdrop]

theorem startsSignedToken_iff : startsSignedToken cs ↔ ∃ rest, signedToken.Leaves cs rest := by
  have hsteps : (∃ rest, signedToken.Leaves cs rest) ↔ ∃ front mid rest,
      cs = "eyJ".toList ++ front ∧ afterSegment? front = some mid ∧
        afterSegment? mid = some rest := by
    have hrow : ∀ rest, signedToken.Leaves cs rest ↔
        LeaveInTurn [spelled (fun c w => c = w) "eyJ".toList, segment, segment,
          chars isUrlSafe 0 none] cs rest :=
      fun rest => leaves_row (by simp [segment])
    simp only [hrow, LeaveInTurn, leaves_exactly, ← afterSegment?_eq_some_iff, exists_eq_right]
    constructor
    · rintro ⟨_, front, hfront, mid, hmid, rest, hrest, -⟩
      exact ⟨front, mid, rest, hfront, hmid, hrest⟩
    · rintro ⟨front, mid, rest, hfront, hmid, hrest⟩
      obtain ⟨last, hlast⟩ :=
        exists_leaves_chars_iff.2 (Nat.zero_le (rest.takeWhile isUrlSafe).length)
      exact ⟨last, front, hfront, mid, hmid, rest, hrest, hlast⟩
  rw [hsteps]
  constructor
  · intro h
    unfold startsSignedToken at h
    split at h
    · next front =>
      obtain ⟨rest, h⟩ := Option.isSome_iff_exists.1 h
      obtain ⟨mid, hmid, hrest⟩ := Option.bind_eq_some_iff.1 h
      exact ⟨front, mid, rest, rfl, hmid, hrest⟩
    · cases h
  · rintro ⟨front, mid, rest, rfl, hmid, hrest⟩
    have hfront : (afterSegment? front).bind afterSegment? = some rest :=
      Option.bind_eq_some_iff.2 ⟨mid, hmid, hrest⟩
    exact Option.isSome_iff_exists.2 ⟨rest, hfront⟩

theorem startsBearerToken_iff : startsBearerToken cs ↔ ∃ rest, bearerToken.Leaves cs rest := by
  have hsteps : (∃ rest, bearerToken.Leaves cs rest) ↔ ∃ front mid,
      afterWord? "bearer".toList cs = some front ∧ (chars isBlank 1 none).Leaves front mid ∧
        8 ≤ (mid.takeWhile isTokenChar).length := by
    have hrow : ∀ rest, bearerToken.Leaves cs rest ↔ LeaveInTurn
        [caseless "bearer", chars isBlank 1 none, chars isTokenChar 8 none] cs rest :=
      fun rest => leaves_row (by simp [caseless])
    simp only [hrow, LeaveInTurn, caseless, ← afterWord?_eq_some_iff, exists_eq_right,
      ← exists_leaves_chars_iff]
    constructor
    · rintro ⟨rest, front, hfront, mid, hmid, hrest⟩
      exact ⟨front, mid, hfront, hmid, rest, hrest⟩
    · rintro ⟨front, mid, hfront, hmid, rest, hrest⟩
      exact ⟨rest, front, hfront, mid, hmid, hrest⟩
  -- a blank is no character of a token, so that all blanks stand before the token
  have hblanks : ∀ front mid, 8 ≤ (mid.takeWhile isTokenChar).length →
      ((chars isBlank 1 none).Leaves front mid ↔
        1 ≤ (front.takeWhile isBlank).length ∧ front.dropWhile isBlank = mid) := by
    intro front mid hmid
    refine leaves_chars_iff fun c hc => not_isBlank_of_isTokenChar ?_
    cases mid with
    | nil => cases hc
    | cons d mid =>
      cases hc
      by_contra hd
      rw [List.takeWhile_cons_of_neg hd] at hmid
      exact absurd hmid (by decide)
  rw [hsteps]
  constructor
  · intro h
    unfold startsBearerToken at h
    split at h
    · next c front hfront =>
      obtain ⟨hc, hlong⟩ := Bool.and_eq_true_iff.1 h
      have hlong := of_decide_eq_true hlong
      refine ⟨c :: front, _, hfront, (hblanks _ _ hlong).2 ⟨?_, ?_⟩, hlong⟩
      · rw [List.takeWhile_cons_of_pos hc]
        exact Nat.succ_pos _
      · rw [List.dropWhile_cons_of_pos hc]
    · cases h
  · rintro ⟨front, mid, hfront, hmid, hlong⟩
    obtain ⟨hpos, rfl⟩ := (hblanks _ _ hlong).1 hmid
    cases front with
    | nil => cases hpos
    | cons c front =>
      by_cases hc : isBlank c
      · rw [List.dropWhile_cons_of_pos hc] at hlong
        simp only [startsBearerToken, hfront, hc, hlong, decide_true, Bool.and_self]
      · rw [List.takeWhile_cons_of_neg hc] at hpos
        cases hpos

theorem afterWord?_mark {mark : Char} (hmark : mark ∈ ['_', '-']) :
    afterWord? [mark] cs = some rest ↔ cs = mark :: rest := by
  rw [afterWord?_eq_some_iff, spelled, leaves_seq rfl rfl]
  simp only [leaves_one, spelled, leaves_nothing, decide_eq_true_eq, foldCase_eq_mark hmark,
    exists_eq_left, exists_eq_right]

/-- At most one mark is one of the words for it. -/
theorem leaves_mark_iff : (chars (· ∈ ['_', '-']) 0 (some 1)).Leaves cs rest ↔
    ∃ mark ∈ ["", "_", "-"], afterWord? mark.toList cs = some rest := by
  have hsome : (∃ mark ∈ ["", "_", "-"], afterWord? mark.toList cs = some rest) ↔
      cs = rest ∨ cs = '_' :: rest ∨ cs = '-' :: rest := by
    simp only [List.mem_cons, List.not_mem_nil, or_false, exists_eq_or_imp, exists_eq_left]
    refine or_congr Option.some_inj (or_congr ?_ ?_)
    · exact afterWord?_mark (by decide)
    · exact afterWord?_mark (by decide)
  rw [hsome]
  constructor
  · rintro ⟨found, rfl, -, hmost, hmarks⟩
    cases found with
    | nil => exact Or.inl rfl
    | cons c tail =>
      obtain rfl := List.eq_nil_of_length_eq_zero
        (Nat.le_zero.1 (Nat.le_of_succ_le_succ (hmost 1 rfl)))
      have hc : c = '_' ∨ c = '-' := by simpa using hmarks c (List.mem_singleton_self c)
      rcases hc with rfl | rfl
      · exact Or.inr (Or.inl rfl)
      · exact Or.inr (Or.inr rfl)
  · rintro (rfl | rfl | rfl)
    · exact ⟨[], rfl, Nat.le_refl 0, fun _ _ => Nat.zero_le _, nofun⟩
    · exact ⟨['_'], rfl, by simp, by simp, by simp⟩
    · exact ⟨['-'], rfl, by simp, by simp, by simp⟩

/-- Between the two words of a key there is one of the marks, or nothing. -/
theorem leaves_keyOf_iff {word : String} : (keyOf word).Leaves cs rest ↔
    ∃ mark ∈ ["", "_", "-"], afterWord? (word ++ mark ++ "key").toList cs = some rest := by
  have hrow : (keyOf word).Leaves cs rest ↔ LeaveInTurn
      [caseless word, chars (· ∈ ['_', '-']) 0 (some 1), caseless "key"] cs rest :=
    leaves_row (by simp [caseless])
  simp only [hrow, LeaveInTurn, caseless, ← afterWord?_eq_some_iff, leaves_mark_iff,
    exists_eq_right, String.toList_append, afterWord?_append, Option.bind_eq_some_iff]
  constructor
  · rintro ⟨front, hfront, back, ⟨mark, hmark, hback⟩, hkey⟩
    exact ⟨mark, hmark, back, ⟨front, hfront, hback⟩, hkey⟩
  · rintro ⟨mark, hmark, back, ⟨front, hfront, hback⟩, hkey⟩
    exact ⟨front, hfront, back, ⟨mark, hmark, hback⟩, hkey⟩

theorem leaves_keyword_iff :
    keyword.Leaves cs rest ↔ ∃ word ∈ secretWords, afterWord? word.toList cs = some rest := by
  rw [keyword, leaves_anyOf, secretWords]
  simp only [List.mem_append, List.mem_map, List.mem_flatMap, or_and_right, exists_or]
  refine or_congr ?_ ?_
  · simp only [exists_exists_and_eq_and, caseless, ← afterWord?_eq_some_iff]
  · simp only [exists_exists_and_eq_and, leaves_keyOf_iff]
    constructor
    · rintro ⟨word, hword, mark, hmark, h⟩
      exact ⟨word ++ mark ++ "key", ⟨word, hword, mark, hmark, rfl⟩, h⟩
    · rintro ⟨_, ⟨word, hword, mark, hmark, rfl⟩, h⟩
      exact ⟨word, hword, mark, hmark, h⟩

theorem startsSecretPair_iff : startsSecretPair cs ↔ ∃ rest, secretPair.Leaves cs rest := by
  have hplain : keyword.isPlain := by simp [keyword, keyOf, caseless]
  have hrow : ∀ rest, secretPair.Leaves cs rest ↔ LeaveInTurn
      [keyword, chars isBlank 0 none, one fun c => c = '=' || c = ':'] cs rest :=
    fun rest => leaves_row (by simp [hplain])
  -- neither sign is a blank, so that all blanks stand before it
  have hblanks : ∀ front c rest, (c = '=' ∨ c = ':') →
      ((chars isBlank 0 none).Leaves front (c :: rest) ↔ front.dropWhile isBlank = c :: rest) := by
    intro front c rest hc
    have hstop : ∀ d ∈ (c :: rest).head?, ¬ isBlank d := by
      rintro d ⟨⟩
      rcases hc with rfl | rfl <;> decide
    rw [leaves_chars_iff hstop]
    exact and_iff_right (Nat.zero_le _)
  rw [startsSecretPair, List.any_eq_true]
  simp only [hrow, LeaveInTurn, leaves_keyword_iff, leaves_one, exists_eq_right]
  constructor
  · rintro ⟨word, hword, h⟩
    split at h
    · next c rest hafter =>
      obtain ⟨front, hfront, hdrop⟩ := Option.map_eq_some_iff.1 hafter
      exact ⟨rest, front, ⟨word, hword, hfront⟩, c :: rest,
        (hblanks front c rest (by simpa using h)).2 hdrop, c, h, rfl⟩
    · cases h
  · rintro ⟨rest, front, ⟨word, hword, hfront⟩, _, hmid, c, hc, rfl⟩
    have hdrop := (hblanks front c rest (by simpa using hc)).1 hmid
    refine ⟨word, hword, ?_⟩
    rw [hfront, Option.map_some, hdrop]
    exact hc

/-! ## Secrets somewhere in a text -/

/-- The patterns of secrets ask for characters only. -/
theorem isPlain_of_mem {p : Pattern} (hp : p ∈ [signedToken, bearerToken, secretPair]) :
    p.isPlain ∧ 0 < p.least := by
  revert p
  decide +kernel

theorem startsSecret_iff : startsSecret cs ↔
    ∃ p ∈ [signedToken, bearerToken, secretPair], ∃ rest, p.Leaves cs rest := by
  simp only [startsSecret, Bool.or_eq_true, or_assoc, startsSignedToken_iff,
    startsBearerToken_iff, startsSecretPair_iff, List.mem_cons, List.not_mem_nil, or_false,
    exists_eq_or_imp, exists_eq_left]

/-- What begins with a word in some case begins with a word character. -/
theorem startsWord_of_afterWord? {word : List Char} (hw : word.head?.any Char.isAlphanum)
    (h : afterWord? word cs = some rest) : startsWord cs := by
  cases word with
  | nil => cases hw
  | cons w word =>
    cases cs with
    | nil => cases h
    | cons c cs =>
      obtain ⟨hc, -⟩ := Option.ite_none_right_eq_some.1 h
      exact (isWord_of_foldCase (hc ▸ hw)).1

/-- Every secret begins with a word character. -/
theorem startsWord_of_startsSecret (h : startsSecret cs) : startsWord cs := by
  rcases Bool.or_eq_true_iff.1 h with h | h
  · rcases Bool.or_eq_true_iff.1 h with h | h
    · unfold startsSignedToken at h
      split at h
      · exact (by decide +kernel : isWord 'e')
      · cases h
    · unfold startsBearerToken at h
      split at h
      · next hafter => exact startsWord_of_afterWord? (by decide) hafter
      · cases h
  · have hwords : secretWords.all fun word => word.toList.head?.any Char.isAlphanum := by decide
    obtain ⟨word, hword, h⟩ := List.any_eq_true.1 h
    split at h
    · next hafter =>
      obtain ⟨_, hafter, -⟩ := Option.map_eq_some_iff.1 hafter
      exact startsWord_of_afterWord? (List.all_eq_true.1 hwords word hword) hafter
    · cases h

/-- Looking for secrets from a place on finds those that no word goes on into. -/
theorem hasSecret_eq_true_iff {inWord : Bool} : hasSecret inWord cs ↔ ∃ before rest,
    cs = before ++ rest ∧ (before.getLast?.map isWord).getD inWord = false ∧
      startsSecret rest := by
  induction cs generalizing inWord with
  | nil =>
    refine ⟨fun h => (nomatch h), ?_⟩
    rintro ⟨before, rest, he, -, h⟩
    obtain ⟨-, rfl⟩ := List.append_eq_nil_iff.1 he.symm
    exact absurd h (by decide)
  | cons c cs ih =>
    have hlast : ∀ before : List Char, ((c :: before).getLast?.map isWord).getD inWord =
        (before.getLast?.map isWord).getD (isWord c) := by
      intro before
      rw [List.getLast?_cons]
      cases before.getLast? <;> rfl
    rw [hasSecret, Bool.or_eq_true, Bool.and_eq_true, ih]
    constructor
    · rintro (⟨hin, h⟩ | ⟨before, rest, rfl, hbefore, h⟩)
      · exact ⟨[], c :: cs, rfl, by simpa using hin, h⟩
      · exact ⟨c :: before, rest, rfl, (hlast before).trans hbefore, h⟩
    · rintro ⟨before, rest, he, hbefore, h⟩
      cases before with
      | nil =>
        obtain rfl : c :: cs = rest := he
        exact Or.inl ⟨by simpa using hbefore, h⟩
      | cons d before =>
        obtain ⟨rfl, rfl⟩ := List.cons.inj he
        exact Or.inr ⟨before, rest, rfl, (hlast before).symm.trans hbefore, h⟩

/-- **The secrets that stand anywhere in a text** are looked for by their patterns. -/
theorem hasSecret_iff : hasSecret false cs ↔ ∃ p ∈ openSecrets, p.Occurs cs := by
  have hoccurs : (∃ p ∈ openSecrets, p.Occurs cs) ↔ ∃ before rest, cs = before ++ rest ∧
      endsWord before ≠ startsWord rest ∧ startsSecret rest := by
    simp only [openSecrets, List.mem_map, exists_exists_and_eq_and, startsSecret_iff]
    constructor
    · rintro ⟨p, hp, h⟩
      obtain ⟨before, rest, after, hcs, hboundary, hrest⟩ :=
        (occurs_seq_wordBoundary (isPlain_of_mem hp).1).1 h
      exact ⟨before, rest, hcs, hboundary, p, hp, after, hrest⟩
    · rintro ⟨before, rest, hcs, hboundary, p, hp, after, hrest⟩
      exact ⟨p, hp, (occurs_seq_wordBoundary (isPlain_of_mem hp).1).2
        ⟨before, rest, after, hcs, hboundary, hrest⟩⟩
  rw [hoccurs, hasSecret_eq_true_iff]
  refine exists_congr fun before => exists_congr fun rest => and_congr_right fun _ =>
    and_congr_left fun h => ?_
  rw [startsWord_of_startsSecret h, ne_eq, Bool.not_eq_true, endsWord]
  cases before.getLast? <;> rfl

/-! ## Secrets that make up a text -/

theorem isLongHex_iff : isLongHex cs ↔ longHex.Matches [] cs [] := by
  rw [isLongHex, Bool.and_eq_true, decide_eq_true_eq, List.all_eq_true]
  exact and_congr_right fun _ => (and_iff_right nofun).symm

theorem isLongBase64_iff : isLongBase64 cs ↔ longBase64.Matches [] cs [] := by
  have hparts : isLongBase64 cs ↔ 40 ≤ (cs.takeWhile isBase64).length ∧
      (cs.dropWhile isBase64).length ≤ 2 ∧ ∀ c ∈ cs.dropWhile isBase64, decide (c = '=') := by
    rw [isLongBase64, List.span_eq_takeWhile_dropWhile]
    simp only [Bool.and_eq_true, decide_eq_true_eq, List.all_eq_true, and_assoc]
  rw [hparts]
  constructor
  · rintro ⟨hbody, hpadding, hmarks⟩
    refine ⟨_, _, List.takeWhile_append_dropWhile.symm, ⟨hbody, nofun, fun c hc =>
      List.mem_takeWhile_imp hc⟩, _, [], (List.append_nil _).symm, ⟨Nat.zero_le _, ?_, hmarks⟩, rfl⟩
    rintro _ ⟨⟩
    exact hpadding
  · rintro ⟨body, _, rfl, ⟨hbody, -, hclass⟩, padding, _, rfl, ⟨-, hpadding, hmarks⟩, rfl⟩
    -- the sign that fills up is no character of Base64, so that the body ends where it begins
    have hstop : ∀ c ∈ (padding ++ []).head?, ¬ isBase64 c := by
      intro c hc
      rw [List.append_nil] at hc
      rw [of_decide_eq_true (hmarks c (List.mem_of_mem_head? hc))]
      decide
    rw [takeWhile_append_of_stop hclass hstop, dropWhile_append_of_stop hclass hstop,
      List.append_nil]
    exact ⟨hbody, hpadding 2 rfl, hmarks⟩

theorem looksSecret_iff {s : String} :
    looksSecret s ↔ ∃ p ∈ openSecrets ++ wholeSecrets, p.Occurs s.toList := by
  simp only [looksSecret, Bool.or_eq_true, hasSecret_iff, isLongHex_iff, isLongBase64_iff,
    ← occurs_whole, List.mem_append, or_and_right, exists_or, wholeSecrets, List.map_cons,
    List.map_nil, List.mem_cons, List.not_mem_nil, or_false, exists_eq_left, or_assoc]

end

/-! ## What stands around a secret -/

/-- **Secrets cannot hide in a text.**  A text looks like a credential exactly if one of the
patterns occurs in it.  One in which a pattern of the first kind occurs looks like a credential
with anything after it, and with anything before it that is empty or does not end with a word
character. -/
theorem looksSecret_surrounded :
    (∀ s : String, looksSecret s ↔ ∃ p ∈ openSecrets ++ wholeSecrets, p.Occurs s.toList) ∧
    (∀ before s after : String, (∃ p ∈ openSecrets, p.Occurs s.toList) →
      ¬ endsWord before.toList → looksSecret (before ++ s ++ after)) := by
  refine ⟨fun s => looksSecret_iff, fun before s after ⟨p, hp, hoccurs⟩ hbefore => ?_⟩
  obtain ⟨q, hq, rfl⟩ := List.mem_map.1 hp
  obtain ⟨hplain, hpos⟩ := isPlain_of_mem hq
  have hsurrounded := hoccurs.surrounded hplain hpos (Bool.eq_false_iff.2 hbefore) after.toList
  rw [← String.toList_append, ← String.toList_append] at hsurrounded
  exact looksSecret_iff.2 ⟨_, List.mem_append_left _ hp, hsurrounded⟩

/-- A key word in capitals with a kelvin sign in it, after a colon and before more words. -/
theorem looksSecret_surrounded_of_apiKey :
    (∃ p ∈ openSecrets, p.Occurs "(API_\u212AEY\u2003: x)".toList) ∧ ¬ endsWord "naïve:".toList ∧
    looksSecret ("naïve:" ++ "(API_\u212AEY\u2003: x)" ++ "0123") := by
  have hsecret : ∃ p ∈ openSecrets, p.Occurs "(API_\u212AEY\u2003: x)".toList :=
    hasSecret_iff.1 (by decide +kernel)
  have hbefore : ¬ endsWord "naïve:".toList := by decide +kernel
  exact ⟨hsecret, hbefore, looksSecret_surrounded.2 "naïve:" _ "0123" hsecret hbefore⟩

end QueryClient.Text
