/-
  Dates and moments read back from their texts.

  Every scanner takes from the front of a text what its writer put there, if what follows does not
  go on with a digit.

  * `looseDate_toChars` and `looseTime_toChars`: the two halves of a moment;
  * `date?_toText`, `time?_toText` and `moment?_toText`: dates, times of day and moments are read
    back from their texts;
  * `instant?_toUtcText`: a moment in universal time is read back if its year has four digits.
-/
import QueryClient.Calendar.Reading
import QueryClient.Proofs.Calendar.Civil
import QueryClient.Proofs.Number.Digits

namespace QueryClient.Calendar

open QueryClient.Number QueryClient.Text

/-- A text that does not go on with a digit. -/
def Stops (rest : List Char) : Prop := ∀ c ∈ rest.head?, ¬ c.isDigit

theorem stops_nil : Stops [] := fun _ h => nomatch h

theorem stops_cons {c : Char} (h : c.isDigit = false) (rest : List Char) : Stops (c :: rest) := by
  rintro d ⟨⟩
  rw [h]
  exact Bool.false_ne_true

/-! ## Numbers -/

theorem digitsBetween_append {min max : ℕ} {ds rest : List Char} (hds : ∀ c ∈ ds, c.isDigit)
    (hmin : min ≤ ds.length) (hmax : ds.length ≤ max) (hrest : Stops rest) :
    digitsBetween min max (ds ++ rest) = some (natOfDigits 0 ds, rest) := by
  have hfront : (ds ++ rest).take max = ds ++ rest.take (max - ds.length) := by
    rw [List.take_append, List.take_of_length_le hmax]
  have hstop : Stops (rest.take (max - ds.length)) := by
    intro c hc
    cases rest with
    | nil =>
      rw [List.take_nil] at hc
      cases hc
    | cons d rest =>
      cases hk : max - ds.length with
      | zero =>
        rw [hk] at hc
        cases hc
      | succ k =>
        rw [hk, List.take_succ_cons] at hc
        exact hrest c hc
  unfold digitsBetween
  rw [hfront, spanDigits_append hds hstop]
  dsimp only
  rw [if_pos hmin, List.drop_left]

theorem digitsBetween_eq_none {min max : ℕ} {c : Char} (hc : c.isDigit = false) (hmin : 0 < min)
    (cs : List Char) : digitsBetween min max (c :: cs) = none := by
  have hnone : (spanDigits ((c :: cs).take max)).1 = [] := by
    cases max with
    | zero => rfl
    | succ max =>
      have hstop : spanDigits ([] ++ c :: cs.take max) = ([], c :: cs.take max) :=
        spanDigits_append (fun _ h => nomatch h) (stops_cons hc (cs.take max))
      rw [List.nil_append] at hstop
      rw [List.take_succ_cons, hstop]
  unfold digitsBetween
  rw [hnone]
  exact if_neg (Nat.not_le.2 hmin)

/-- A number is read back from its digits. -/
theorem digitsBetween_padded {min max width n : ℕ} {rest : List Char} (hwidth : 0 < width)
    (hn : n < 10 ^ width) (hmin : min ≤ width) (hmax : width ≤ max) (hrest : Stops rest) :
    digitsBetween min max (padded width n ++ rest) = some (n, rest) := by
  have hlength : (padded width n).length = width := length_padded hwidth hn
  rw [digitsBetween_append (fun _ => isDigit_of_mem_padded) (by omega) (by omega) hrest,
    natOfDigits_padded]

theorem exists_padded_cons (width n : ℕ) : ∃ c ds, padded width n = c :: ds ∧ c.isDigit := by
  have hpos := length_padded_pos width n
  cases h : padded width n with
  | nil =>
    rw [h] at hpos
    cases hpos
  | cons c ds => exact ⟨c, ds, rfl, isDigit_of_mem_padded (h ▸ List.mem_cons_self)⟩

/-- No blanks come before a number. -/
theorem dropWhile_padded (width n : ℕ) (rest : List Char) :
    (padded width n ++ rest).dropWhile isBlank = padded width n ++ rest := by
  obtain ⟨c, ds, h, hc⟩ := exists_padded_cons width n
  rw [h]
  refine dropWhile_isBlank ?_
  rintro d ⟨⟩
  exact not_isBlank_of_isDigit hc

theorem looseNumber_padded {n : ℕ} {rest : List Char} (hn : n < 100) (hrest : Stops rest) :
    looseNumber 2 (padded 2 n ++ rest) = some (n, rest) := by
  rw [looseNumber, dropWhile_padded, digitsBetween_padded (by decide) hn (by decide) (by decide)
    hrest]

theorem exactly_cons (c : Char) (rest : List Char) : exactly c (c :: rest) = some ((), rest) :=
  if_pos rfl

/-! ## Dates -/

/-- A sign is followed by any number of digits. -/
theorem looseYear_sign (n : ℕ) {rest : List Char} (hrest : Stops rest) :
    looseYear ('-' :: padded 4 n ++ rest) = some (-(n : ℤ), rest) ∧
      looseYear ('+' :: padded 4 n ++ rest) = some ((n : ℤ), rest) := by
  have hdigits : digitsBetween 1 (padded 4 n ++ rest).length (padded 4 n ++ rest) =
      some (n, rest) := by
    have hpos := length_padded_pos 4 n
    rw [digitsBetween_append (fun _ => isDigit_of_mem_padded) hpos
      (by rw [List.length_append]; omega) hrest, natOfDigits_padded]
  have hminus : looseYear ('-' :: padded 4 n ++ rest) =
      (digitsBetween 1 (padded 4 n ++ rest).length (padded 4 n ++ rest)).map
        fun read => (-(read.1 : ℤ), read.2) := rfl
  have hplus : looseYear ('+' :: padded 4 n ++ rest) =
      (digitsBetween 1 (padded 4 n ++ rest).length (padded 4 n ++ rest)).map
        fun read => ((read.1 : ℤ), read.2) := rfl
  rw [hminus, hplus, hdigits]
  exact ⟨rfl, rfl⟩

/-- A year without a sign has four digits. -/
theorem looseYear_padded {n : ℕ} (hn : n < 10000) {rest : List Char} (hrest : Stops rest) :
    looseYear (padded 4 n ++ rest) = some ((n : ℤ), rest) := by
  have hdigits : digitsBetween 1 4 (padded 4 n ++ rest) = some (n, rest) :=
    digitsBetween_padded (by decide) hn (by decide) (by decide) hrest
  obtain ⟨c, ds, h, hc⟩ := exists_padded_cons 4 n
  unfold looseYear
  rw [dropWhile_padded]
  rw [h] at hdigits ⊢
  split
  · next heq =>
    cases heq
    cases hc
  · next heq =>
    cases heq
    cases hc
  · rw [hdigits]
    rfl

/-- A year is read back from its text, with its sign if it has one. -/
theorem looseYear_yearText (y : ℤ) {rest : List Char} (hrest : Stops rest) :
    looseYear (yearText y ++ rest) = some (y, rest) := by
  unfold yearText
  split_ifs with hshort hneg
  · have hy : (y.natAbs : ℤ) = y := by omega
    rw [looseYear_padded (by omega) hrest, hy]
  · have hy : -(y.natAbs : ℤ) = y := by omega
    rw [(looseYear_sign y.natAbs hrest).1, hy]
  · have hy : (y.natAbs : ℤ) = y := by omega
    rw [(looseYear_sign y.natAbs hrest).2, hy]

/-- **A date is read back from its text**, if the calendar reaches it. -/
theorem looseDate_toChars {d : Date} (hmin : Date.min.day ≤ d.day) (hmax : d.day ≤ Date.max.day)
    {rest : List Char} (hrest : Stops rest) : looseDate (d.toChars ++ rest) = some (d, rest) := by
  have htext : d.toChars ++ rest = yearText d.civil.year ++ ('-' :: (padded 2 d.civil.month ++
      ('-' :: (padded 2 d.civil.day ++ rest)))) := by
    simp only [Date.toChars, List.append_assoc, List.cons_append]
  have hdash : ∀ cs, Stops ('-' :: cs) := stops_cons rfl
  unfold looseDate
  rw [htext, looseYear_yearText _ (hdash _)]
  simp only [bind, Option.bind, exactly_cons]
  rw [looseNumber_padded d.civil_month_lt (hdash _)]
  simp only [exactly_cons]
  rw [looseNumber_padded d.civil_day_lt hrest]
  dsimp only
  rw [Date.ofCivil?_civil hmin hmax]

/-! ## Times -/

/-- A fraction of a second is read back from its digits. -/
theorem nanoseconds_padded {width n : ℕ} {rest : List Char} (hwidth : 0 < width)
    (hnine : width ≤ 9) (hn : n < 10 ^ width) (hrest : Stops rest) :
    nanoseconds (padded width n ++ rest) = some (n * 10 ^ (9 - width), rest) := by
  have hspan : spanDigits (padded width n ++ rest) = (padded width n, rest) :=
    spanDigits_append (fun _ => isDigit_of_mem_padded) hrest
  have hlength : (padded width n).length = width := length_padded hwidth hn
  have hshort : (padded width n).length ≤ 9 := by omega
  have hsome : (padded width n).isEmpty = false := by
    rw [List.isEmpty_eq_false_iff, ← List.length_pos_iff, hlength]
    exact hwidth
  have hpow : Nat.pow 10 (9 - width) = 10 ^ (9 - width) := rfl
  unfold nanoseconds
  rw [hspan]
  dsimp only
  rw [hsome, if_neg Bool.false_ne_true, List.take_of_length_le hshort,
    natOfDigits_padded, hlength, hpow]

/-- A text that goes on with neither a digit nor a point. -/
structure Ends (rest : List Char) : Prop where
  stops : Stops rest
  point : ∀ c ∈ rest.head?, c ≠ '.'

theorem ends_nil : Ends [] := ⟨stops_nil, fun _ h => nomatch h⟩

theorem Ends.optionalFraction_eq {rest : List Char} (h : Ends rest) :
    optionalFraction rest = some (0, rest) := by
  unfold optionalFraction
  split
  · exact absurd rfl (h.point _ rfl)
  · rfl

theorem optionalFraction_fractionText {nano : ℕ} {rest : List Char} (h : nano < billion)
    (hrest : Ends rest) :
    optionalFraction (TimeOfDay.fractionText nano ++ rest) = some (nano, rest) := by
  have hpoint : ∀ cs, optionalFraction ('.' :: cs) = nanoseconds cs := fun _ => rfl
  unfold billion at h
  unfold TimeOfDay.fractionText
  split_ifs with hzero hmilli hmicro
  · rw [hzero]
    exact hrest.optionalFraction_eq
  all_goals
    rw [List.cons_append, hpoint,
      nanoseconds_padded (by decide) (by decide) (by omega) hrest.stops]
    exact congrArg (fun n => some (n, rest)) (by omega)

/-- A time of day within a day and without a leap second. -/
structure TimeOfDay.Plain (t : TimeOfDay) : Prop where
  second_lt : t.second < 86400
  nano_lt : t.nano < billion

namespace TimeOfDay

variable {t : TimeOfDay}

theorem Plain.toChars_eq (h : t.Plain) : t.toChars = padded 2 (t.second / 3600) ++
    (':' :: (padded 2 (t.second / 60 % 60) ++ (':' :: (padded 2 (t.second % 60) ++
      fractionText t.nano)))) := by
  have hleap : ¬ billion ≤ t.nano := Nat.not_le.2 h.nano_lt
  unfold toChars
  simp only [hleap, if_false, Nat.add_zero, List.append_assoc, List.cons_append]

theorem Plain.timeOfDay?_eq (h : t.Plain) :
    timeOfDay? (t.second / 3600) (t.second / 60 % 60) (t.second % 60) t.nano = some t := by
  have hlt := h.second_lt
  unfold timeOfDay?
  rw [if_pos ⟨by omega, by omega, by omega⟩]
  dsimp only
  rw [if_neg (by omega)]
  obtain ⟨second, nano⟩ := t
  refine congrArg some (congrArg (TimeOfDay.mk · nano) ?_)
  dsimp only
  omega

theorem stops_fractionText (nano : ℕ) {rest : List Char} (h : Ends rest) :
    Stops (fractionText nano ++ rest) := by
  unfold fractionText
  split_ifs
  · exact h.stops
  all_goals exact stops_cons rfl _

/-- **A time of day is read back from its text.** -/
theorem Plain.looseTime_toChars (h : t.Plain) {rest : List Char} (hrest : Ends rest) :
    looseTime (t.toChars ++ rest) = some (t, rest) := by
  have hlt := h.second_lt
  have hcolon : ∀ cs, Stops (':' :: cs) := stops_cons rfl
  have hfraction := stops_fractionText t.nano hrest
  rw [h.toChars_eq]
  simp only [List.append_assoc, List.cons_append]
  unfold looseTime
  rw [looseNumber_padded (by omega) (hcolon _)]
  simp only [bind, Option.bind, exactly_cons]
  rw [looseNumber_padded (by omega) (hcolon _)]
  simp only [exactly_cons]
  rw [looseNumber_padded (by omega) hfraction]
  dsimp only
  rw [optionalFraction_fractionText h.nano_lt hrest]
  dsimp only
  rw [h.timeOfDay?_eq]

/-- The time of day some nanoseconds after a midnight is as many after the last one. -/
theorem ofNanos_spec (n : ℤ) :
    (ofNanos n).Plain ∧ (ofNanos n).nanos = n % (86400 * billion : ℕ) := by
  have hsize : ((86400 * billion : ℕ) : ℤ) = 86400000000000 := rfl
  obtain ⟨k, hk, hlt⟩ : ∃ k : ℕ, n % 86400000000000 = k ∧ k < 86400000000000 :=
    ⟨(n % 86400000000000).toNat, by omega, by omega⟩
  have htime : ofNanos n = ⟨k / billion, k % billion⟩ := by
    rw [ofNanos, hsize, hk]
    rfl
  rw [htime, hsize, hk]
  refine ⟨⟨?_, Nat.mod_lt _ (by decide)⟩, congrArg Nat.cast (Nat.div_add_mod' k billion)⟩
  unfold billion
  dsimp only
  omega

end TimeOfDay

/-! ## Moments -/

namespace Moment

variable {m : Moment}

/-- A moment that the calendar reaches, without a leap second. -/
structure Plain (m : Moment) : Prop where
  min_le : Date.min.day ≤ m.date.day
  le_max : m.date.day ≤ Date.max.day
  time : m.time.Plain

theorem toChars_eq (m : Moment) : m.toChars = yearText m.date.civil.year ++
    ('-' :: (padded 2 m.date.civil.month ++ ('-' :: (padded 2 m.date.civil.day ++
      ('T' :: m.time.toChars))))) := by
  simp only [toChars, Date.toChars, List.append_assoc, List.cons_append]

/-- A moment whose year has four digits is read up to its offset, and moved by it. -/
theorem Plain.momentWithOffset?_toChars (h : m.Plain) {zone : List Char} (hzone : Ends zone)
    (hyear : 0 ≤ m.date.civil.year ∧ m.date.civil.year ≤ 9999) :
    momentWithOffset? (m.toChars ++ zone) = (offset zone).bind fun read =>
      if read.2.isEmpty then
        some (ofUnix (m.date.day * 86400 + m.time.second - read.1) m.time.nano)
      else none := by
  have hlt := h.time.second_lt
  have hdash : ∀ cs, Stops ('-' :: cs) := stops_cons rfl
  have hmark : ∀ cs, Stops ('T' :: cs) := stops_cons rfl
  have hcolon : ∀ cs, Stops (':' :: cs) := stops_cons rfl
  have hfraction := TimeOfDay.stops_fractionText m.time.nano hzone
  have hwhole : (m.date.civil.year.natAbs : ℤ) = m.date.civil.year := by omega
  rw [toChars_eq, yearText, if_pos hyear, h.time.toChars_eq]
  simp only [List.append_assoc, List.cons_append]
  unfold momentWithOffset?
  rw [digitsBetween_padded (by decide) (by omega) (by decide) (by decide) (hdash _)]
  simp only [bind, Option.bind, exactly_cons]
  rw [digitsBetween_padded (by decide) m.date.civil_month_lt (by decide) (by decide) (hdash _)]
  simp only [exactly_cons]
  rw [digitsBetween_padded (by decide) m.date.civil_day_lt (by decide) (by decide) (hmark _)]
  dsimp only
  split
  · next rest heq =>
    obtain rfl := (List.cons.inj heq).2
    rw [digitsBetween_padded (by decide) (by omega) (by decide) (by decide) (hcolon _)]
    simp only [exactly_cons]
    rw [digitsBetween_padded (by decide) (by omega) (by decide) (by decide) (hcolon _)]
    simp only [exactly_cons]
    rw [digitsBetween_padded (by decide) (by omega) (by decide) (by decide) hfraction]
    dsimp only
    rw [optionalFraction_fractionText h.time.nano_lt hzone]
    dsimp only
    rw [hwhole, Date.ofCivil?_civil h.min_le h.le_max, h.time.timeOfDay?_eq]
  · next heq => exact absurd (List.cons.inj heq).1 (by decide)
  · next heq => exact absurd (List.cons.inj heq).1 (by decide)
  · next hmissing _ _ => exact absurd rfl (hmissing _)

/-- A moment whose year is written with a sign is none with an offset. -/
theorem momentWithOffset?_toChars_eq_none (zone : List Char)
    (hyear : ¬ (0 ≤ m.date.civil.year ∧ m.date.civil.year ≤ 9999)) :
    momentWithOffset? (m.toChars ++ zone) = none := by
  rw [toChars_eq, yearText, if_neg hyear]
  unfold momentWithOffset?
  split_ifs
  · rw [List.cons_append, List.cons_append, digitsBetween_eq_none rfl (by decide)]
    rfl
  · rw [List.cons_append, List.cons_append, digitsBetween_eq_none rfl (by decide)]
    rfl

/-- A text that ends with a time of day has no offset. -/
theorem Plain.momentWithOffset?_eq_none (h : m.Plain) : momentWithOffset? m.toChars = none := by
  rw [← List.append_nil m.toChars]
  by_cases hyear : 0 ≤ m.date.civil.year ∧ m.date.civil.year ≤ 9999
  · rw [h.momentWithOffset?_toChars ends_nil hyear]
    rfl
  · exact momentWithOffset?_toChars_eq_none [] hyear

/-- The two halves of a moment are read one after the other. -/
theorem Plain.looseMoment_toChars (h : m.Plain) :
    (looseMoment (exactly 'T')).whole? m.toChars = some m := by
  have hloose : looseMoment (exactly 'T') m.toChars = some (m, []) := by
    unfold looseMoment
    rw [toChars, looseDate_toChars h.min_le h.le_max (stops_cons rfl _)]
    simp only [bind, Option.bind, exactly_cons]
    rw [← List.append_nil m.time.toChars, h.time.looseTime_toChars ends_nil]
  rw [Scanner.whole?, hloose]

/-- A number of microseconds gives a moment that is as many microseconds after the start of
2000. -/
theorem ofMicrosSince2000?_eq_some {n : ℤ} (h : ofMicrosSince2000? n = some m) :
    m.Plain ∧ m.microsSince2000 = n := by
  obtain ⟨d, hd, rfl⟩ := Option.map_eq_some_iff.1 h
  obtain ⟨hday, hmin, hmax⟩ := Date.ofDay?_eq_some_iff.1 hd
  obtain ⟨hplain, hnanos⟩ := TimeOfDay.ofNanos_spec (n * 1000)
  have hsize : ((86400 * billion : ℕ) : ℤ) = 86400000000000 := rfl
  rw [Int.fdiv_eq_ediv_of_nonneg _ (by decide), hsize] at hday
  refine ⟨⟨hmin, hmax, hplain⟩, ?_⟩
  have hwhole : nanosSince2000 ⟨d, TimeOfDay.ofNanos (n * 1000)⟩ = n * 1000 := by
    rw [nanosSince2000, hnanos, hsize]
    dsimp only
    omega
  rw [microsSince2000, hwhole, Int.mul_tdiv_cancel _ (by decide)]

/-- A moment is as many seconds after the start of 1970 as its date and its time say. -/
theorem Plain.ofUnix_eq (h : m.Plain) :
    ofUnix (m.date.day * 86400 + m.time.second) m.time.nano = m := by
  have hlt := h.time.second_lt
  obtain ⟨⟨day⟩, second, nano⟩ := m
  dsimp only at hlt
  have hday : (day * 86400 + second).fdiv 86400 = day := by
    rw [Int.fdiv_eq_ediv_of_nonneg _ (by decide)]
    omega
  have hsecond : ((day * 86400 + second).fmod 86400).toNat = second := by
    rw [Int.fmod_eq_emod_of_nonneg _ (by decide)]
    omega
  rw [ofUnix, hday, hsecond]

end Moment

/-! ## Texts -/

/-- A character that dates and moments are written with. -/
def IsWritten (c : Char) : Prop := c.isDigit ∨ c ∈ ['+', '-', ':', '.', 'T']

theorem IsWritten.not_isBlank {c : Char} (h : IsWritten c) : isBlank c = false := by
  rcases h with h | h
  · exact not_isBlank_of_isDigit h
  · simp only [List.mem_cons, List.not_mem_nil, or_false] at h
    rcases h with rfl | rfl | rfl | rfl | rfl <;> rfl

theorem isWritten_of_mem_padded {width n : ℕ} {c : Char} (h : c ∈ padded width n) : IsWritten c :=
  Or.inl (isDigit_of_mem_padded h)

theorem isWritten_of_mem_yearText {y : ℤ} {c : Char} (h : c ∈ yearText y) : IsWritten c := by
  unfold yearText at h
  split_ifs at h
  · exact isWritten_of_mem_padded h
  · rcases List.mem_cons.1 h with rfl | h
    · exact Or.inr (by decide)
    · exact isWritten_of_mem_padded h
  · rcases List.mem_cons.1 h with rfl | h
    · exact Or.inr (by decide)
    · exact isWritten_of_mem_padded h

theorem Date.isWritten_of_mem_toChars {d : Date} {c : Char} (h : c ∈ d.toChars) : IsWritten c := by
  simp only [Date.toChars, List.mem_append, List.mem_cons] at h
  rcases h with (h | rfl | h) | rfl | h
  · exact isWritten_of_mem_yearText h
  · exact Or.inr (by decide)
  · exact isWritten_of_mem_padded h
  · exact Or.inr (by decide)
  · exact isWritten_of_mem_padded h

theorem TimeOfDay.isWritten_of_mem_fractionText {nano : ℕ} {c : Char} (h : c ∈ fractionText nano) :
    IsWritten c := by
  unfold fractionText at h
  split_ifs at h
  · cases h
  all_goals
    rcases List.mem_cons.1 h with rfl | h
    · exact Or.inr (by decide)
    · exact isWritten_of_mem_padded h

theorem TimeOfDay.Plain.isWritten_of_mem_toChars {t : TimeOfDay} (ht : t.Plain) {c : Char}
    (h : c ∈ t.toChars) : IsWritten c := by
  rw [ht.toChars_eq] at h
  simp only [List.mem_append, List.mem_cons] at h
  rcases h with h | rfl | h | rfl | h | h
  · exact isWritten_of_mem_padded h
  · exact Or.inr (by decide)
  · exact isWritten_of_mem_padded h
  · exact Or.inr (by decide)
  · exact isWritten_of_mem_padded h
  · exact isWritten_of_mem_fractionText h

/-- **A date that the calendar reaches is read back from its text.** -/
theorem date?_toText {d : Date} (hmin : Date.min.day ≤ d.day) (hmax : d.day ≤ Date.max.day) :
    date? d.toText = some d := by
  have hdate := looseDate_toChars hmin hmax stops_nil
  rw [List.append_nil] at hdate
  rw [date?, Date.toText, trim_ofList fun c hc => (Date.isWritten_of_mem_toChars hc).not_isBlank,
    String.toList_ofList, Scanner.whole?, hdate]

/-- **A time of day is read back from its text**, on its own. -/
theorem time?_toText {t : TimeOfDay} (h : t.Plain) : time? t.toText = some t := by
  have htime := h.looseTime_toChars ends_nil
  rw [List.append_nil] at htime
  rw [time?, TimeOfDay.toText, trim_ofList fun c hc => (h.isWritten_of_mem_toChars hc).not_isBlank,
    String.toList_ofList, Scanner.whole?, htime]

theorem Moment.Plain.isWritten_of_mem_toChars {m : Moment} (h : m.Plain) {c : Char}
    (hc : c ∈ m.toChars) : IsWritten c := by
  rcases List.mem_append.1 hc with hc | hc
  · exact Date.isWritten_of_mem_toChars hc
  · rcases List.mem_cons.1 hc with rfl | hc
    · exact Or.inr (by decide)
    · exact h.time.isWritten_of_mem_toChars hc

/-- **A moment that the calendar reaches is read back from its text.** -/
theorem moment?_toText {m : Moment} (h : m.Plain) : moment? m.toText = some m := by
  unfold moment?
  dsimp only
  rw [Moment.toText, trim_ofList fun c hc => (h.isWritten_of_mem_toChars hc).not_isBlank,
    String.toList_ofList, h.momentWithOffset?_eq_none, h.looseMoment_toChars]
  rfl

/-- **A moment in universal time is read back from its text if its year has four digits**, and
otherwise not at all. -/
theorem instant?_toUtcText {m : Moment} (h : m.Plain) : instant? m.toUtcText =
    if 0 ≤ m.date.civil.year ∧ m.date.civil.year ≤ 9999 then some m else none := by
  have hends : Ends "+00:00".toList := ⟨stops_cons rfl _, by rintro c ⟨⟩; decide⟩
  have hblank : ∀ c ∈ m.toChars ++ "+00:00".toList, isBlank c = false := by
    intro c hc
    rcases List.mem_append.1 hc with hc | hc
    · exact (h.isWritten_of_mem_toChars hc).not_isBlank
    · have hzone : "+00:00".toList.all (isBlank · = false) = true := rfl
      exact of_decide_eq_true (List.all_eq_true.1 hzone c hc)
  have hoffset : offset "+00:00".toList = some (0, []) := by decide
  rw [instant?, Moment.toUtcText, trim_ofList hblank, String.toList_ofList]
  split_ifs with hyear
  · rw [h.momentWithOffset?_toChars hends hyear, hoffset]
    simp only [Option.bind_some, List.isEmpty_nil, if_true, Int.sub_zero, h.ofUnix_eq]
  · exact Moment.momentWithOffset?_toChars_eq_none _ hyear

end QueryClient.Calendar
