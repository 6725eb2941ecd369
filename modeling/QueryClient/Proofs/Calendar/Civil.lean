/-
  Dates and their years, months and days.

  * `exists_eraParts`: a day of an era falls into a year of it, counted from March;
  * `civil_eq` and `dayNumber_eq`: the year, month and day of such a day, and back;
  * `Date.ofCivil?_civil`: a date that the calendar reaches has a year, month and day that exist,
    and it is the date that they give.
-/
import QueryClient.Calendar.Date
import Mathlib.Data.Int.Notation
import Mathlib.Data.Nat.Notation
import Mathlib.Tactic.SplitIfs

namespace QueryClient.Calendar

/-! ## Years of an era -/

/-- The days of an era before a year of it, where years start in March. -/
def daysBefore (year : ℕ) : ℕ := 365 * year + year / 4 - year / 100

/-- The year of an era that a day of it falls into. -/
def yearOfDay (day : ℕ) : ℕ := (day - day / 1460 + day / 36524 - day / 146096) / 365

/-- Whether a year of an era ends with a leap day. -/
def EndsLeap (year : ℕ) : Prop := year % 4 = 3 ∧ (year % 100 ≠ 99 ∨ year = 399)

/-- The centuries, the fours of years, the years and the days in a day of an era. -/
theorem exists_centuryParts {day : ℕ} (h : day < 146097) : ∃ b q t u : ℕ,
    day = 36524 * b + 1461 * q + 365 * t + u ∧ b ≤ 3 ∧ q ≤ 24 ∧ t ≤ 3 ∧ u ≤ 365 ∧
      (u = 365 → t = 3 ∧ (q ≠ 24 ∨ b = 3)) := by
  -- the last day of an era belongs to its last century, that of four years to the last year
  obtain ⟨b, r, hday, hb, hr⟩ : ∃ b r, day = 36524 * b + r ∧ b ≤ 3 ∧
      (r < 36524 ∨ b = 3 ∧ r = 36524) :=
    ⟨min 3 (day / 36524), day - 36524 * min 3 (day / 36524), by omega, by omega, by omega⟩
  obtain ⟨t, u, hrest, ht, hu⟩ : ∃ t u, r % 1461 = 365 * t + u ∧ t ≤ 3 ∧
      (u < 365 ∨ t = 3 ∧ u = 365) :=
    ⟨min 3 (r % 1461 / 365), r % 1461 - 365 * min 3 (r % 1461 / 365), by omega, by omega, by omega⟩
  exact ⟨b, r / 1461, t, u, by omega, hb, by omega, ht, by omega, by omega⟩

section
variable {day b q t u : ℕ}

theorem yearOfDay_eq (hday : day = 36524 * b + 1461 * q + 365 * t + u) (hb : b ≤ 3) (hq : q ≤ 24)
    (ht : t ≤ 3) (hu : u ≤ 365) (hleap : u = 365 → t = 3 ∧ (q ≠ 24 ∨ b = 3)) :
    yearOfDay day = 100 * b + 4 * q + t := by
  obtain ⟨w, hw, hfours⟩ : ∃ w, w ≤ 1 ∧ day / 1460 = 25 * b + q + w :=
    ⟨(24 * b + q + 365 * t + u) / 1460, by omega, by omega⟩
  -- only the last day of an era is not counted in its century
  have hcenturies : day / 36524 = b + day / 146096 := by
    clear hfours hw
    rcases Nat.lt_or_ge day 146096 with h | h <;> omega
  have hrange : w ≤ u ∧ u < 365 + w := by
    clear hcenturies
    omega
  rw [yearOfDay, hfours, hcenturies]
  clear hfours hcenturies hleap
  omega

theorem daysBefore_eq (hq : q ≤ 24) (ht : t ≤ 3) :
    daysBefore (100 * b + 4 * q + t) = 36524 * b + 1461 * q + 365 * t := by
  have hfours : (100 * b + 4 * q + t) / 4 = 25 * b + q := by omega
  have hcenturies : (100 * b + 4 * q + t) / 100 = b := by omega
  rw [daysBefore, hfours, hcenturies]
  omega

end

/-- A day of an era falls into a year of the era, of which it is one of the 365 days, or of the
366 days if the year ends with a leap day. -/
theorem exists_eraParts {day : ℕ} (h : day < 146097) : ∃ u : ℕ,
    day = daysBefore (yearOfDay day) + u ∧ yearOfDay day < 400 ∧ u ≤ 365 ∧
      (u = 365 → EndsLeap (yearOfDay day)) := by
  obtain ⟨b, q, t, u, hday, hb, hq, ht, hu, hleap⟩ := exists_centuryParts h
  rw [yearOfDay_eq hday hb hq ht hu hleap, daysBefore_eq hq ht]
  unfold EndsLeap
  exact ⟨u, hday, by omega, hu, by omega⟩

/-! ## Months of a year -/

/-- The month of a day of a year, counted from March. -/
def monthOfDay (day : ℕ) : ℕ := (5 * day + 2) / 153

/-- The days of a year before a month of it. -/
def daysBeforeMonth (month : ℕ) : ℕ := (153 * month + 2) / 5

theorem monthOfDay_spec {u : ℕ} (hu : u ≤ 365) : monthOfDay u ≤ 11 ∧
    daysBeforeMonth (monthOfDay u) ≤ u ∧ u < daysBeforeMonth (monthOfDay u + 1) := by
  unfold monthOfDay daysBeforeMonth
  omega

/-- The month as a calendar counts it. -/
def calendarMonth (month : ℕ) : ℕ := if month < 10 then month + 3 else month - 9

theorem calendarMonth_spec {m : ℕ} (hm : m ≤ 11) : 1 ≤ calendarMonth m ∧ calendarMonth m ≤ 12 ∧
    (calendarMonth m + 9) % 12 = m ∧ (calendarMonth m ≤ 2 ↔ 10 ≤ m) := by
  unfold calendarMonth
  split_ifs <;> omega

/-- Every month but the last one of a year has the days up to the next month. -/
theorem daysInMonth_calendarMonth (year : ℤ) {m : ℕ} (hm : m < 11) :
    daysInMonth year (calendarMonth m) = daysBeforeMonth (m + 1) - daysBeforeMonth m := by
  have htable : ∀ m < 11, calendarMonth m ≠ 2 ∧ (if calendarMonth m = 4 ∨ calendarMonth m = 6 ∨
      calendarMonth m = 9 ∨ calendarMonth m = 11 then 30 else 31) =
        daysBeforeMonth (m + 1) - daysBeforeMonth m := by decide
  rw [daysInMonth, if_neg (htable m hm).1, (htable m hm).2]

theorem dayOfMonth_le {u : ℕ} (hu : u ≤ 365) {year : ℤ} (hleap : u = 365 → isLeapYear year) :
    u - daysBeforeMonth (monthOfDay u) + 1 ≤ daysInMonth year (calendarMonth (monthOfDay u)) := by
  obtain ⟨hm, hlow, hhigh⟩ := monthOfDay_spec hu
  rcases Nat.lt_or_ge (monthOfDay u) 11 with hlt | hge
  · rw [daysInMonth_calendarMonth year hlt]
    omega
  · have hfebruary : calendarMonth 11 = 2 := rfl
    have hbefore : daysBeforeMonth 11 = 337 := rfl
    rw [Nat.le_antisymm hm hge, hfebruary, hbefore, daysInMonth, if_pos rfl]
    split_ifs with h
    · omega
    · have hshort : u ≠ 365 := fun he => h (hleap he)
      omega

/-! ## Dates -/

/-- The parts of a date: its era, and the year of the era and the day of the year, counted from
March. -/
structure EraParts (d : Date) (era : ℤ) (year day : ℕ) : Prop where
  number : d.day + 719468 = era * 146097 + (daysBefore year + day : ℕ)
  year_lt : year < 400
  day_le : day ≤ 365
  leap : day = 365 → EndsLeap year

namespace Date

/-- The year, month and day of a date, by its parts. -/
theorem exists_civil (d : Date) : ∃ era year day, EraParts d era year day ∧
    d.civil = ⟨(year : ℤ) + era * 400 + (if calendarMonth (monthOfDay day) ≤ 2 then 1 else 0),
      calendarMonth (monthOfDay day), day - daysBeforeMonth (monthOfDay day) + 1⟩ := by
  obtain ⟨doe, hdoe, hlt⟩ : ∃ doe : ℕ, d.day + 719468 - (d.day + 719468) / 146097 * 146097 = doe ∧
      doe < 146097 := ⟨((d.day + 719468) % 146097).toNat, by omega, by omega⟩
  obtain ⟨u, hday, hyear, hu, hleap⟩ := exists_eraParts hlt
  refine ⟨(d.day + 719468) / 146097, yearOfDay doe, u, ⟨by omega, hyear, hu, hleap⟩, ?_⟩
  have hrest : doe - daysBefore (yearOfDay doe) = u := by omega
  have hcivil : d.civil = ⟨(yearOfDay doe : ℤ) + (d.day + 719468) / 146097 * 400 +
      (if calendarMonth (monthOfDay (doe - daysBefore (yearOfDay doe))) ≤ 2 then 1 else 0),
      calendarMonth (monthOfDay (doe - daysBefore (yearOfDay doe))),
      doe - daysBefore (yearOfDay doe) -
        daysBeforeMonth (monthOfDay (doe - daysBefore (yearOfDay doe))) + 1⟩ := by
    have hera : (d.day + 719468).fdiv 146097 = (d.day + 719468) / 146097 :=
      Int.fdiv_eq_ediv_of_nonneg _ (by decide)
    unfold civil
    dsimp only
    rw [hera, hdoe]
    rfl
  rw [hcivil, hrest]

/-- The date that a year, month and day give, by its parts. -/
theorem ofCivil_of_parts {d : Date} {era : ℤ} {year day : ℕ} (h : EraParts d era year day) :
    ofCivil ⟨(year : ℤ) + era * 400 + (if calendarMonth (monthOfDay day) ≤ 2 then 1 else 0),
      calendarMonth (monthOfDay day), day - daysBeforeMonth (monthOfDay day) + 1⟩ = d := by
  have hnumber := h.number
  have hlt := h.year_lt
  obtain ⟨hm, hlow, -⟩ := monthOfDay_spec h.day_le
  obtain ⟨-, -, hmonth, -⟩ := calendarMonth_spec hm
  have hyear : (if calendarMonth (monthOfDay day) ≤ 2 then
      (year : ℤ) + era * 400 + (if calendarMonth (monthOfDay day) ≤ 2 then 1 else 0) - 1
      else (year : ℤ) + era * 400 + (if calendarMonth (monthOfDay day) ≤ 2 then 1 else 0)) =
        year + era * 400 := by
    split_ifs <;> omega
  have hera : ((year : ℤ) + era * 400).fdiv 400 = era := by
    rw [Int.fdiv_eq_ediv_of_nonneg _ (by decide)]
    omega
  have hday : daysBeforeMonth (monthOfDay day) + (day - daysBeforeMonth (monthOfDay day) + 1) - 1 =
      day := by omega
  unfold daysBeforeMonth at hday
  unfold ofCivil daysBeforeMonth
  dsimp only
  rw [hyear, hera, hmonth, hday]
  obtain ⟨number⟩ := d
  refine congrArg Date.mk ?_
  unfold daysBefore at hnumber
  dsimp only at hnumber
  omega

/-- The year of a date in the calendar is one of the calendar. -/
theorem year_bounds {d : Date} {era : ℤ} {year day : ℕ} (h : EraParts d era year day)
    (hmin : min.day ≤ d.day) (hmax : d.day ≤ max.day) :
    minYear ≤ year + era * 400 + (if calendarMonth (monthOfDay day) ≤ 2 then 1 else 0) ∧
      year + era * 400 + (if calendarMonth (monthOfDay day) ≤ 2 then 1 else 0) ≤ maxYear := by
  have hnumber := h.number
  have hlt := h.year_lt
  have hle := h.day_le
  have hlow : min.day = -96465292 := by decide
  have hhigh : max.day = 95026236 := by decide
  have hlast : calendarMonth (monthOfDay day) ≤ 2 ↔ 306 ≤ day := by
    obtain ⟨hm, hlow, hhigh⟩ := monthOfDay_spec h.day_le
    rw [(calendarMonth_spec hm).2.2.2]
    unfold daysBeforeMonth at hlow hhigh
    omega
  rw [hlow] at hmin
  rw [hhigh] at hmax
  simp only [hlast]
  unfold daysBefore at hnumber
  unfold minYear maxYear
  -- only in the first and the last era are there years that the calendar does not have
  have hera : era = -656 ∨ era = 655 ∨ -655 ≤ era ∧ era ≤ 654 := by omega
  rcases hera with rfl | rfl | hera <;> split_ifs <;> omega

/-- A year of 366 days, counted from March, ends in a leap year. -/
theorem isLeapYear_of_parts {d : Date} {era : ℤ} {year day : ℕ} (h : EraParts d era year day)
    (hday : day = 365) :
    isLeapYear (year + era * 400 + (if calendarMonth (monthOfDay day) ≤ 2 then 1 else 0)) := by
  obtain ⟨hfours, hcenturies⟩ := h.leap hday
  have hlast : calendarMonth (monthOfDay 365) ≤ 2 := by decide
  rw [hday, if_pos hlast, isLeapYear, decide_eq_true_eq]
  omega

/-- **A date that the calendar reaches has a year, month and day, and is the date they give.** -/
theorem ofCivil?_civil {d : Date} (hmin : min.day ≤ d.day) (hmax : d.day ≤ max.day) :
    ofCivil? d.civil = some d := by
  obtain ⟨era, year, day, hparts, hcivil⟩ := exists_civil d
  obtain ⟨hlow, hhigh⟩ := year_bounds hparts hmin hmax
  obtain ⟨hm, -, -⟩ := monthOfDay_spec hparts.day_le
  obtain ⟨hmonth, hmonth', -⟩ := calendarMonth_spec hm
  have hday := dayOfMonth_le hparts.day_le (isLeapYear_of_parts hparts)
  rw [hcivil, ofCivil?, if_pos ⟨hlow, hhigh, hmonth, hmonth', Nat.succ_pos _, hday⟩,
    ofCivil_of_parts hparts]

theorem civil_month_lt (d : Date) : d.civil.month < 100 := by
  obtain ⟨era, year, day, hparts, hcivil⟩ := exists_civil d
  obtain ⟨hm, -, -⟩ := monthOfDay_spec hparts.day_le
  have hmonth := (calendarMonth_spec hm).2.1
  rw [hcivil]
  exact Nat.lt_of_le_of_lt hmonth (by decide)

theorem civil_day_lt (d : Date) : d.civil.day < 100 := by
  obtain ⟨era, year, day, hparts, hcivil⟩ := exists_civil d
  obtain ⟨-, hlow, hhigh⟩ := monthOfDay_spec hparts.day_le
  rw [hcivil]
  unfold daysBeforeMonth at *
  dsimp only
  omega

theorem ofDay?_eq_some_iff {n : ℤ} {d : Date} :
    ofDay? n = some d ↔ d.day = n ∧ min.day ≤ d.day ∧ d.day ≤ max.day := by
  unfold ofDay?
  constructor
  · intro h
    split_ifs at h with hbounds
    cases h
    exact ⟨rfl, hbounds⟩
  · rintro ⟨rfl, hbounds⟩
    exact if_pos hbounds

end Date

end QueryClient.Calendar
