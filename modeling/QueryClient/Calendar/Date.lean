/-
  Dates of the proleptic Gregorian calendar, held as a number of days.

  Years run from -262143 to 262142.  The arithmetic counts years from the first of March, so
  that a leap day is the last day of its year, in eras of 400 years.
-/

namespace QueryClient.Calendar

/-- A date, as the number of days since 1970-01-01. -/
structure Date where
  day : Int
  deriving DecidableEq, Inhabited, Repr

/-- Year, month from 1, and day of the month from 1. -/
structure Civil where
  year : Int
  month : Nat
  day : Nat
  deriving DecidableEq, Inhabited, Repr

def isLeapYear (year : Int) : Bool :=
  year % 4 = 0 ∧ (year % 100 ≠ 0 ∨ year % 400 = 0)

/-- The number of days of a month. -/
def daysInMonth (year : Int) (month : Nat) : Nat :=
  if month = 2 then if isLeapYear year then 29 else 28
  else if month = 4 ∨ month = 6 ∨ month = 9 ∨ month = 11 then 30 else 31

def minYear : Int := -262143

def maxYear : Int := 262142

namespace Date

/-- The date of a year, month and day that exist. -/
def ofCivil (c : Civil) : Date :=
  let y := if c.month ≤ 2 then c.year - 1 else c.year
  let era := y.fdiv 400
  let yearOfEra := y - era * 400
  let dayOfYear : Int := ((153 * ((c.month + 9) % 12) + 2) / 5 + c.day - 1 : Nat)
  let dayOfEra := yearOfEra * 365 + yearOfEra / 4 - yearOfEra / 100 + dayOfYear
  ⟨era * 146097 + dayOfEra - 719468⟩

/-- Year, month and day of a date. -/
def civil (d : Date) : Civil :=
  let z := d.day + 719468
  let era := z.fdiv 146097
  let dayOfEra := (z - era * 146097).toNat
  let yearOfEra := (dayOfEra - dayOfEra / 1460 + dayOfEra / 36524 - dayOfEra / 146096) / 365
  let dayOfYear := dayOfEra - (365 * yearOfEra + yearOfEra / 4 - yearOfEra / 100)
  let m := (5 * dayOfYear + 2) / 153
  let month := if m < 10 then m + 3 else m - 9
  { year := (yearOfEra : Int) + era * 400 + if month ≤ 2 then 1 else 0
    month := month
    day := dayOfYear - (153 * m + 2) / 5 + 1 }

/-- The date of a year, month and day, if there is one. -/
def ofCivil? (c : Civil) : Option Date :=
  if minYear ≤ c.year ∧ c.year ≤ maxYear ∧ 1 ≤ c.month ∧ c.month ≤ 12 ∧ 1 ≤ c.day ∧
      c.day ≤ daysInMonth c.year c.month then
    some (ofCivil c)
  else none

/-- The first and the last day of the calendar. -/
def min : Date := ofCivil ⟨minYear, 1, 1⟩

def max : Date := ofCivil ⟨maxYear, 12, 31⟩

/-- The date of a day number, if the calendar reaches it. -/
def ofDay? (day : Int) : Option Date :=
  if min.day ≤ day ∧ day ≤ max.day then some ⟨day⟩ else none

/-- The day number of 2000-01-01. -/
def epoch2000 : Int := 10957

end Date

/-- A number with at least `width` digits. -/
def padded (width n : Nat) : List Char :=
  let ds := Nat.toDigits 10 n
  List.replicate (width - ds.length) '0' ++ ds

/-- A year: four digits, or a sign and at least four digits outside of 0 to 9999. -/
def yearText (y : Int) : List Char :=
  if 0 ≤ y ∧ y ≤ 9999 then padded 4 y.natAbs
  else (if y < 0 then '-' else '+') :: padded 4 y.natAbs

/-- `year-month-day`. -/
def Date.toChars (d : Date) : List Char :=
  let c := d.civil
  yearText c.year ++ '-' :: padded 2 c.month ++ '-' :: padded 2 c.day

def Date.toText (d : Date) : String := String.ofList d.toChars

end QueryClient.Calendar
