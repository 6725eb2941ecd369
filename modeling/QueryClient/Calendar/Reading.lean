/-
  Dates and times read from text.

  Moments with an offset have a strict form: fixed numbers of digits, `T` or a space between
  date and time, and an offset or `Z`.  The other forms are loose: numbers may have fewer
  digits and blanks before them, and a year may have a sign and any number of digits.  Every
  reader takes the front of the characters and returns the rest.
-/
import QueryClient.Calendar.Moment
import QueryClient.Number.Literal
import QueryClient.Text.Blank

namespace QueryClient.Calendar

open QueryClient.Number QueryClient.Text

/-- What a scanner takes from the front of a text, and the rest. -/
abbrev Scanner (α : Type) := List Char → Option (α × List Char)

/-- The longest run of digits at the front, `max` at most and `min` at least, as a number. -/
def digitsBetween (min max : Nat) : Scanner Nat := fun cs =>
  let ds := (spanDigits (cs.take max)).1
  if min ≤ ds.length then some (natOfDigits 0 ds, cs.drop ds.length) else none

/-- One given character. -/
def exactly (c : Char) : Scanner Unit := fun
  | d :: rest => if d = c then some ((), rest) else none
  | [] => none

/-- The nanoseconds of a fraction: at least one digit, of which nine count. -/
def nanoseconds : Scanner Nat := fun cs =>
  let (ds, rest) := spanDigits cs
  if ds.isEmpty then none else
    let front := ds.take 9
    some (natOfDigits 0 front * Nat.pow 10 (9 - front.length), rest)

/-- A point and a fraction, or nothing. -/
def optionalFraction : Scanner Nat := fun
  | '.' :: rest => nanoseconds rest
  | cs => some (0, cs)

/-- The time of day of an hour, minute and second; a second 60 is a leap second. -/
def timeOfDay? (hour minute second nano : Nat) : Option TimeOfDay :=
  if hour < 24 ∧ minute < 60 ∧ second ≤ 60 then
    let s := hour * 3600 + minute * 60
    some (if second = 60 then ⟨s + 59, nano + billion⟩ else ⟨s + second, nano⟩)
  else none

/-! ## The strict form -/

/-- The seconds by which a zone is ahead of universal time. -/
def offset : Scanner Int := fun
  | 'Z' :: rest | 'z' :: rest => some (0, rest)
  | sign :: rest => do
    let negative ← if sign = '+' then some false
      else if sign = '-' ∨ sign = '−' then some true else none
    let (hours, rest) ← digitsBetween 2 2 rest
    let ((), rest) ← exactly ':' rest
    let (minutes, rest) ← digitsBetween 2 2 rest
    if hours < 24 ∧ minutes < 60 then
      let s : Int := (hours * 3600 + minutes * 60 : Nat)
      some (if negative then -s else s, rest)
    else none
  | [] => none

/-- The moment, in universal time, of a text that gives date, time and offset. -/
def momentWithOffset? (cs : List Char) : Option Moment := do
  let (year, cs) ← digitsBetween 4 4 cs
  let ((), cs) ← exactly '-' cs
  let (month, cs) ← digitsBetween 2 2 cs
  let ((), cs) ← exactly '-' cs
  let (day, cs) ← digitsBetween 2 2 cs
  let cs ← match cs with
    | 'T' :: rest | 't' :: rest | ' ' :: rest => some rest
    | _ => none
  let (hour, cs) ← digitsBetween 2 2 cs
  let ((), cs) ← exactly ':' cs
  let (minute, cs) ← digitsBetween 2 2 cs
  let ((), cs) ← exactly ':' cs
  let (second, cs) ← digitsBetween 2 2 cs
  let (nano, cs) ← optionalFraction cs
  let (ahead, cs) ← offset cs
  let date ← Date.ofCivil? ⟨year, month, day⟩
  let time ← timeOfDay? hour minute second nano
  if cs.isEmpty then
    let m := Moment.ofUnix (date.day * 86400 + time.second - ahead) time.nano
    some m
  else none

/-! ## The loose forms -/

/-- Blanks, then one digit at least and `max` at most. -/
def looseNumber (max : Nat) : Scanner Nat := fun cs =>
  digitsBetween 1 max (cs.dropWhile isBlank)

/-- Blanks, then a year: at most four digits, or a sign and any number of them. -/
def looseYear : Scanner Int := fun cs =>
  match cs.dropWhile isBlank with
  | '-' :: rest => (digitsBetween 1 rest.length rest).map fun (n, cs) => (-(n : Int), cs)
  | '+' :: rest => (digitsBetween 1 rest.length rest).map fun (n, cs) => ((n : Int), cs)
  | rest => (digitsBetween 1 4 rest).map fun (n, cs) => ((n : Int), cs)

/-- A date in the loose form. -/
def looseDate : Scanner Date := fun cs => do
  let (year, cs) ← looseYear cs
  let ((), cs) ← exactly '-' cs
  let (month, cs) ← looseNumber 2 cs
  let ((), cs) ← exactly '-' cs
  let (day, cs) ← looseNumber 2 cs
  let date ← Date.ofCivil? ⟨year, month, day⟩
  some (date, cs)

/-- A time of day in the loose form. -/
def looseTime : Scanner TimeOfDay := fun cs => do
  let (hour, cs) ← looseNumber 2 cs
  let ((), cs) ← exactly ':' cs
  let (minute, cs) ← looseNumber 2 cs
  let ((), cs) ← exactly ':' cs
  let (second, cs) ← looseNumber 2 cs
  let (nano, cs) ← optionalFraction cs
  let time ← timeOfDay? hour minute second nano
  some (time, cs)

/-- What a scanner makes of a whole text. -/
def Scanner.whole? {α : Type} (r : Scanner α) (cs : List Char) : Option α :=
  match r cs with
  | some (a, []) => some a
  | _ => none

def date? (s : String) : Option Date := looseDate.whole? (trim s).toList

def time? (s : String) : Option TimeOfDay := looseTime.whole? (trim s).toList

/-- A moment with an offset. -/
def instant? (s : String) : Option Moment := momentWithOffset? (trim s).toList

/-- A date and a time in the loose form, with what `between` reads between them. -/
def looseMoment (between : Scanner Unit) : Scanner Moment := fun cs => do
  let (date, cs) ← looseDate cs
  let ((), cs) ← between cs
  let (time, cs) ← looseTime cs
  some (⟨date, time⟩, cs)

/-- A moment, with an offset that it is converted by or without one. -/
def moment? (s : String) : Option Moment :=
  let cs := (trim s).toList
  momentWithOffset? cs <|> (looseMoment (exactly 'T')).whole? cs <|>
    (looseMoment fun cs => some ((), cs.dropWhile isBlank)).whole? cs

end QueryClient.Calendar
