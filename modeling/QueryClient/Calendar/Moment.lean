/-
  Times of day and moments: a date with a time of day, in no zone or in universal time.

  A leap second is the second before it with a billion nanoseconds or more.
-/
import QueryClient.Calendar.Date

namespace QueryClient.Calendar

/-- A time of day: the second from 0 to 86399, and nanoseconds. -/
structure TimeOfDay where
  second : Nat
  nano : Nat
  deriving DecidableEq, Inhabited, Repr

/-- A date and a time of day. -/
structure Moment where
  date : Date
  time : TimeOfDay
  deriving DecidableEq, Inhabited, Repr

def billion : Nat := 1000000000

namespace TimeOfDay

/-- A fraction of a second: nothing, or three, six or nine digits. -/
def fractionText (nano : Nat) : List Char :=
  if nano = 0 then []
  else if nano % 1000000 = 0 then '.' :: padded 3 (nano / 1000000)
  else if nano % 1000 = 0 then '.' :: padded 6 (nano / 1000)
  else '.' :: padded 9 nano

/-- `hour:minute:second`, with a fraction if there is one. -/
def toChars (t : TimeOfDay) : List Char :=
  let leap := billion ≤ t.nano
  let second := t.second % 60 + if leap then 1 else 0
  padded 2 (t.second / 3600) ++ ':' :: padded 2 (t.second / 60 % 60) ++ ':' :: padded 2 second ++
    fractionText (if leap then t.nano - billion else t.nano)

def toText (t : TimeOfDay) : String := String.ofList t.toChars

/-- The nanoseconds since midnight. -/
def nanos (t : TimeOfDay) : Int := (t.second * billion + t.nano : Nat)

/-- The time of day `nanos` after some midnight. -/
def ofNanos (nanos : Int) : TimeOfDay :=
  let n := (nanos % (86400 * billion : Nat)).toNat
  ⟨n / billion, n % billion⟩

end TimeOfDay

namespace Moment

/-- The moment a number of seconds and nanoseconds after the start of 1970. -/
def ofUnix (seconds : Int) (nano : Nat) : Moment :=
  ⟨⟨seconds.fdiv 86400⟩, ⟨(seconds.fmod 86400).toNat, nano⟩⟩

/-- The seconds since the start of 1970. -/
def unixSeconds (m : Moment) : Int := m.date.day * 86400 + m.time.second

/-- The nanoseconds since the start of 2000. -/
def nanosSince2000 (m : Moment) : Int :=
  (m.date.day - Date.epoch2000) * (86400 * billion : Nat) + m.time.nanos

/-- The microseconds since the start of 2000; a fraction is cut off towards that moment. -/
def microsSince2000 (m : Moment) : Int := m.nanosSince2000.tdiv 1000

/-- The moment a number of microseconds after the start of 2000, if the calendar reaches it. -/
def ofMicrosSince2000? (micros : Int) : Option Moment :=
  let nanos := micros * 1000
  (Date.ofDay? (Date.epoch2000 + nanos.fdiv (86400 * billion : Nat))).map fun d =>
    ⟨d, TimeOfDay.ofNanos nanos⟩

/-- The date and the time of day with a `T` between them. -/
def toChars (m : Moment) : List Char := m.date.toChars ++ 'T' :: m.time.toChars

def toText (m : Moment) : String := String.ofList m.toChars

/-- The moment in universal time, with its offset. -/
def toUtcText (m : Moment) : String := String.ofList (m.toChars ++ "+00:00".toList)

end Moment

end QueryClient.Calendar
