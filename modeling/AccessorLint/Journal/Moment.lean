import AccessorLint.Text.Symbol
set_option autoImplicit false

/-!
Moments of the calendar, to the second.
-/

namespace AccessorLint

structure Moment where
  year : Nat
  month : Nat
  day : Nat
  hour : Nat
  minute : Nat
  second : Nat
deriving DecidableEq, Repr

namespace Moment

def isLeapYear (year : Nat) : Bool :=
  year % 4 = 0 && (year % 100 ≠ 0 || year % 400 = 0)

def daysInMonth (year month : Nat) : Nat :=
  if month = 2 then (if isLeapYear year then 29 else 28)
  else if [4, 6, 9, 11].contains month then 30
  else 31

/-- Whether the calendar has the moment.  Years go from 1 to 9999. -/
def isValid (moment : Moment) : Bool :=
  1 ≤ moment.year && moment.year ≤ 9999 && 1 ≤ moment.month && moment.month ≤ 12 && 1 ≤ moment.day &&
    moment.day ≤ daysInMonth moment.year moment.month && moment.hour < 24 && moment.minute < 60 && moment.second < 60

def daysBeforeYear (year : Nat) : Nat :=
  let past := year - 1
  365 * past + past / 4 - past / 100 + past / 400

/-- The number of a day; the first day of the year 1 is day 1. -/
def dayNumber (moment : Moment) : Nat :=
  let months := (List.range moment.month).filter (0 < ·)
  months.foldl (fun days month => days + daysInMonth moment.year month) (daysBeforeYear moment.year) + moment.day

/-- The number of the last day of the calendar. -/
def lastDay : Nat := 3652059

/-- The seconds since the start of the day. -/
def secondOfDay (moment : Moment) : Nat :=
  3600 * moment.hour + 60 * moment.minute + moment.second

def digits (width number : Nat) : Text :=
  let written := Text.ofNat number
  Text.repeated (width - written.length) '0' ++ written

/-- A moment as names of files have it. -/
def stamp (moment : Moment) : Text :=
  digits 4 moment.year ++ digits 2 moment.month ++ digits 2 moment.day ++ "_" ++
    digits 2 moment.hour ++ digits 2 moment.minute ++ digits 2 moment.second

/-- The days of the calendar before the day from which clocks count. -/
def daysBeforeEpoch : Nat := 719162

/-- The year of a day, given by the number of days before it: the last year that starts no later.  Counted in years of
366 days it is never late, and in no year up to 9999 more than 32 years early. -/
def yearOfDay (daysBefore : Nat) : Nat :=
  let guess := daysBefore / 366 + 1
  ((List.range 33).map (guess + ·)).foldl
    (fun year next => if daysBeforeYear next ≤ daysBefore then next else year) guess

/-- The month of a day, and the day in it, given by the months ahead and the days before it. -/
def monthOfDay (year : Nat) : List Nat → Nat → Nat × Nat
  | [], daysBefore => (12, daysBefore + 1)
  | month :: later, daysBefore =>
      if daysBefore < daysInMonth year month then (month, daysBefore + 1)
      else monthOfDay year later (daysBefore - daysInMonth year month)

/-- The moment that a clock shows, in seconds since the first day of the year 1970. -/
def ofClock (seconds : Nat) : Moment :=
  let daysBefore := daysBeforeEpoch + seconds / 86400
  let year := yearOfDay daysBefore
  let (month, day) := monthOfDay year ((List.range 12).map (· + 1)) (daysBefore - daysBeforeYear year)
  let rest := seconds % 86400
  ⟨year, month, day, rest / 3600, rest % 3600 / 60, rest % 60⟩

end Moment

end AccessorLint
