/-!
# The Gregorian calendar

Days are counted from 1 January 1970. A year is reckoned from March, so that the leap day is
its last day and every month's first day has a closed form; four hundred years repeat.
-/

namespace TypedCql

structure CalendarDate where
  year : Int
  /-- From 1 to 12. -/
  month : Nat
  /-- From 1. -/
  day : Nat
  deriving Repr, DecidableEq

namespace CalendarDate

/-- Days from 1 March of the year 0 to 1 January 1970. -/
def epochOffset : Int := 719468

def daysInCycle : Int := 146097

def isLeapYear (year : Int) : Bool :=
  year % 4 = 0 ∧ (year % 100 ≠ 0 ∨ year % 400 = 0)

def daysInMonth (year : Int) (month : Nat) : Nat :=
  match month with
  | 2 => if isLeapYear year then 29 else 28
  | 4 | 6 | 9 | 11 => 30
  | _ => 31

/-- Whether the calendar has such a day. -/
def isValid (d : CalendarDate) : Bool :=
  1 ≤ d.month ∧ d.month ≤ 12 ∧ 1 ≤ d.day ∧ d.day ≤ daysInMonth d.year d.month

/-- Days before the first day of a month counted from March. -/
def daysBefore (month : Nat) : Nat := (153 * month + 2) / 5

def toDays (d : CalendarDate) : Int :=
  let year := if d.month ≤ 2 then d.year - 1 else d.year
  let month := if d.month ≤ 2 then d.month + 9 else d.month - 3
  let cycle := year / 400
  let yearOfCycle := year - cycle * 400
  cycle * daysInCycle + yearOfCycle * 365 + yearOfCycle / 4 - yearOfCycle / 100
    + (daysBefore month : Int) + (d.day : Int) - 1 - epochOffset

def ofDays (days : Int) : CalendarDate :=
  let shifted := days + epochOffset
  let cycle := shifted / daysInCycle
  let dayOfCycle := (shifted - cycle * daysInCycle).toNat
  let century := min (dayOfCycle / 36524) 3
  let dayOfCentury := dayOfCycle - century * 36524
  let four := dayOfCentury / 1461
  let dayOfFour := dayOfCentury - four * 1461
  let single := min (dayOfFour / 365) 3
  let dayOfYear := dayOfFour - single * 365
  let month := (5 * dayOfYear + 2) / 153
  let year := cycle * 400 + (century * 100 + four * 4 + single : Nat)
  { year := if month < 10 then year else year + 1
    month := if month < 10 then month + 3 else month - 9
    day := dayOfYear - daysBefore month + 1 }

end CalendarDate

end TypedCql
