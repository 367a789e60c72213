/-!
# Calendar dates

Dates of the proleptic Gregorian calendar, and their number in the count of days from 1970-01-01.

* `Date.number` : the number of a date.
* `Date.ofNumber` : the date of a number.
-/

namespace Recommender

/-- A day of the proleptic Gregorian calendar; year 0 is the year before year 1. -/
structure Date where
  /-- The year, with its sign. -/
  year : Int
  /-- The month, from 1. -/
  month : Nat
  /-- The day of the month, from 1. -/
  day : Nat
deriving DecidableEq

namespace Date

/-- Whether a year has a 29 February. -/
def isLeap (year : Int) : Bool :=
  year % 4 = 0 && (year % 100 ≠ 0 || year % 400 = 0)

/-- The number of days of a month. -/
def daysInMonth (year : Int) (month : Nat) : Nat :=
  if month = 2 then (if isLeap year then 29 else 28)
  else if month = 4 ∨ month = 6 ∨ month = 9 ∨ month = 11 then 30
  else 31

/-- Whether the month and the day exist. -/
def exists? (d : Date) : Bool :=
  1 ≤ d.month && d.month ≤ 12 && 1 ≤ d.day && d.day ≤ daysInMonth d.year d.month

/-- The days from 1970-01-01 to the date. Years are counted from March, so that the day that a leap
year adds is the last one of its year; 400 years have 146097 days, and 719468 days lie between
0000-03-01 and 1970-01-01. -/
def number (d : Date) : Int :=
  let year := if d.month ≤ 2 then d.year - 1 else d.year
  let ofYear := (153 * ((d.month + 9) % 12) + 2) / 5 + (d.day - 1)
  let inCycle := year % 400
  year / 400 * 146097 + inCycle * 365 + inCycle / 4 - inCycle / 100 + ofYear - 719468

/-- The date whose number is given. -/
def ofNumber (n : Int) : Date :=
  let shifted := n + 719468
  let inCycle := (shifted % 146097).toNat
  let yearOfCycle := (inCycle - inCycle / 1460 + inCycle / 36524 - inCycle / 146096) / 365
  let ofYear := inCycle - (365 * yearOfCycle + yearOfCycle / 4 - yearOfCycle / 100)
  let fromMarch := (5 * ofYear + 2) / 153
  let month := if fromMarch < 10 then fromMarch + 3 else fromMarch - 9
  let year := shifted / 146097 * 400 + yearOfCycle
  { year := if month ≤ 2 then year + 1 else year
    month := month
    day := ofYear - (153 * fromMarch + 2) / 5 + 1 }

end Date

end Recommender
