import Recommender.Calendar

/-!
# Instants

An `Instant` is a time in UTC with nanoseconds. A leap second is the last second of a minute with
a fraction of a second or more, so that `23:59:60.5` is the second 86399 with 1.5 · 10⁹ nanoseconds.

* `Instant.secondsSince` : the whole seconds from one instant to a later one.
* `Instant.ofLocal?` : the instant of a local date and time with its offset from UTC.
-/

namespace Recommender

/-- A time in UTC. -/
structure Instant where
  /-- The number of the day. -/
  day : Int
  /-- The second of the day. -/
  second : Nat
  /-- The nanoseconds in the second, a billion or more in a leap second. -/
  nano : Nat
  /-- A day has 86400 seconds. -/
  second_lt : second < 86400
  /-- A second and its leap second have two billion nanoseconds. -/
  nano_lt : nano < 2000000000
  /-- Only the last second of a minute is followed by a leap second. -/
  leap_last : 1000000000 ≤ nano → second % 60 = 59
deriving DecidableEq

namespace Instant

/-- The leap second that stands between the seconds of day of two instants. A leap second belongs to
the minute that it closes, so it counts only if the other instant is in a later minute. -/
def leapBetween (now start : Instant) : Int :=
  if start.second < now.second then (if 1000000000 ≤ start.nano then 1 else 0)
  else if now.second < start.second then (if 1000000000 ≤ now.nano then -1 else 0)
  else 0

/-- The nanoseconds from `start` to `now`. -/
def nanosSince (now start : Instant) : Int :=
  ((now.day - start.day) * 86400 + ((now.second : Int) - start.second) + leapBetween now start)
    * 1000000000 + ((now.nano : Int) - start.nano)

/-- The whole seconds from `start` to `now`, zero if `start` is the later one. -/
def secondsSince (now start : Instant) : Nat :=
  (nanosSince now start / 1000000000).toNat

/-- The first and the last day that a date may name: -262143-01-01 and 262142-12-31. -/
def firstDay : Int := Date.number ⟨-262143, 1, 1⟩

@[inherit_doc firstDay]
def lastDay : Int := Date.number ⟨262142, 12, 31⟩

/-- The instant of a date, a time of day whose second may be the leap second 60, a fraction in
nanoseconds and an offset in minutes that local time is ahead of UTC. It fails if there is no such
date or time, or if the date leaves the range of days before or after the offset is taken off. -/
def ofLocal? (date : Date) (hour minute second nano : Nat) (offset : Int) : Option Instant :=
  if date.exists? ∧ firstDay ≤ date.number ∧ date.number ≤ lastDay ∧ hour < 24 ∧ minute < 60 then
    let minutes := (hour * 60 + minute : Nat) - offset
    let day := date.number + minutes / 1440
    if firstDay ≤ day ∧ day ≤ lastDay then
      let start := (minutes % 1440).toNat * 60
      have start_le : start ≤ 86340 := by omega
      have start_mod : start % 60 = 0 := by omega
      if low : second < 60 ∧ nano < 1000000000 then
        some ⟨day, start + second, nano, by omega, by omega, by omega⟩
      else if leap : second = 60 ∧ nano < 1000000000 then
        some ⟨day, start + 59, nano + 1000000000, by omega, by omega, by omega⟩
      else none
    else none
  else none

end Instant

end Recommender
