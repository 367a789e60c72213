import Recommender.Instant
import Recommender.Text

/-!
# Instants in writing

An instant is written as `2024-06-01T12:00:00.500Z`: always in UTC, with no fraction or one of 3, 6
or 9 digits, and with a sign before a year that is not of four digits. It is read with any offset
from UTC and with some freedom: one digit where two are usual, and blanks between the numbers.

* `Instant.render` : the text of an instant.
* `Instant.parse?` : the instant that a text names.
-/

namespace Recommender

namespace Instant

/-! ### Writing -/

/-- The year: four digits, or a sign and at least four digits. -/
def renderYear (year : Int) : List Char :=
  if 0 ≤ year ∧ year ≤ 9999 then Digits.padded 4 year.toNat
  else (if year < 0 then '-' else '+') :: Digits.padded 4 year.natAbs

/-- The fraction of a second, in thousandths, millionths or billionths, the first that is exact. -/
def renderFraction (nano : Nat) : List Char :=
  if nano = 0 then []
  else if nano % 1000000 = 0 then '.' :: Digits.padded 3 (nano / 1000000)
  else if nano % 1000 = 0 then '.' :: Digits.padded 6 (nano / 1000)
  else '.' :: Digits.padded 9 nano

/-- The text of an instant, in UTC. -/
def render (t : Instant) : String :=
  let date := Date.ofNumber t.day
  String.ofList <|
    renderYear date.year ++ '-' :: Digits.padded 2 date.month ++ '-' :: Digits.padded 2 date.day
      ++ 'T' :: Digits.padded 2 (t.second / 3600) ++ ':' :: Digits.padded 2 (t.second / 60 % 60)
      ++ ':' :: Digits.padded 2 (t.second % 60 + t.nano / 1000000000)
      ++ renderFraction (t.nano % 1000000000) ++ ['Z']

/-! ### Reading -/

/-- A reader of the front of a text. -/
abbrev Scan (β : Type) := StateT (List Char) Option β

/-- Skips blanks. -/
def blanks : Scan Unit :=
  modify (·.dropWhile Text.isBlank)

/-- Reads one character of the given ones. -/
def oneOf (allowed : List Char) : Scan Char := do
  match ← get with
  | c :: rest => if c ∈ allowed then set rest; pure c else failure
  | [] => failure

/-- Reads as many digits as there are, at least one and at most `most`. -/
def digits (most : Nat) : Scan (List Char) := do
  let ds := ((← get).take most).takeWhile Char.isDigit
  if ds.isEmpty then failure
  modify (·.drop ds.length)
  pure ds

/-- Reads a number of at most `most` digits, with blanks before it. -/
def number (most : Nat) : Scan Nat := do
  blanks
  Digits.value <$> digits most

/-- Reads a year: at most four digits, or a sign and any number of digits. -/
def year : Scan Int := do
  blanks
  match ← get with
  | '-' :: rest =>
    set rest
    let n := Digits.value (← digits rest.length)
    pure (-n)
  | '+' :: rest =>
    set rest
    let n := Digits.value (← digits rest.length)
    pure n
  | _ =>
    let n := Digits.value (← digits 4)
    pure n

/-- Reads a separator, with blanks before it. -/
def separator (c : Char) : Scan Unit := do
  blanks
  discard (oneOf [c])

/-- Reads the fraction of a second, if there is one, in nanoseconds; digits after the ninth have no
effect. -/
def fraction : Scan Nat := do
  match ← get with
  | '.' :: rest =>
    set rest
    let ds ← digits rest.length
    pure (Digits.value (ds.take 9) * Nat.pow 10 (9 - ds.length))
  | _ => pure 0

/-- Reads exactly two digits. -/
def twoDigits : Scan Nat := do
  let ds ← digits 2
  if ds.length = 2 then pure (Digits.value ds) else failure

/-- Reads an offset from UTC, in minutes: `Z`, `UTC`, or a sign, hours and minutes. -/
def offset : Scan Int := do
  let rest ← get
  if (rest.take 3).map Char.toLower = ['u', 't', 'c'] then
    set (rest.drop 3)
    pure 0
  else
    match ← oneOf ['Z', 'z', '+', '-', '\u2212'] with
    | 'Z' | 'z' => pure 0
    | sign =>
      let hours ← twoDigits
      modify (·.dropWhile fun c => c = ':' || Text.isBlank c)
      let minutes ← twoDigits
      if hours < 24 ∧ minutes < 60 then
        pure (if sign = '+' then (hours * 60 + minutes : Nat) else -(hours * 60 + minutes : Nat))
      else failure

/-- Reads a date, a time of day and an offset. -/
def reading : Scan Instant := do
  let y ← year
  separator '-'
  let month ← number 2
  separator '-'
  let day ← number 2
  discard (oneOf ['T', 't', ' '])
  let hour ← number 2
  separator ':'
  let minute ← number 2
  separator ':'
  let second ← number 2
  let nano ← fraction
  blanks
  let ahead ← offset
  match ofLocal? ⟨y, month, day⟩ hour minute second nano ahead with
  | some t => pure t
  | none => failure

/-- The instant that a text names; only blanks may follow it. -/
def parse? (text : String) : Option Instant :=
  match reading.run text.toList with
  | some (t, rest) => if rest.all Text.isBlank then some t else none
  | none => none

end Instant

end Recommender
