import Recommender.Binary64
import Recommender.Text

/-!
# Values of settings

Settings are given as text. Numbers are read to the last character, without blanks.

* `Value.natural` : a natural number up to a maximum.
* `Value.float` : a floating point number, rounded to the nearest.
-/

namespace Recommender

/-- Why a text is not the number that is asked for. -/
inductive ValueFault
  /-- An integer without characters. -/
  | emptyInteger
  /-- A character that is not a digit. -/
  | invalidDigit
  /-- A number above the maximum. -/
  | tooLarge
  /-- A float without characters. -/
  | emptyFloat
  /-- A text that is not the text of a float. -/
  | invalidFloat
deriving DecidableEq

/-- The text of a fault. -/
def ValueFault.message : ValueFault → String
  | emptyInteger => "cannot parse integer from empty string"
  | invalidDigit => "invalid digit found in string"
  | tooLarge => "number too large to fit in target type"
  | emptyFloat => "cannot parse float from empty string"
  | invalidFloat => "invalid float literal"

namespace Value

/-- Reads digits from left to right after the number `sofar`; the first character that is no digit
or that leads beyond the maximum decides. -/
def digitsUpTo (max : Nat) : (sofar : Nat) → List Char → Except ValueFault Nat
  | sofar, [] => .ok sofar
  | sofar, c :: rest =>
    if c.isDigit then
      let next := 10 * sofar + (c.toNat - '0'.toNat)
      if next ≤ max then digitsUpTo max next rest else .error .tooLarge
    else .error .invalidDigit

/-- Reads a natural number up to a maximum; a `+` may stand in front. -/
def natural (max : Nat) (text : String) : Except ValueFault Nat :=
  match text.toList with
  | [] => .error .emptyInteger
  | ['+'] => .error .invalidDigit
  | '+' :: digits => digitsUpTo max 0 digits
  | digits => digitsUpTo max 0 digits

/-- The float nearest to `digits · 10 ^ exponent`, for a natural number of `count` digits. A number
that is out of the range of floats by its order of magnitude is infinite or zero. -/
def nearest (digits count : Nat) (exponent : Int) : Binary64 :=
  if digits = 0 ∨ count + exponent < -400 then 0.0
  else if 400 < count + exponent then .infinity
  else OfScientific.ofScientific digits (exponent < 0) exponent.natAbs

/-- Reads the exponent at the end of a float. -/
def exponent : List Char → Except ValueFault Int
  | [] => .ok 0
  | mark :: rest =>
    let (negative, digits) := match rest with
      | '-' :: digits => (true, digits)
      | '+' :: digits => (false, digits)
      | digits => (false, digits)
    if mark.toLower = 'e' ∧ digits ≠ [] ∧ digits.all Char.isDigit then
      let n := Digits.value digits
      .ok (if negative then -n else n)
    else .error .invalidFloat

/-- Reads a float without its sign. -/
def magnitude (text : List Char) : Except ValueFault Binary64 :=
  let word := text.map Char.toLower
  if word = "inf".toList ∨ word = "infinity".toList then .ok .infinity
  else if word = "nan".toList then .ok .nan
  else do
    let whole := text.takeWhile Char.isDigit
    let afterWhole := text.dropWhile Char.isDigit
    let (fraction, rest) := match afterWhole with
      | '.' :: others => (others.takeWhile Char.isDigit, others.dropWhile Char.isDigit)
      | others => ([], others)
    if whole.isEmpty && fraction.isEmpty then throw .invalidFloat
    let power ← exponent rest
    let digits := (whole ++ fraction).dropWhile (· = '0')
    pure (nearest (Digits.value digits) digits.length (power - fraction.length))

/-- Reads a float: digits with a point and an exponent, or the name of a special value, and a sign
in front of either. -/
def float (text : String) : Except ValueFault Binary64 :=
  match text.toList with
  | [] => .error .emptyFloat
  | '-' :: rest => do pure (-(← magnitude rest))
  | '+' :: rest => magnitude rest
  | rest => magnitude rest

end Value

end Recommender
