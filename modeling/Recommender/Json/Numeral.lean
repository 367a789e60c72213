import Recommender.Binary64
import Recommender.Json.Reader

/-!
# Numbers of JSON

A number without a fraction and an exponent is an integer if it fits 64 bits; all other numbers are
floating point numbers.

* `Numeral.read` : the parts of a number.
* `Numeral.number?` : the number of the parts.
-/

namespace Recommender.Json

open Text

/-- The parts of a number as it is written. -/
structure Numeral where
  /-- Whether a minus sign stands in front. -/
  negative : Bool
  /-- The digits before the point. -/
  whole : Bytes
  /-- The digits after the point, if there is one. -/
  fraction : Option Bytes
  /-- Whether the exponent has a minus sign, and its digits, if there is one. -/
  exponent : Option (Bool × Bytes)

/-- A number as it is understood. -/
inductive Number
  /-- An integer, with or without a minus sign. -/
  | integer (n : Int)
  /-- Any other number. -/
  | float (x : Binary64)

/-- The number as a floating point number. -/
def Number.toBinary64 : Number → Binary64
  | integer (.ofNat n) => n
  | integer (.negSucc n) => -((n + 1 : Nat) : Binary64)
  | float x => x

namespace Numeral

/-! ### Reading the parts -/

/-- Takes digits off, at least one. -/
def someDigits : Reader Bytes := do
  let ds ← digits
  if ds.isEmpty then
    match ← peek? with
    | none => throw .truncated
    | some _ => throw .malformed
  pure ds

/-- Takes a fraction off, if there is one. -/
def readFraction : Reader (Option Bytes) := do
  if (← peek?) = some (ascii '.') then do
    advance
    some <$> someDigits
  else pure none

/-- Takes an exponent off, if there is one. -/
def readExponent : Reader (Option (Bool × Bytes)) := do
  let next ← peek?
  if next = some (ascii 'e') ∨ next = some (ascii 'E') then do
    advance
    let sign ← peek?
    if sign = some (ascii '+') ∨ sign = some (ascii '-') then advance
    let ds ← someDigits
    pure (some (sign = some (ascii '-'), ds))
  else pure none

/-- Takes a number off. Its whole part has no zero in front of other digits. -/
def read : Reader Numeral := do
  let negative := (← peek?) = some (ascii '-')
  if negative then advance
  let whole ← someDigits
  if whole.head? = some (ascii '0') ∧ 1 < whole.length then throw .malformed
  let fraction ← readFraction
  let exponent ← readExponent
  pure { negative, whole, fraction, exponent }

/-- Passes over a number whose value is of no interest. -/
def ignore : Reader Unit := fun input =>
  match read input with
  | .ok (_, rest) => .ok ((), rest)
  | .error _ => .error .malformed

/-! ### Understanding the parts -/

/-- The value of a digit. -/
def digitValue (d : UInt8) : Nat :=
  d.toNat - '0'.toNat

/-- Adds digits to a number as long as it fits 64 bits; also tells how many digits were left out. -/
def gather : (sofar : Nat) → Bytes → Nat × Nat
  | sofar, [] => (sofar, 0)
  | sofar, d :: ds =>
    let next := 10 * sofar + digitValue d
    if next < UInt64.size then gather next ds else (sofar, ds.length + 1)

/-- The power of ten as a floating point number. -/
def powerOfTen (n : Nat) : Binary64 :=
  OfScientific.ofScientific 1 false n

/-- A number divided by a power of ten, in steps of at most `10 ^ 308`. -/
def divide (x : Binary64) (n : Nat) : Binary64 :=
  if n ≤ 308 then x / powerOfTen n
  else if x.isZero then x
  else divide (x / powerOfTen 308) (n - 308)
termination_by n

/-- A number multiplied with a power of ten, unless the product is out of range. -/
def scale? (x : Binary64) : Int → Option Binary64
  | .ofNat n =>
    if n ≤ 308 then
      let product := x * powerOfTen n
      if product.isInfinite then none else some product
    else if x.isZero then some x
    else none
  | .negSucc n => some (divide x (n + 1))

/-- The number that is written, unless it is out of range. Digits that do not fit 64
bits count by their number if they stand before the point, and not at all after it. -/
def number? (numeral : Numeral) : Option Number :=
  let whole := gather 0 numeral.whole
  match numeral.fraction, numeral.exponent with
  | none, none =>
    if whole.2 = 0 ∧ !numeral.negative then some (.integer whole.1)
    else if whole.2 = 0 ∧ 0 < whole.1 ∧ whole.1 ≤ Int64.minValue.toInt.natAbs then
      some (.integer (-whole.1))
    else signed (scale? whole.1 whole.2)
  | fraction, exponent =>
    let fraction := fraction.getD []
    let all := gather whole.1 fraction
    let power : Int := match exponent with
      | none => 0
      | some (negative, ds) =>
        let n := ds.foldl (fun n d => 10 * n + digitValue d) 0
        if negative then -n else n
    signed (scale? all.1 (power + whole.2 - (fraction.length - all.2 : Nat)))
where
  /-- The number with the sign of the numeral. -/
  signed (x : Option Binary64) : Option Number :=
    x.map fun x => .float (if numeral.negative then -x else x)

/-- Reads a number and understands it. -/
def readNumber : Reader Number := do
  match (← read).number? with
  | some n => pure n
  | none => throw .malformed

end Numeral

end Recommender.Json
