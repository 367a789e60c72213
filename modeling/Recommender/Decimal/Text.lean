import Recommender.Binary64
import Recommender.Decimal.Shortest
import Recommender.Text

/-!
# Floating point numbers in writing

Numbers are written with the digits of their shortest decimals. Messages and JSON differ in the form
of these, and in the rule for numbers in the middle between two of them: `2 ^ 50 + 0.25` ends in
`.3` in a message and in `.2` in JSON.

* `Decimal.plain` : a decimal with its point, without an exponent.
* `Decimal.scientific` : a decimal with one digit before the point and an exponent.
* `Binary64.plainText` : a number in messages.
* `Binary64.numberText` : a finite number in JSON.
-/

namespace Recommender

namespace Decimal

/-- The decimal without an exponent; a decimal without a fraction has no point. -/
def plain (d : Decimal) : List Char :=
  if 0 ≤ d.exponent then Nat.toDigits 10 (Binary.scaleUp d.digits 10 d.exponent)
  else
    let places := d.exponent.natAbs
    let digits := Digits.padded (places + 1) d.digits
    let whole := digits.length - places
    digits.take whole ++ '.' :: digits.drop whole

/-- The decimal with one digit before the point and an exponent. -/
def scientific (d : Decimal) : List Char :=
  match Nat.toDigits 10 d.digits with
  | [] => []
  | first :: others =>
    let fraction := if others.isEmpty then [] else '.' :: others
    first :: (fraction ++ 'e' :: (toString (d.exponent + others.length)).toList)

end Decimal

namespace Binary64

/-- The shortest decimal of the magnitude of a finite number. -/
def decimal (tie : Tie) (x : Binary64) : Decimal :=
  (Binary.ofBits x.bits).shortest tie

/-- A number in messages: its shortest decimal without an exponent, the greater one of two. -/
def plainText (x : Binary64) : String :=
  if x.isNaN then "NaN"
  else
    let sign := if x.isNegative then "-" else ""
    if x.isInfinite then sign ++ "inf" else sign ++ String.ofList (x.decimal .upward).plain

/-- A finite number in JSON: its shortest decimal, the even one of two. It has a point or an
exponent; an exponent if the point would stand more than 16 digits after the first digit, or more
than five before it. -/
def numberText (x : Binary64) : List Char :=
  let d := x.decimal .toEven
  let point := (Nat.toDigits 10 d.digits).length + d.exponent
  let text :=
    if point < -4 ∨ 16 < point then d.scientific
    else if 0 ≤ d.exponent then d.plain ++ ['.', '0']
    else d.plain
  if x.isNegative then '-' :: text else text

end Binary64

end Recommender
