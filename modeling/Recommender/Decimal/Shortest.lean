/-!
# Shortest decimals

A finite float stands for all real numbers that round to it. Of the decimals among these, the
shortest is the one that lies on the coarsest grid of powers of ten; if two neighbours on that grid
qualify, it is the closer one. A float in the middle between them leaves the choice to a rule for
ties.

* `Tie` : the rules for ties.
* `Binary.readsBack` : whether a decimal rounds to a float.
* `Binary.shortest` : the shortest decimal of a float.
-/

namespace Recommender

/-- The decimal `digits · 10 ^ exponent`. -/
structure Decimal where
  /-- The digits, as one number. -/
  digits : Nat
  /-- The power of ten of the last digit. -/
  exponent : Int
deriving DecidableEq

/-- The magnitude `mantissa · 2 ^ exponent` of a finite float. -/
structure Binary where
  /-- The bits of the float, as one number. -/
  mantissa : Nat
  /-- The power of two of the last bit. -/
  exponent : Int
  /-- Whether the next lower float is only half as far away as the next higher one. -/
  narrowBelow : Bool
deriving DecidableEq

/-- Which of its two neighbours on a grid of decimals stands for a float in the middle of them. -/
inductive Tie
  /-- The greater one. -/
  | upward
  /-- The one whose last digit is even. -/
  | toEven
deriving DecidableEq

/-- Whether the greater neighbour is taken, if the last digit of the lesser one is that of
`units`. -/
def Tie.takesGreater : Tie → (units : Nat) → Bool
  | upward, _ => true
  | toEven, units => units % 2 = 1

namespace Binary

/-- The first bit of a mantissa. It is not among the bits of a float, unless the float is so small
that the bit is not set. -/
def hiddenBit : Nat := 0x10000000000000

/-- The magnitude of the finite float with the given bits. -/
def ofBits (bits : UInt64) : Binary :=
  let biased : Nat := bits.toNat / hiddenBit % 2048
  let fraction := bits.toNat % hiddenBit
  if biased = 0 then ⟨fraction, -1074, false⟩
  else ⟨hiddenBit + fraction, biased - 1075, fraction = 0 && 1 < biased⟩

/-- The number `n · base ^ i`, or `n` itself if `i` is negative. -/
def scaleUp (n base : Nat) (i : Int) : Nat :=
  n * Nat.pow base i.toNat

/-- Compares `a · 10 ^ i` with `n · 2 ^ j`. -/
def compareScaled (a : Nat) (i : Int) (n : Nat) (j : Int) : Ordering :=
  compare (scaleUp (scaleUp a 10 i) 2 (-j)) (scaleUp (scaleUp n 2 j) 10 (-i))

/-- Whether a decimal rounds to the float: it lies no further than half way to the next lower and
the next higher float, and in the middle itself only if the mantissa is even. -/
def readsBack (b : Binary) (d : Decimal) : Bool :=
  let low := if b.narrowBelow then 4 * b.mantissa - 1 else 4 * b.mantissa - 2
  let high := 4 * b.mantissa + 2
  let even := b.mantissa % 2 = 0
  let fromLow := compareScaled d.digits d.exponent low (b.exponent - 2)
  let fromHigh := compareScaled d.digits d.exponent high (b.exponent - 2)
  (fromLow = .gt || (even && fromLow = .eq)) && (fromHigh = .lt || (even && fromHigh = .eq))

/-- The greatest number of whole units `10 ^ k` in the float. -/
def wholeUnits (b : Binary) (k : Int) : Nat :=
  scaleUp (scaleUp b.mantissa 2 b.exponent) 10 (-k) / scaleUp (scaleUp 1 2 (-b.exponent)) 10 k

/-- Whether the float is closer to `units + 1` than to `units`, both in units of `10 ^ k`; in the
middle the rule for ties decides. -/
def closerAbove (b : Binary) (tie : Tie) (units : Nat) (k : Int) : Bool :=
  match compareScaled (2 * units + 1) k b.mantissa (b.exponent + 1) with
  | .lt => true
  | .eq => tie.takesGreater units
  | .gt => false

/-- The neighbour of the float among the multiples of `10 ^ k` that rounds to it. -/
def onGrid? (b : Binary) (tie : Tie) (k : Int) : Option Decimal :=
  let units := b.wholeUnits k
  let below : Decimal := ⟨units, k⟩
  let above : Decimal := ⟨units + 1, k⟩
  if b.readsBack below then
    if b.readsBack above && b.closerAbove tie units k then some above else some below
  else if b.readsBack above then some above
  else none

/-- The exact decimal of the float. -/
def exact (b : Binary) : Decimal :=
  ⟨scaleUp (scaleUp b.mantissa 2 b.exponent) 5 (-b.exponent), min b.exponent 0⟩

/-- The powers of ten at which floats end, from the greatest to the least. -/
def grids : List Int :=
  (List.range 640).map fun (i : Nat) => 310 - (i : Int)

/-- The shortest decimal that rounds to the float. -/
def shortest (b : Binary) (tie : Tie) : Decimal :=
  if b.mantissa = 0 then ⟨0, 0⟩ else (grids.findSome? (b.onGrid? tie)).getD b.exact

end Binary

end Recommender
