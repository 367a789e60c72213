import Recommender.Scalar

/-!
# Floating point numbers

A `Binary64` is a floating point number of 64 bits: a sign, eleven bits of exponent and 52 bits of
fraction. All bit patterns are kept apart, those of NaNs too, since a ranking tells them apart: a
NaN without the sign stands above `∞`, and one with the sign below `-∞`.

Numbers are compared by their bits. Sums, products, quotients and roots are those of `Float`, which
has one NaN only. Which NaN comes out is settled here: an operation on NaNs yields the first of
them, and an operation on numbers without a result yields the NaN `Binary64.undefined`.

* `Binary64.rank` : the place of a floating point number in its total order, as an integer.
* `Binary64.lift₂` : an operation of `Float` on floating point numbers.
-/

namespace Recommender

/-- A floating point number of 64 bits. -/
structure Binary64 where
  /-- The bits: the sign, the exponent and the fraction. -/
  bits : UInt64
deriving DecidableEq

namespace Binary64

/-! ### The parts of the bits -/

/-- The bits of a zero with the sign. -/
def signBit : Nat := 0x8000000000000000

/-- Whether the sign is set. -/
def isNegative (x : Binary64) : Bool :=
  signBit ≤ x.bits.toNat

/-- The bits without the sign. The greater they are, the farther is the number from zero. -/
def magnitude (x : Binary64) : Nat :=
  x.bits.toNat % signBit

/-- The number `∞`. Its magnitude is above those of all finite numbers and below those of NaNs. -/
def infinity : Binary64 := ⟨0x7ff0000000000000⟩

/-- Whether the bits are those of a NaN. -/
def isNaN (x : Binary64) : Bool :=
  infinity.magnitude < x.magnitude

/-- Whether the number is `∞` or `-∞`. -/
def isInfinite (x : Binary64) : Bool :=
  x.magnitude = infinity.magnitude

/-- Whether the number is neither infinite nor a NaN. -/
def isFinite (x : Binary64) : Bool :=
  x.magnitude < infinity.magnitude

/-- Whether the number is one of the two zeros. -/
def isZero (x : Binary64) : Bool :=
  x.magnitude = 0

/-! ### Comparisons -/

/-- The place of a number among all numbers that are no NaNs, as an integer. The zeros have one
place. -/
def place (x : Binary64) : Int :=
  if x.isNegative then -x.magnitude else x.magnitude

/-- The place in the total order, as an integer. No two bit patterns have one place. -/
def rank (x : Binary64) : Int :=
  if x.isNegative then -1 - x.magnitude else x.magnitude

instance : LT Binary64 where
  lt x y := ¬ x.isNaN ∧ ¬ y.isNaN ∧ x.place < y.place

instance : LE Binary64 where
  le x y := ¬ x.isNaN ∧ ¬ y.isNaN ∧ x.place ≤ y.place

instance : DecidableLT Binary64 := fun x y =>
  inferInstanceAs (Decidable (¬ x.isNaN ∧ ¬ y.isNaN ∧ x.place < y.place))

instance : DecidableLE Binary64 := fun x y =>
  inferInstanceAs (Decidable (¬ x.isNaN ∧ ¬ y.isNaN ∧ x.place ≤ y.place))

/-! ### Operations -/

/-- The floating point number that a float is. -/
def ofFloat (x : Float) : Binary64 := ⟨x.toBits⟩

/-- The float that a floating point number is. -/
def toFloat (x : Binary64) : Float := .ofBits x.bits

/-- A NaN without the sign. -/
def nan : Binary64 := ⟨0x7ff8000000000000⟩

/-- The NaN that stands for a result that does not exist, such as that of `0 / 0`. -/
def undefined : Binary64 := ⟨0xfff8000000000000⟩

/-- The NaN as an operation passes it on: the first bit of the fraction is set. -/
def quiet (x : Binary64) : Binary64 := ⟨x.bits ||| 0x0008000000000000⟩

/-- The floating point number that an operation on numbers results in. -/
def ofResult (r : Float) : Binary64 :=
  if r.isNaN then undefined else ofFloat r

/-- An operation of `Float` on a floating point number. -/
def lift (op : Float → Float) (x : Binary64) : Binary64 :=
  if x.isNaN then x.quiet else ofResult (op x.toFloat)

/-- An operation of `Float` on two floating point numbers. -/
def lift₂ (op : Float → Float → Float) (x y : Binary64) : Binary64 :=
  if x.isNaN then x.quiet
  else if y.isNaN then y.quiet
  else ofResult (op x.toFloat y.toFloat)

instance : Neg Binary64 where
  neg x := ⟨x.bits ^^^ 0x8000000000000000⟩

instance : NatCast Binary64 where
  natCast n := ofFloat (.ofNat n)

instance : OfScientific Binary64 where
  ofScientific digits negative exponent := ofFloat (.ofScientific digits negative exponent)

instance : RootedScalar Binary64 where
  add := lift₂ (· + ·)
  sub := lift₂ (· - ·)
  mul := lift₂ (· * ·)
  div := lift₂ (· / ·)
  beq x y := !x.isNaN && !y.isNaN && x.place = y.place
  decLt := inferInstance
  decLe := inferInstance
  ofNat n := n
  isFinite := isFinite
  totalOrder x y := compare x.rank y.rank
  sqrt := lift Float.sqrt

end Binary64

end Recommender
