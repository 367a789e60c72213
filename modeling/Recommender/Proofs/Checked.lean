import Recommender.Scalar

/-!
# Arithmetic that notices a division by zero

A `Checked` scalar is a scalar, or `undefined`, which is what a division by zero results in. It does
not get lost: what is computed with it is undefined, too, and as it is above all scalars, it passes
every test for being above zero. So a run on checked scalars that ends in scalars has divided
nothing by zero on its way to them.

* `Checked.number_div`, `Checked.number_div_zero` : only a division by zero is undefined.
* `Checked.sum_number`, `Checked.distance_number`, `Checked.nonneg_number` : operations that do not
  divide take scalars to scalars.
-/

namespace Recommender

/-- A scalar, or what a division by zero results in. -/
inductive Checked (α : Type)
  /-- A scalar. -/
  | number (x : α)
  /-- No scalar. -/
  | undefined
deriving DecidableEq

namespace Checked

variable {α : Type}

/-- An operation on scalars. -/
def lift (op : α → α → α) : Checked α → Checked α → Checked α
  | number x, number y => number (op x y)
  | _, _ => undefined

/-- The quotient of two scalars, undefined if the second is zero. -/
def quotient [Scalar α] : Checked α → Checked α → Checked α
  | number x, number y => if y == Scalar.ofNat 0 then undefined else number (x / y)
  | _, _ => undefined

/-- A relation between scalars, for which `undefined` is above all scalars. -/
def below (r : α → α → Prop) : Checked α → Checked α → Prop
  | number x, number y => r x y
  | number _, undefined => True
  | undefined, _ => False

instance (r : α → α → Prop) [DecidableRel r] : DecidableRel (below r)
  | number x, number y => inferInstanceAs (Decidable (r x y))
  | number _, undefined => .isTrue trivial
  | undefined, _ => .isFalse id

/-- The order of rankings, in which `undefined` is above all scalars. -/
def order [Scalar α] : Checked α → Checked α → Ordering
  | number x, number y => Scalar.totalOrder x y
  | number _, undefined => .lt
  | undefined, number _ => .gt
  | undefined, undefined => .eq

/-- Whether two scalars are equal; `undefined` is equal to nothing. -/
def same [Scalar α] : Checked α → Checked α → Bool
  | number x, number y => x == y
  | _, _ => false

/-- Whether a scalar is finite. -/
def finite [Scalar α] : Checked α → Bool
  | number x => Scalar.isFinite x
  | undefined => false

/-- The square root of a scalar. -/
def root [RootedScalar α] : Checked α → Checked α
  | number x => number (RootedScalar.sqrt x)
  | undefined => undefined

instance [Scalar α] : Scalar (Checked α) where
  add := lift (· + ·)
  sub := lift (· - ·)
  mul := lift (· * ·)
  div := quotient
  lt := below (· < ·)
  le := below (· ≤ ·)
  beq := same
  decLt := inferInstanceAs (DecidableRel (below (· < ·)))
  decLe := inferInstanceAs (DecidableRel (below (· ≤ ·)))
  ofNat n := number (Scalar.ofNat n)
  isFinite := finite
  totalOrder := order

instance [RootedScalar α] : RootedScalar (Checked α) where
  sqrt := root

/-! ### Operations on scalars -/

section

variable [Scalar α] {x y : α} {a : Checked α}

@[simp]
theorem ofNat_eq_number (n : Nat) : (Scalar.ofNat n : Checked α) = number (Scalar.ofNat n) := rfl

@[simp]
theorem number_add : number x + number y = number (x + y) := rfl

@[simp]
theorem number_sub : number x - number y = number (x - y) := rfl

@[simp]
theorem number_mul : number x * number y = number (x * y) := rfl

@[simp]
theorem number_lt_number : number x < number y ↔ x < y := Iff.rfl

@[simp]
theorem number_le_number : number x ≤ number y ↔ x ≤ y := Iff.rfl

@[simp]
theorem number_beq_number : (number x == number y) = (x == y) := rfl

@[simp]
theorem totalOrder_number :
    Scalar.totalOrder (number x) (number y) = Scalar.totalOrder x y := rfl

theorem number_div (h : (y == Scalar.ofNat 0) = false) :
    number x / number y = number (x / y) := by
  show (if y == Scalar.ofNat 0 then undefined else number (x / y)) = _
  rw [h, if_neg Bool.false_ne_true]

theorem number_div_zero (h : (y == Scalar.ofNat 0) = true) : a / number y = undefined := by
  cases a with
  | number x =>
    show (if y == Scalar.ofNat 0 then undefined else number (x / y)) = _
    rw [if_pos h]
  | undefined => rfl

@[simp]
theorem distance_number : Scalar.distance (number x) (number y) = number (Scalar.distance x y) :=
  (apply_ite number (x < y) (y - x) (x - y)).symm

@[simp]
theorem nonneg_number : Scalar.nonneg (number x) = number (Scalar.nonneg x) :=
  (apply_ite number (Scalar.ofNat 0 < x) x (Scalar.ofNat 0)).symm

@[simp]
theorem sum_number (xs : List α) : Scalar.sum (xs.map number) = number (Scalar.sum xs) := by
  rw [Scalar.sum, List.foldl_map]
  exact List.foldl_hom number fun _ _ => rfl

end

@[simp]
theorem sqrt_number [RootedScalar α] (x : α) :
    RootedScalar.sqrt (number x) = number (RootedScalar.sqrt x) := rfl

/-! ### What is undefined stays undefined -/

section

variable [Scalar α] (a : Checked α)

@[simp]
theorem undefined_add : undefined + a = undefined := rfl

@[simp]
theorem add_undefined : a + undefined = undefined := by
  cases a <;> rfl

@[simp]
theorem undefined_mul : undefined * a = undefined := rfl

@[simp]
theorem div_undefined : a / undefined = undefined := by
  cases a <;> rfl

end

end Checked

end Recommender
