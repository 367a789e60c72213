import Recommender.Weights
import Recommender.Proofs.Ranking
import Mathlib.Algebra.Order.Field.Rat
import Mathlib.Algebra.Order.Group.Abs
import Mathlib.Algebra.BigOperators.Group.List.Basic
import Mathlib.Analysis.Real.Sqrt

/-!
# Exact arithmetic

Rational numbers are scalars, too. Read over them, the strategies compute without rounding, and the
order of additions does not matter. So are real numbers, which have square roots; those of rational
numbers need not be rational.

* `Scalar.sum_eq_sum`, `Scalar.distance_eq_abs`, `Scalar.nonneg_eq_max` : operations on scalars are
  those of rational numbers.
* `Scalar.ofNat_real`, `Scalar.sum_real`, `Scalar.sqrt_real` : and those of real numbers.
* `Weights.exact` : the standard weights as rational numbers.
-/

namespace Recommender

instance : Scalar ℚ where
  decLt := inferInstance
  decLe := inferInstance
  ofNat n := n
  isFinite _ := true
  totalOrder := compare

instance : LawfulScalar ℚ where
  trans_totalOrder := inferInstanceAs (Std.TransOrd ℚ)
  lawfulEq_totalOrder := inferInstanceAs (Std.LawfulEqOrd ℚ)
  zero_le_zero := le_refl (0 : ℚ)

namespace Scalar

theorem ofNat_eq_cast (n : ℕ) : (ofNat n : ℚ) = n := rfl

theorem sum_eq_sum (xs : List ℚ) : sum xs = xs.sum :=
  List.sum_eq_foldl.symm

theorem distance_eq_abs (a b : ℚ) : distance a b = |a - b| := by
  rw [distance]
  split_ifs with h
  · rw [abs_of_neg (sub_neg_of_lt h), neg_sub]
  · rw [abs_of_nonneg (sub_nonneg_of_le (not_lt.1 h))]

theorem nonneg_eq_max (a : ℚ) : nonneg a = max 0 a := by
  rw [nonneg, ofNat_eq_cast, Nat.cast_zero]
  split_ifs with h
  · rw [max_eq_right (le_of_lt h)]
  · rw [max_eq_left (not_lt.1 h)]

end Scalar

/-- The standard weights as rational numbers. -/
def Weights.exact : Weights ℚ where
  likeCategory := 1
  purchaseCategory := 2
  coOccurrence := 1
  maxSimilarUsers := 10
  recency := 1 / 5
  recencyScaleDays := 30
  popularity := 3 / 10
  price := 3 / 10
  randomScore := 1 / 10

/-! ### Real numbers -/

noncomputable instance : RootedScalar ℝ where
  decLt := inferInstance
  decLe := inferInstance
  toBEq := instBEqOfDecidableEq
  ofNat n := n
  isFinite _ := true
  totalOrder := compare
  sqrt := Real.sqrt

namespace Scalar

theorem ofNat_real (n : ℕ) : (ofNat n : ℝ) = n := rfl

theorem sum_real (xs : List ℝ) : sum xs = xs.sum := by
  rw [sum, ofNat_real, Nat.cast_zero]
  exact List.sum_eq_foldl.symm

theorem sqrt_real (x : ℝ) : RootedScalar.sqrt x = √x := rfl

end Scalar

end Recommender
