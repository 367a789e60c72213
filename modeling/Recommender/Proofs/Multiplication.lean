import Recommender.Binary64
import Mathlib

/-!
# Floating point products in either order

A product does not depend on the order of its factors unless both are NaNs, of which the first is
passed on. Whatever is computed from numbers alone is a number or the one NaN of results that do
not exist, so among such values the order never matters.

* `Binary64.float_mul_comm` : products of floats, from core's model of them.
* `Binary64.mul_comm_iff` : the products that do not depend on the order, bit for bit.
* `Binary64.Settled` : numbers, and the NaN of results that do not exist; all operations stay within
  them (`Binary64.settled_lift₂`, `Binary64.settled_sum`).
* `Binary64.isNaN_sum` : one NaN makes a sum a NaN.
-/

namespace Recommender

namespace Binary64

open Float.Model Float.Model.UnpackedFloat

variable {x y : Binary64} {op : Float → Float → Float}

/-! ### Products of floats -/

theorem sign_mul_comm (s t : Sign) : s * t = t * s := by
  cases s <;> cases t <;> rfl

theorem unpacked_mul_comm (format : Format) (x y : UnpackedFloat) :
    UnpackedFloat.mul format x y = UnpackedFloat.mul format y x := by
  cases x <;> cases y <;>
    simp only [UnpackedFloat.mul, sign_mul_comm, Nat.mul_comm, Int.add_comm]

theorem float_mul_comm (x y : Float) : x * y = y * x :=
  congrArg (fun product => Float.ofModel (pack product))
    (unpacked_mul_comm .binary64 x.toModel.unpack y.toModel.unpack)

/-! ### NaNs are passed on -/

theorem isNaN_quiet (h : x.isNaN) : x.quiet.isNaN := by
  have hor : x.quiet.magnitude = x.magnitude ||| 0x0008000000000000 := by
    show (x.bits ||| 0x0008000000000000).toNat % 2 ^ 63 = _
    rw [UInt64.toNat_or, Nat.or_mod_two_pow]
    rfl
  simp only [isNaN, decide_eq_true_eq] at h ⊢
  rw [hor]
  exact h.trans_le Nat.left_le_or

theorem lift₂_of_isNaN_left (hx : x.isNaN) : lift₂ op x y = x.quiet :=
  if_pos hx

theorem lift₂_of_isNaN_right (hx : ¬ x.isNaN) (hy : y.isNaN) : lift₂ op x y = y.quiet := by
  rw [lift₂, if_neg hx, if_pos hy]

theorem lift₂_of_not_isNaN (hx : ¬ x.isNaN) (hy : ¬ y.isNaN) :
    lift₂ op x y = ofResult (op x.toFloat y.toFloat) := by
  rw [lift₂, if_neg hx, if_neg hy]

theorem isNaN_lift₂ (h : x.isNaN ∨ y.isNaN) : (lift₂ op x y).isNaN := by
  by_cases hx : x.isNaN
  · rw [lift₂_of_isNaN_left hx]
    exact isNaN_quiet hx
  · have hy : y.isNaN := h.resolve_left hx
    rw [lift₂_of_isNaN_right hx hy]
    exact isNaN_quiet hy

theorem isNaN_sqrt (hx : x.isNaN) : (RootedScalar.sqrt x).isNaN := by
  have hlift : RootedScalar.sqrt x = x.quiet := if_pos hx
  rw [hlift]
  exact isNaN_quiet hx

theorem isNaN_foldl_add {xs : List Binary64} {start : Binary64}
    (h : start.isNaN ∨ ∃ x ∈ xs, x.isNaN) : (xs.foldl (· + ·) start).isNaN := by
  induction xs generalizing start with
  | nil => simpa using h
  | cons x xs ih =>
    rw [List.exists_mem_cons_iff, ← or_assoc] at h
    exact ih (h.imp_left isNaN_lift₂)

/-- One NaN makes a sum a NaN. -/
theorem isNaN_sum {xs : List Binary64} (h : ∃ x ∈ xs, x.isNaN) : (Scalar.sum xs).isNaN :=
  isNaN_foldl_add (.inr h)

/-- A NaN equals nothing. -/
theorem beq_of_isNaN (hx : x.isNaN) : (x == y) = false := by
  show (!x.isNaN && !y.isNaN && decide (x.place = y.place)) = false
  rw [hx]
  rfl

/-- The order of the factors matters only between two NaNs that are passed on differently. -/
theorem mul_comm_iff : x * y = y * x ↔ (x.isNaN → y.isNaN → x.quiet = y.quiet) := by
  show lift₂ (· * ·) x y = lift₂ (· * ·) y x ↔ _
  by_cases hx : x.isNaN
  · by_cases hy : y.isNaN
    · rw [lift₂_of_isNaN_left hx, lift₂_of_isNaN_left hy]
      exact ⟨fun h _ _ => h, fun h => h hx hy⟩
    · rw [lift₂_of_isNaN_left hx, lift₂_of_isNaN_right hy hx]
      exact ⟨fun _ _ h => absurd h hy, fun _ => rfl⟩
  · have heq : lift₂ (· * ·) x y = lift₂ (· * ·) y x := by
      by_cases hy : y.isNaN
      · rw [lift₂_of_isNaN_right hx hy, lift₂_of_isNaN_left hy]
      · rw [lift₂_of_not_isNaN hx hy, lift₂_of_not_isNaN hy hx, float_mul_comm]
    exact ⟨fun _ h => absurd h hx, fun _ => heq⟩

/-! ### What is computed from numbers -/

/-- A number, or the NaN that stands for a result that does not exist. -/
def Settled (x : Binary64) : Prop :=
  x.isNaN → x = undefined

theorem quiet_undefined : undefined.quiet = undefined := by decide

/-- A float with the bits of a NaN is the NaN of floats. -/
theorem isNaN_of_isNaN_ofFloat {r : Float} (h : (ofFloat r).isNaN) : r.isNaN := by
  have hmagnitude : 0x7ff0000000000000 < r.toModel.toBits.toNat % 2 ^ 63 := of_decide_eq_true h
  have hbound := r.toModel.toBits.toNat_lt
  show (UnpackedFloat.unpack .binary64 r.toModel.toBits.toBitVec).isNaN = true
  generalize r.toModel.toBits = bits at *
  have hexponent : @unpackExponent .binary64 bits.toBitVec = -1#11 := by
    rw [unpackExponent_def]
    apply BitVec.eq_of_toNat_eq
    rw [BitVec.extractLsb'_toNat, Nat.shiftRight_eq_div_pow]
    show bits.toNat / 2 ^ 52 % 2 ^ 11 = 2047
    omega
  have hmantissa : @unpackMantissa .binary64 bits.toBitVec ≠ 0#52 := by
    rw [unpackMantissa_def]
    intro hzero
    have hnat := congrArg BitVec.toNat hzero
    rw [BitVec.extractLsb'_toNat] at hnat
    have hfraction : bits.toNat % 2 ^ 52 = 0 := hnat
    omega
  rw [isNaN_iff, UnpackedFloat.unpack]
  dsimp only
  rw [if_pos hexponent, if_neg hmantissa]

theorem settled_ofResult (r : Float) : Settled (ofResult r) := by
  intro h
  rw [ofResult] at h ⊢
  split_ifs at h ⊢ with hr
  · rfl
  · exact absurd (isNaN_of_isNaN_ofFloat h) hr

theorem settled_lift₂ (hx : Settled x) (hy : Settled y) : Settled (lift₂ op x y) := by
  by_cases hxn : x.isNaN
  · rw [lift₂_of_isNaN_left hxn, hx hxn, quiet_undefined]
    exact fun _ => rfl
  · by_cases hyn : y.isNaN
    · rw [lift₂_of_isNaN_right hxn hyn, hy hyn, quiet_undefined]
      exact fun _ => rfl
    · rw [lift₂_of_not_isNaN hxn hyn]
      exact settled_ofResult _

theorem settled_sqrt (hx : Settled x) : Settled (RootedScalar.sqrt x) := by
  show Settled (lift Float.sqrt x)
  rw [lift]
  split_ifs with hxn
  · rw [hx hxn, quiet_undefined]
    exact fun _ => rfl
  · exact settled_ofResult _

theorem settled_sum {xs : List Binary64} (h : ∀ x ∈ xs, Settled x) : Settled (Scalar.sum xs) := by
  have hzero : Settled (Scalar.ofNat 0) := fun hnan => absurd hnan (by decide)
  exact List.foldlRecOn xs (· + ·) hzero fun _ hsum x hx => settled_lift₂ hsum (h x hx)

/-- Among settled values the order of factors never matters. -/
theorem mul_comm_of_settled (hx : Settled x) (hy : Settled y) : x * y = y * x :=
  mul_comm_iff.2 fun hxn hyn => by rw [hx hxn, hy hyn]

end Binary64

end Recommender
