import Recommender.Binary64
import Mathlib.Tactic.ByContra
import Mathlib.Tactic.SplitIfs

/-!
# The total order of floating point numbers

Rankings compare all bit patterns. The order is that of the numbers, as far as these are told apart;
of the zeros, the one with the sign comes first. NaNs stand at the ends, those with the sign below
all numbers and those without it above, and among themselves go by their bits.

* `Binary64.Precedes` : the order, clause by clause.
* `Binary64.precedes_iff` : a bit pattern precedes another just if its rank is lower.
-/

namespace Recommender

namespace Binary64

/-- The total order of floating point numbers: one bit pattern stands below another. -/
inductive Precedes : Binary64 → Binary64 → Prop
  /-- The lesser number stands below. -/
  | less {x y : Binary64} (h : x < y) : Precedes x y
  /-- The zero with the sign stands below the other zero. -/
  | zeros {x y : Binary64} (hx : x.isZero) (hy : y.isZero) (signed : x.isNegative)
    (unsigned : ¬ y.isNegative) : Precedes x y
  /-- A NaN with the sign stands below all numbers. -/
  | signedNaN {x y : Binary64} (hx : x.isNaN) (hy : ¬ y.isNaN) (signed : x.isNegative) :
    Precedes x y
  /-- A NaN without the sign stands above all numbers. -/
  | unsignedNaN {x y : Binary64} (hx : ¬ x.isNaN) (hy : y.isNaN) (unsigned : ¬ y.isNegative) :
    Precedes x y
  /-- A NaN with the sign stands below those without. -/
  | signs {x y : Binary64} (hx : x.isNaN) (hy : y.isNaN) (signed : x.isNegative)
    (unsigned : ¬ y.isNegative) : Precedes x y
  /-- Of two NaNs without the sign the one with the lesser bits stands below. -/
  | payloads {x y : Binary64} (hx : x.isNaN) (hy : y.isNaN) (unsigned : ¬ x.isNegative)
    (unsigned' : ¬ y.isNegative) (h : x.magnitude < y.magnitude) : Precedes x y
  /-- Of two NaNs with the sign the one with the greater bits stands below. -/
  | signedPayloads {x y : Binary64} (hx : x.isNaN) (hy : y.isNaN) (signed : x.isNegative)
    (signed' : y.isNegative) (h : y.magnitude < x.magnitude) : Precedes x y

variable {x y : Binary64}

theorem isNaN_iff_lt : x.isNaN ↔ infinity.magnitude < x.magnitude :=
  decide_eq_true_iff

theorem isZero_iff : x.isZero ↔ x.magnitude = 0 :=
  decide_eq_true_iff

theorem rank_of_signed (h : x.isNegative) : x.rank = -1 - x.magnitude := if_pos h

theorem rank_of_unsigned (h : ¬ x.isNegative) : x.rank = x.magnitude := if_neg h

theorem place_of_signed (h : x.isNegative) : x.place = -x.magnitude := if_pos h

theorem place_of_unsigned (h : ¬ x.isNegative) : x.place = x.magnitude := if_neg h

theorem Precedes.rank_lt (h : Precedes x y) : x.rank < y.rank := by
  cases h with
  | less h =>
    obtain ⟨-, -, hplace⟩ := h
    unfold place at hplace
    unfold rank
    split_ifs at hplace ⊢ <;> omega
  | zeros hx hy signed unsigned =>
    rw [isZero_iff] at hx hy
    rw [rank_of_signed signed, rank_of_unsigned unsigned]
    omega
  | signedNaN hx hy signed =>
    rw [isNaN_iff_lt] at hx hy
    rw [rank_of_signed signed, rank]
    split_ifs <;> omega
  | unsignedNaN hx hy unsigned =>
    rw [isNaN_iff_lt] at hx hy
    rw [rank_of_unsigned unsigned, rank]
    split_ifs <;> omega
  | signs hx hy signed unsigned =>
    rw [rank_of_signed signed, rank_of_unsigned unsigned]
    omega
  | payloads hx hy unsigned unsigned' h =>
    rw [rank_of_unsigned unsigned, rank_of_unsigned unsigned']
    omega
  | signedPayloads hx hy signed signed' h =>
    rw [rank_of_signed signed, rank_of_signed signed']
    omega

/-- Numbers stand in the order of their places; ranks only tell apart the zeros, too. -/
theorem precedes_of_numbers (hx : ¬ x.isNaN) (hy : ¬ y.isNaN) (h : x.rank < y.rank) :
    Precedes x y := by
  by_cases hplace : x.place < y.place
  · exact .less ⟨hx, hy, hplace⟩
  by_cases signed : x.isNegative
  · rw [rank_of_signed signed] at h
    rw [place_of_signed signed] at hplace
    by_cases signed' : y.isNegative
    · rw [rank_of_signed signed'] at h
      rw [place_of_signed signed'] at hplace
      omega
    · rw [rank_of_unsigned signed'] at h
      rw [place_of_unsigned signed'] at hplace
      exact .zeros (isZero_iff.2 (by omega)) (isZero_iff.2 (by omega)) signed signed'
  · rw [rank_of_unsigned signed] at h
    rw [place_of_unsigned signed] at hplace
    unfold rank at h
    unfold place at hplace
    split_ifs at h hplace <;> omega

theorem precedes_of_NaNs (hx : x.isNaN) (hy : y.isNaN) (h : x.rank < y.rank) : Precedes x y := by
  by_cases signed : x.isNegative
  · rw [rank_of_signed signed] at h
    by_cases signed' : y.isNegative
    · rw [rank_of_signed signed'] at h
      exact .signedPayloads hx hy signed signed' (by omega)
    · exact .signs hx hy signed signed'
  · rw [rank_of_unsigned signed] at h
    by_cases signed' : y.isNegative
    · rw [rank_of_signed signed'] at h
      omega
    · rw [rank_of_unsigned signed'] at h
      exact .payloads hx hy signed signed' (by omega)

theorem precedes_of_rank_lt (h : x.rank < y.rank) : Precedes x y := by
  by_cases hx : x.isNaN
  · by_cases hy : y.isNaN
    · exact precedes_of_NaNs hx hy h
    · refine .signedNaN hx hy ?_
      -- without the sign it would stand above the number
      by_contra unsigned
      rw [isNaN_iff_lt] at hx hy
      rw [rank_of_unsigned unsigned, rank] at h
      split_ifs at h <;> omega
  · by_cases hy : y.isNaN
    · refine .unsignedNaN hx hy fun signed => ?_
      rw [isNaN_iff_lt] at hx hy
      rw [rank_of_signed signed, rank] at h
      split_ifs at h <;> omega
    · exact precedes_of_numbers hx hy h

/-- **Ranks are places in the total order.** -/
theorem precedes_iff : Precedes x y ↔ x.rank < y.rank :=
  ⟨Precedes.rank_lt, precedes_of_rank_lt⟩

end Binary64

end Recommender
