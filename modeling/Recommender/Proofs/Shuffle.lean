import Recommender.Random.Draw
import Mathlib.Data.List.Basic

/-!
# The theory of shuffling

Whatever indices are drawn, a shuffle only moves elements.

* `shuffle_perm` : nothing is lost, added or repeated.
* `shuffle_map` : the elements have no part in where they are moved.
* `getElem?_shuffleUpTo` : the places after the last one that is shuffled are left alone.
-/

namespace Recommender

variable {σ β γ : Type} [IndexSource σ]

theorem swapIfInBounds_perm (xs : Array β) (i j : Nat) : (xs.swapIfInBounds i j).Perm xs := by
  rw [Array.swapIfInBounds_def]
  split_ifs with hi hj
  · exact Array.swap_perm hi hj
  · exact .refl xs
  · exact .refl xs

theorem shuffleUpTo_perm (last : Nat) (xs : Array β) (source : σ) :
    (shuffleUpTo last xs source).1.Perm xs := by
  induction last generalizing xs source with
  | zero => exact .refl xs
  | succ last ih => exact (ih _ _).trans (swapIfInBounds_perm ..)

/-- A shuffled list holds what the list holds, as often. -/
theorem shuffle_perm (xs : List β) (source : σ) : (shuffle xs source).1.Perm xs :=
  (shuffleUpTo_perm _ xs.toArray source).toList

/-- Nothing is drawn to shuffle nothing. -/
@[simp]
theorem shuffle_nil (source : σ) : shuffle ([] : List β) source = ([], source) := rfl

/-! ### Places -/

theorem swapIfInBounds_map (f : β → γ) (xs : Array β) (i j : Nat) :
    (xs.map f).swapIfInBounds i j = (xs.swapIfInBounds i j).map f := by
  rw [Array.swapIfInBounds_def, Array.swapIfInBounds_def]
  simp only [Array.size_map]
  split_ifs with hi hj
  · refine Array.ext_getElem? fun k => ?_
    simp only [Array.getElem?_swap, Array.getElem?_map, Array.getElem_map]
    split_ifs <;> rfl
  · rfl
  · rfl

theorem shuffleUpTo_map (f : β → γ) (last : Nat) (xs : Array β) (source : σ) :
    shuffleUpTo last (xs.map f) source =
      ((shuffleUpTo last xs source).1.map f, (shuffleUpTo last xs source).2) := by
  induction last generalizing xs source with
  | zero => rfl
  | succ last ih => simp only [shuffleUpTo, swapIfInBounds_map, ih]

/-- A shuffle moves elements by their places, whatever they are. -/
theorem shuffle_map (f : β → γ) (xs : List β) (source : σ) :
    shuffle (xs.map f) source = ((shuffle xs source).1.map f, (shuffle xs source).2) := by
  simp only [shuffle, List.length_map, ← List.map_toArray, shuffleUpTo_map, Array.toList_map]

/-- The places after `last` are left alone. -/
theorem getElem?_shuffleUpTo {last k : Nat} (h : last < k) (xs : Array β) (source : σ) :
    (shuffleUpTo last xs source).1[k]? = xs[k]? := by
  induction last generalizing xs source with
  | zero => rfl
  | succ last ih =>
    have hplace := (IndexSource.draw (last + 1) source).1.isLt
    simp only [shuffleUpTo]
    rw [ih (by omega), Array.swapIfInBounds_def]
    split_ifs
    · rw [Array.getElem?_swap, if_neg (by omega), if_neg (by omega)]
    · rfl
    · rfl

/-- The largest indices of the draws of a shuffle, in their order: one for each place but the
first. -/
theorem reverse_range'_succ (last : Nat) :
    (List.range' 1 (last + 1)).reverse = (last + 1) :: (List.range' 1 last).reverse := by
  rw [List.range'_1_concat, List.reverse_append, Nat.add_comm]
  rfl

end Recommender
