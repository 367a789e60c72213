import Recommender.Proofs.Divisors

/-!
# The cosine in one pass

A cosine needs three sums: the scalar product of two vectors, and the squares of their magnitudes.
One pass over the pairs of entries adds them up side by side. To change the places of the vectors
changes the order of factors, and nothing else.

* `Cosine.accumulate` : the three sums of one pass.
* `Cosine.accumulate_eq` : they are the scalar products of the vectors.
* `Cosine.cosine_eq_quotient` : what a cosine makes of them, if the vectors may have an angle.
* `Cosine.dot_comm`, `Cosine.cosine_comm` : if the products that are formed do not depend on the
  order of their factors, neither do scalar products and cosines.
-/

namespace Recommender

namespace Cosine

variable {α : Type}

section

variable [Scalar α] {a b : List α}

/-- Adds the products of two entries to the scalar product and to the squares of the magnitudes. -/
def addEntries (sums : α × α × α) (entries : α × α) : α × α × α :=
  (sums.1 + entries.1 * entries.2, sums.2.1 + entries.1 * entries.1,
    sums.2.2 + entries.2 * entries.2)

/-- The scalar product of two vectors and the squares of their magnitudes, added up in one pass. -/
def accumulate (a b : List α) : α × α × α :=
  (a.zip b).foldl addEntries (Scalar.ofNat 0, Scalar.ofNat 0, Scalar.ofNat 0)

/-- Each of the three sums goes on as if it were alone. -/
theorem foldl_addEntries (h : a.length = b.length) (product first second : α) :
    (a.zip b).foldl addEntries (product, first, second) =
      ((a.zipWith (· * ·) b).foldl (· + ·) product, (a.zipWith (· * ·) a).foldl (· + ·) first,
        (b.zipWith (· * ·) b).foldl (· + ·) second) := by
  induction a generalizing b product first second with
  | nil =>
    obtain rfl := List.length_eq_zero_iff.1 h.symm
    rfl
  | cons x a ih =>
    cases b with
    | nil => exact absurd h (Nat.succ_ne_zero _)
    | cons y b => exact ih (Nat.succ.inj h) _ _ _

theorem accumulate_eq (h : a.length = b.length) :
    accumulate a b = (dot a b, dot a a, dot b b) :=
  foldl_addEntries h _ _ _

/-- If the entries at one place may be multiplied in either order, so may the vectors. -/
theorem dot_comm (h : ∀ p ∈ a.zip b, p.1 * p.2 = p.2 * p.1) : dot a b = dot b a := by
  have hproducts : a.zipWith (· * ·) b = a.zipWith (fun x y => y * x) b := by
    rw [← List.map_uncurry_zip_eq_zipWith, ← List.map_uncurry_zip_eq_zipWith]
    exact List.map_congr_left h
  rw [dot, dot, hproducts, ← List.zipWith_comm]

end

variable [RootedScalar α] {a b : List α}

/-- What a cosine makes of the sums: it divides the first by the product of the roots of the
others, unless that product equals zero. -/
def quotient (sums : α × α × α) : α :=
  let magnitude := RootedScalar.sqrt sums.2.1 * RootedScalar.sqrt sums.2.2
  if magnitude == Scalar.ofNat 0 then Scalar.ofNat 0 else sums.1 / magnitude

theorem cosine_of_shape (h : a.length ≠ b.length ∨ a = []) : cosine a b = Scalar.ofNat 0 :=
  if_pos h

theorem cosine_comm_of_length_ne (h : a.length ≠ b.length) : cosine a b = cosine b a := by
  rw [cosine_of_shape (.inl h), cosine_of_shape (.inl h.symm)]

/-- Vectors with entries, as many the one as the other, are compared by the sums. -/
theorem cosine_eq_quotient (h : a.length = b.length) (entries : a ≠ []) :
    cosine a b = quotient (accumulate a b) := by
  rw [accumulate_eq h]
  exact if_neg (not_or.2 ⟨not_not.2 h, entries⟩)

/-- A cosine does not depend on the order of the vectors if no product that it forms depends on the
order of its factors. -/
theorem cosine_comm (entries : ∀ p ∈ a.zip b, p.1 * p.2 = p.2 * p.1)
    (roots : magnitudes a b = magnitudes b a) : cosine a b = cosine b a := by
  by_cases h : a.length = b.length
  · by_cases hnil : a = []
    · subst hnil
      obtain rfl := List.length_eq_zero_iff.1 h.symm
      rfl
    · have hnil' : b ≠ [] := by
        rintro rfl
        exact hnil (List.length_eq_zero_iff.1 h)
      rw [cosine_eq_quotient h hnil, cosine_eq_quotient h.symm hnil', accumulate_eq h,
        accumulate_eq h.symm, dot_comm entries]
      show (if magnitudes a b == _ then _ else _ / magnitudes a b) = _
      rw [roots]
      rfl
  · exact cosine_comm_of_length_ne h

end Cosine

end Recommender
