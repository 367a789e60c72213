import Mathlib.Analysis.InnerProductSpace.PiL2
import Mathlib.Geometry.Euclidean.Angle.Unoriented.Basic
import Recommender.Proofs.Cosine
import Recommender.Proofs.Exact

/-!
# The cosine of an angle

With exact numbers, a vector is a point of a Euclidean space, scalar products are inner products,
and the cosine of two vectors of one length is the cosine of the angle between the points. What is
known of angles holds of it: its range, and what becomes of it when a vector is scaled.

* `Cosine.point` : a vector as a point.
* `Cosine.dot_eq_inner`, `Cosine.sqrt_dot_self` : scalar products and magnitudes of vectors are
  those of points.
* `Cosine.cosine_eq_cos_angle` : the cosine of vectors is that of the angle between points.
* `Cosine.cosine_measures_angle` : the value of the cosine, its range, and scaled vectors.
-/

namespace Recommender

namespace Cosine

open InnerProductGeometry

variable {n : ℕ} {a b : List ℝ} {c : ℝ}

/-! ### Vectors as points -/

/-- A vector of `n` entries as a point of the space of `n` dimensions. -/
noncomputable def point (n : ℕ) (a : List ℝ) : EuclideanSpace ℝ (Fin n) :=
  WithLp.toLp 2 fun i => a.getD i 0

theorem dot_eq_inner (ha : a.length = n) (hb : b.length = n) :
    dot a b = inner ℝ (point n a) (point n b) := by
  have hproducts : List.zipWith (· * ·) a b =
      List.ofFn fun i : Fin n => a.getD i 0 * b.getD i 0 := by
    refine List.ext_getElem (by simp [ha, hb]) fun i hi hi' => ?_
    simp only [List.length_zipWith, lt_inf_iff] at hi
    simp [hi.1, hi.2]
  rw [dot, Scalar.sum_real, hproducts, List.sum_ofFn, PiLp.inner_apply]
  exact Finset.sum_congr rfl fun i _ => mul_comm _ _

theorem sqrt_dot_self (ha : a.length = n) : √(dot a a) = ‖point n a‖ := by
  rw [dot_eq_inner ha ha, real_inner_self_eq_norm_sq, Real.sqrt_sq (norm_nonneg _)]

theorem point_eq_zero_iff (ha : a.length = n) : point n a = 0 ↔ ∀ x ∈ a, x = 0 := by
  subst ha
  rw [List.forall_mem_iff_getElem, PiLp.ext_iff, Fin.forall_iff]
  refine forall₂_congr fun i hi => ?_
  simp [point]

theorem point_scaled : point n (a.map (c * ·)) = c • point n a := by
  ext i
  simp only [point, PiLp.smul_apply, smul_eq_mul, List.getD_eq_getElem?_getD, List.getElem?_map]
  cases a[i.val]? <;> simp

/-- The cosine of two vectors of one length is the cosine of the angle between them. If one of them
has magnitude zero the angle counts as a right one. -/
theorem cosine_eq_cos_angle (ha : a.length = n) (hb : b.length = n) :
    cosine a b = Real.cos (angle (point n a) (point n b)) := by
  rw [cos_angle, ← dot_eq_inner ha hb, ← sqrt_dot_self ha, ← sqrt_dot_self hb]
  by_cases hnil : a = []
  · have hzero : dot [] b = (0 : ℝ) := by simp [dot, Scalar.sum_real]
    rw [cosine_of_shape (.inr hnil), hnil, hzero, zero_div, Scalar.ofNat_real, Nat.cast_zero]
  · rw [cosine_eq_quotient (ha.trans hb.symm) hnil, accumulate_eq (ha.trans hb.symm), quotient]
    simp only [Scalar.sqrt_real, Scalar.ofNat_real, Nat.cast_zero, beq_iff_eq]
    split_ifs with hzero
    · rw [hzero, div_zero]
    · rfl

/-! ### The range -/

theorem cosine_of_length_ne (h : a.length ≠ b.length) : cosine a b = 0 := by
  rw [cosine_of_shape (.inl h), Scalar.ofNat_real, Nat.cast_zero]

theorem cosine_of_zeros (h : (∀ x ∈ a, x = 0) ∨ ∀ y ∈ b, y = 0) : cosine a b = 0 := by
  by_cases hlength : a.length = b.length
  · rw [cosine_eq_cos_angle hlength rfl, cos_angle]
    rcases h with ha | hb
    · rw [(point_eq_zero_iff hlength).2 ha, inner_zero_left, zero_div]
    · rw [(point_eq_zero_iff rfl).2 hb, inner_zero_right, zero_div]
  · exact cosine_of_length_ne hlength

theorem cosine_mem_Icc (a b : List ℝ) : cosine a b ∈ Set.Icc (-1) 1 := by
  by_cases hlength : a.length = b.length
  · rw [cosine_eq_cos_angle hlength rfl]
    exact ⟨Real.neg_one_le_cos _, Real.cos_le_one _⟩
  · rw [cosine_of_length_ne hlength]
    norm_num

theorem dot_nonneg (ha : ∀ x ∈ a, 0 ≤ x) (hb : ∀ y ∈ b, 0 ≤ y) : 0 ≤ dot a b := by
  rw [dot, Scalar.sum_real, ← List.map_uncurry_zip_eq_zipWith]
  refine List.sum_nonneg fun product hproduct => ?_
  obtain ⟨p, hp, rfl⟩ := List.mem_map.1 hproduct
  obtain ⟨hx, hy⟩ := List.of_mem_zip hp
  exact mul_nonneg (ha p.1 hx) (hb p.2 hy)

theorem cosine_nonneg (ha : ∀ x ∈ a, 0 ≤ x) (hb : ∀ y ∈ b, 0 ≤ y) : 0 ≤ cosine a b := by
  by_cases hlength : a.length = b.length
  · rw [cosine_eq_cos_angle hlength rfl, cos_angle, ← dot_eq_inner hlength rfl]
    exact div_nonneg (dot_nonneg ha hb) (by positivity)
  · rw [cosine_of_length_ne hlength]

theorem cosine_self (h : ∃ x ∈ a, x ≠ 0) : cosine a a = 1 := by
  obtain ⟨x, hx, hne⟩ := h
  have hpoint : point a.length a ≠ 0 := fun hzero => hne ((point_eq_zero_iff rfl).1 hzero x hx)
  rw [cosine_eq_cos_angle rfl rfl, angle_self hpoint, Real.cos_zero]

/-! ### Scaled vectors -/

theorem cosine_comm_real (a b : List ℝ) : cosine a b = cosine b a :=
  cosine_comm (fun _ _ => mul_comm _ _) (mul_comm _ _)

theorem cosine_scaled_of_pos (hc : 0 < c) : cosine (a.map (c * ·)) b = cosine a b := by
  by_cases hlength : a.length = b.length
  · rw [cosine_eq_cos_angle (by rwa [List.length_map]) rfl, cosine_eq_cos_angle hlength rfl,
      point_scaled, angle_smul_left_of_pos _ _ hc]
  · rw [cosine_of_length_ne (by rwa [List.length_map]), cosine_of_length_ne hlength]

theorem cosine_scaled_of_neg (hc : c < 0) : cosine (a.map (c * ·)) b = -cosine a b := by
  by_cases hlength : a.length = b.length
  · rw [cosine_eq_cos_angle (by rwa [List.length_map]) rfl, cosine_eq_cos_angle hlength rfl,
      point_scaled, angle_smul_left_of_neg _ _ hc, angle_neg_left, Real.cos_pi_sub]
  · rw [cosine_of_length_ne (by rwa [List.length_map]), cosine_of_length_ne hlength, neg_zero]

/-! ### The sums of one pass -/

theorem sums_le (h : a.length = b.length) :
    (accumulate a b).1 ^ 2 ≤ (accumulate a b).2.1 * (accumulate a b).2.2 := by
  rw [accumulate_eq h, pow_two, dot_eq_inner h rfl, dot_eq_inner h h, dot_eq_inner rfl rfl]
  exact real_inner_mul_inner_self_le _ _

theorem dot_self_eq_zero_iff : dot a a = 0 ↔ ∀ x ∈ a, x = 0 := by
  rw [dot_eq_inner rfl rfl, inner_self_eq_zero, point_eq_zero_iff rfl]

theorem dot_self (a : List ℝ) : dot a a = (a.map (· ^ 2)).sum := by
  rw [dot, Scalar.sum_real, List.zipWith_self]
  simp only [pow_two]

theorem dot_self_pos (h : ∃ x ∈ a, x ≠ 0) : 0 < dot a a := by
  obtain ⟨x, hx, hne⟩ := h
  refine lt_of_le_of_ne' ?_ fun hzero => hne (dot_self_eq_zero_iff.1 hzero x hx)
  rw [dot_eq_inner rfl rfl]
  exact real_inner_self_nonneg

/-- **The cosine is that of an angle.** With exact numbers it is zero for vectors of different
lengths, without entries or all of zeros. All others have an angle, and the cosine is their scalar
product divided by their magnitudes, which are above zero. It is at least `-1` and at most `1`, not
below zero if no entry is, and `1` for a vector and itself. To scale one of the vectors by a
positive number does not change it, and by a negative number changes its sign. The sums of one pass
say this without roots: the square of the scalar product is at most the product of the squares of
the magnitudes, and such a square is zero for a vector of zeros only. -/
theorem cosine_measures_angle (a b : List ℝ) :
    (a.length ≠ b.length ∨ a = [] ∨ b = [] ∨ (∀ x ∈ a, x = 0) ∨ (∀ y ∈ b, y = 0) →
      cosine a b = 0) ∧
    (a.length = b.length → (∃ x ∈ a, x ≠ 0) → (∃ y ∈ b, y ≠ 0) →
      0 < √(a.map (· ^ 2)).sum * √(b.map (· ^ 2)).sum ∧
      cosine a b = (List.zipWith (· * ·) a b).sum /
        (√(a.map (· ^ 2)).sum * √(b.map (· ^ 2)).sum)) ∧
    (a.length = b.length →
      cosine a b = Real.cos (angle (point a.length a) (point a.length b))) ∧
    cosine a b ∈ Set.Icc (-1) 1 ∧
    ((∀ x ∈ a, 0 ≤ x) → (∀ y ∈ b, 0 ≤ y) → cosine a b ∈ Set.Icc 0 1) ∧
    ((∃ x ∈ a, x ≠ 0) → cosine a a = 1) ∧
    (∀ c > 0, cosine (a.map (c * ·)) b = cosine a b ∧ cosine a (b.map (c * ·)) = cosine a b) ∧
    (∀ c < 0, cosine (a.map (c * ·)) b = -cosine a b ∧
      cosine a (b.map (c * ·)) = -cosine a b) ∧
    (a.length = b.length →
      (a ≠ [] → cosine a b = quotient (accumulate a b)) ∧
      (accumulate a b).1 ^ 2 ≤ (accumulate a b).2.1 * (accumulate a b).2.2 ∧
      ((accumulate a b).2.1 = 0 ↔ ∀ x ∈ a, x = 0) ∧
      ((accumulate a b).2.2 = 0 ↔ ∀ y ∈ b, y = 0)) := by
  refine ⟨?_, ?_, ?_, cosine_mem_Icc a b, ?_, cosine_self, ?_, ?_, ?_⟩
  · rintro (hlength | rfl | rfl | hzeros)
    · exact cosine_of_length_ne hlength
    · exact cosine_of_zeros (.inl (by simp))
    · exact cosine_of_zeros (.inr (by simp))
    · exact cosine_of_zeros hzeros
  · intro h ha hb
    have hpos : 0 < √(dot a a) * √(dot b b) :=
      mul_pos (Real.sqrt_pos.2 (dot_self_pos ha)) (Real.sqrt_pos.2 (dot_self_pos hb))
    rw [← dot_self, ← dot_self]
    refine ⟨hpos, ?_⟩
    rw [cosine_eq_cos_angle h rfl, cos_angle, ← dot_eq_inner h rfl, ← sqrt_dot_self h,
      ← sqrt_dot_self rfl, dot, Scalar.sum_real]
  · intro h
    exact cosine_eq_cos_angle rfl h.symm
  · intro ha hb
    exact ⟨cosine_nonneg ha hb, (cosine_mem_Icc a b).2⟩
  · intro c hc
    refine ⟨cosine_scaled_of_pos hc, ?_⟩
    rw [cosine_comm_real, cosine_scaled_of_pos hc, cosine_comm_real]
  · intro c hc
    refine ⟨cosine_scaled_of_neg hc, ?_⟩
    rw [cosine_comm_real, cosine_scaled_of_neg hc, cosine_comm_real]
  · intro h
    refine ⟨cosine_eq_quotient h, sums_le h, ?_, ?_⟩
    · rw [accumulate_eq h]
      exact dot_self_eq_zero_iff
    · rw [accumulate_eq h]
      exact dot_self_eq_zero_iff

/-- The vectors of 3 and 4 and of 4 and 0 have magnitudes 5 and 4 and the scalar product 12. -/
theorem cosine_measures_angle_partial :
    cosine [(3 : ℝ), 4] [4, 0] = 3 / 5 ∧
    cosine [(3 : ℝ), 4] [4, 0] ∈ Set.Icc 0 1 ∧
    cosine [(3 : ℝ), 4] [3, 4] = 1 ∧
    cosine ([(3 : ℝ), 4].map (2 * ·)) [4, 0] = cosine [3, 4] [4, 0] ∧
    cosine [(3 : ℝ), 4] ([4, 0].map (-2 * ·)) = -cosine [3, 4] [4, 0] ∧
    cosine [(3 : ℝ), 4] [4] = 0 ∧
    cosine [(3 : ℝ), 4] [0, 0] = 0 ∧
    (accumulate [(3 : ℝ), 4] [4, 0]).1 ^ 2 ≤
      (accumulate [(3 : ℝ), 4] [4, 0]).2.1 * (accumulate [(3 : ℝ), 4] [4, 0]).2.2 := by
  obtain ⟨-, hvalue, -, -, hrange, hself, hpos, hneg, hsums⟩ :=
    cosine_measures_angle [(3 : ℝ), 4] [4, 0]
  obtain ⟨hshape, -⟩ := cosine_measures_angle [(3 : ℝ), 4] [4]
  obtain ⟨hzeros, -⟩ := cosine_measures_angle [(3 : ℝ), 4] [0, 0]
  refine ⟨?_, hrange (by norm_num) (by norm_num), hself ⟨3, by simp, by norm_num⟩,
    (hpos 2 two_pos).1, (hneg (-2) (by norm_num)).2, hshape (.inl (by decide)),
    hzeros (by simp), (hsums rfl).2.1⟩
  have hroot : √(25 : ℝ) = 5 := by
    rw [Real.sqrt_eq_iff_mul_self_eq (by norm_num) (by norm_num)]
    norm_num
  have hroot' : √(16 : ℝ) = 4 := by
    rw [Real.sqrt_eq_iff_mul_self_eq (by norm_num) (by norm_num)]
    norm_num
  rw [(hvalue rfl ⟨3, by simp, by norm_num⟩ ⟨4, by simp, by norm_num⟩).2]
  norm_num [hroot, hroot']

end Cosine

end Recommender
