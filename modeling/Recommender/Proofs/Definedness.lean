import Recommender.Proofs.Bonuses
import Recommender.Proofs.Divisors
import Recommender.Proofs.Exact

/-!
# No division by zero

With exact numbers and usable weights, nothing is divided by zero on the way to a score, a
similarity or a prediction. Scores are read over rational numbers, and cosines and predictions,
which need roots, over real numbers.

* `Taste.Divisor.ne_zero` : what scores by taste divide by is not zero, if the weights are usable.
* `Cosine.Divisor.pos`, `Ratings.Divisor.pos` : what a cosine or a prediction divides by is above
  zero.
* `Ratings.total_pos` : if anyone has a part in a prediction, the similarities add up to more than
  zero.
* `never_divides_by_zero` : so no score, no similarity and no prediction is undefined.
-/

namespace Recommender

open Checked (number)

/-! ### Scores by taste -/

namespace Taste

variable {s : Snapshot ℚ} {w : Weights ℚ}

theorem ageInDays_nonneg (p : Product ℚ) (now : Instant) : 0 ≤ p.ageInDays now := by
  rw [Product.ageInDays, Scalar.ofNat_eq_cast, Scalar.ofNat_eq_cast]
  positivity

/-- Of a product that is created later than now, the age is zero. -/
theorem one_le_aging (usable : w.defect? = none) (p : Product ℚ) (now : Instant) :
    1 ≤ 1 + p.ageInDays now / w.recencyScaleDays :=
  le_add_of_nonneg_right (div_nonneg (ageInDays_nonneg p now) (scale_pos usable).le)

theorem Divisor.ne_zero (usable : w.defect? = none) {d : ℚ} (divisor : Divisor s w d) :
    d ≠ 0 := by
  cases divisor with
  | day => decide
  | scale => exact (scale_pos usable).ne'
  | aging unseen =>
    -- one and what is not negative is at least one
    rw [Scalar.ofNat_eq_cast, Nat.cast_one]
    exact (zero_lt_one.trans_le (one_le_aging usable _ _)).ne'
  | references past =>
    rw [Scalar.ofNat_eq_cast, Nat.cast_ne_zero]
    exact mt List.length_eq_zero_iff.1 past
  | average known nonzero => exact beq_eq_false_iff_ne.1 nonzero
  | half => decide

theorem defined_of_usable (usable : w.defect? = none) : Defined s w := fun _ divisor =>
  beq_eq_false_iff_ne.2 (divisor.ne_zero usable)

end Taste

/-! ### Similarities -/

namespace Cosine

variable {a b : List ℝ}

theorem Divisor.pos {d : ℝ} (divisor : Divisor a b d) : 0 < d := by
  cases divisor with
  | product _ _ nonzero =>
    have hnonneg : 0 ≤ magnitudes a b := by
      rw [magnitudes, Scalar.sqrt_real, Scalar.sqrt_real]
      positivity
    rw [Scalar.ofNat_real, Nat.cast_zero] at nonzero
    exact lt_of_le_of_ne' hnonneg (beq_eq_false_iff_ne.1 nonzero)

theorem beq_zero_of_pos (ha : 0 < dot a a) (hb : 0 < dot b b) :
    (magnitudes a b == Scalar.ofNat 0) = false := by
  have hpos : 0 < magnitudes a b := by
    rw [magnitudes, Scalar.sqrt_real, Scalar.sqrt_real]
    positivity
  rw [Scalar.ofNat_real, Nat.cast_zero]
  exact beq_eq_false_iff_ne.2 hpos.ne'

end Cosine

/-! ### Predictions -/

namespace Ratings

variable {r : Ratings ℝ} {metric : Metric ℝ} {user : UserId} {item : ProductId}

/-- Whoever has a part in a prediction adds to the sum of the similarities. -/
theorem total_pos (some_vote : r.votes metric user item ≠ []) :
    0 < Scalar.sum ((r.votes metric user item).map (·.1)) := by
  rw [Scalar.sum_real]
  refine List.sum_pos _ (fun weight hweight => ?_) (mt List.map_eq_nil_iff.1 some_vote)
  rw [votes_eq, List.map_map, List.mem_map] at hweight
  obtain ⟨v, hv, rfl⟩ := hweight
  obtain ⟨-, -, hpos⟩ := mem_qualified.1 hv
  rwa [Scalar.ofNat_real, Nat.cast_zero] at hpos

theorem Divisor.pos {d : ℝ} (divisor : Divisor r user item d) : 0 < d := by
  cases divisor with
  | similarity _ _ _ divisor => exact divisor.pos
  | total _ nonzero =>
    -- without votes the sum would be zero, and nothing would be divided by it
    refine total_pos fun hnone => ?_
    rw [hnone] at nonzero
    simp [Scalar.sum] at nonzero

end Ratings

/-- **Nothing is divided by zero.** In exact arithmetic, and with usable weights, no divisor on the
way to a score is zero; the age of a product on its scale, plus one, is at least one, also if the
product is created later than now. The divisors of cosines and predictions are above zero, and so is
the sum of the similarities as soon as anyone has a part in a prediction. On scalars that notice a
division by zero the scores, answers, similarities and predictions are the same, so none of them is
undefined. -/
theorem never_divides_by_zero {σ : Type} [IndexSource σ] (w : Weights ℚ)
    (usable : w.defect? = none) :
    (∀ s : Snapshot ℚ,
      (∀ d, Taste.Divisor s w d → d ≠ 0) ∧
      (∀ p : Product ℚ, 1 ≤ 1 + p.ageInDays s.now / w.recencyScaleDays) ∧
      Taste.candidates (s.map number) (w.map number) =
        (Taste.candidates s w).map (Prod.map (Product.map number) number) ∧
      (∀ limit, Taste.shortlist (s.map number) (w.map number) limit =
        (Taste.shortlist s w limit).map number) ∧
      ∀ (requested : Int64) (source : σ),
        (recommend (s.map number) (w.map number) requested source).1 =
          (recommend s w requested source).1.map (Recommendation.map number)) ∧
    (∀ a b : List ℝ,
      (∀ d, Cosine.Divisor a b d → 0 < d) ∧
      cosine (a.map number) (b.map number) = number (cosine a b)) ∧
    ∀ (r : Ratings ℝ) (user : UserId),
      (∀ v, (r.map number).similarity cosine user v = number (r.similarity cosine user v)) ∧
      ∀ item,
        (∀ d, Ratings.Divisor r user item d → 0 < d) ∧
        (r.votes cosine user item ≠ [] →
          0 < Scalar.sum ((r.votes cosine user item).map (·.1))) ∧
        (r.map number).predict cosine user item = number (r.predict cosine user item) := by
  refine ⟨fun s => ⟨?_, ?_, ?_, ?_, ?_⟩, fun a b => ⟨?_, ?_⟩, fun r user => ⟨?_, fun item => ?_⟩⟩
  · exact fun d divisor => divisor.ne_zero usable
  · exact fun p => Taste.one_le_aging usable p s.now
  · exact Taste.candidates_number (Taste.defined_of_usable usable)
  · exact Taste.shortlist_number (Taste.defined_of_usable usable)
  · intro requested source
    rw [recommend_number (Taste.defined_of_usable usable)]
  · exact fun d divisor => divisor.pos
  · exact Cosine.cosine_number a b
  · exact Ratings.similarity_number Cosine.cosine_number r user
  · refine ⟨fun d divisor => divisor.pos, Ratings.total_pos, ?_⟩
    exact Ratings.predict_number Cosine.cosine_number r user item

/-- A voucher is scored by an average price of a hundred, and the second customer has a part in what
the first is predicted to give to product 4, for what both gave to two products. -/
theorem never_divides_by_zero_shop :
    Weights.exact.defect? = none ∧
    Taste.Divisor (Shop.vouchers 100) .exact 100 ∧ (100 : ℚ) ≠ 0 ∧
    Taste.candidates ((Shop.vouchers 100).map number) (Weights.exact.map number) =
      [((Shop.voucher 2 100).map number, number (3 / 2)),
        ((Shop.voucher 3 300).map number, number (6 / 5))] ∧
    Cosine.Divisor [(5 : ℝ), 2] [4, 5] (Cosine.magnitudes [5, 2] [4, 5]) ∧
    0 < Cosine.magnitudes [(5 : ℝ), 2] [4, 5] ∧
    (Shop.ratings ℝ).votes cosine 1 4 ≠ [] ∧
    0 < Scalar.sum (((Shop.ratings ℝ).votes cosine 1 4).map (·.1)) := by
  have husable : Weights.exact.defect? = none := by decide +kernel
  obtain ⟨hscores, hcosines, hpredictions⟩ :=
    never_divides_by_zero (σ := Generator) Weights.exact husable
  obtain ⟨hdivisors, -, hcandidates, -, -⟩ := hscores (Shop.vouchers 100)
  obtain ⟨hpos, -⟩ := hcosines [5, 2] [4, 5]
  obtain ⟨-, hcustomer⟩ := hpredictions (Shop.ratings ℝ) 1
  obtain ⟨-, htotal, -⟩ := hcustomer 4
  have haverage : Taste.Divisor (Shop.vouchers 100) .exact 100 :=
    .average (by decide +kernel) (by decide)
  have hvouchers : Taste.candidates (Shop.vouchers 100) .exact =
      [(Shop.voucher 2 100, 3 / 2), (Shop.voucher 3 300, 6 / 5)] := by decide +kernel
  rw [hvouchers] at hcandidates
  have hangle : Cosine.Divisor [(5 : ℝ), 2] [4, 5] (Cosine.magnitudes [5, 2] [4, 5]) := by
    refine .product rfl (List.cons_ne_nil _ _) (Cosine.beq_zero_of_pos ?_ ?_)
    · norm_num [dot, Scalar.sum_real]
    · norm_num [dot, Scalar.sum_real]
  have hshared : Ratings.common ((Shop.ratings ℝ).row 1) ((Shop.ratings ℝ).row 2) =
      [(5, 4), (2, 5)] := rfl
  have hqualifies : Ratings.Qualifies cosine (Shop.ratings ℝ) 1 4 2 := by
    refine ⟨by decide, rfl, ?_⟩
    have hcosine : cosine [(5 : ℝ), 2] [4, 5] = 30 / Cosine.magnitudes [5, 2] [4, 5] := by
      rw [hangle.cosine_eq_div]
      norm_num [dot, Scalar.sum_real]
    rw [Ratings.similarity_eq, hshared, if_neg (List.cons_ne_nil _ _), Scalar.ofNat_real,
      Nat.cast_zero]
    exact (div_pos (by norm_num) (hpos _ hangle)).trans_eq hcosine.symm
  have hvotes : (Shop.ratings ℝ).votes cosine 1 4 ≠ [] := by
    rw [Ratings.votes_eq]
    exact mt List.map_eq_nil_iff.1 (List.ne_nil_of_mem (Ratings.mem_qualified.2 hqualifies))
  exact ⟨husable, haverage, hdivisors 100 haverage, hcandidates, hangle, hpos _ hangle, hvotes,
    htotal hvotes⟩

end Recommender
