import Recommender.Proofs.Evidence
import Recommender.Proofs.Exact
import Mathlib.Analysis.Convex.Combination

/-!
# Predictions as weighted means

With exact numbers, a missing rating is predicted as the mean of what other users gave to the item,
weighted by the metric of the ratings that they share with the user.

* `Ratings.peers` : the users who count: they rated the item, share a product with the user, and the
  metric is above zero.
* `Ratings.predict_eq_centerMass` : a prediction is the mean of their ratings.
* `Ratings.predict_weightedMean` : it lies between their ratings, only the proportions of the metric
  matter, and no one else does.
-/

namespace Recommender

namespace Ratings

/-! ### Peers -/

section

variable {α : Type}

/-- Two users rated some product both. -/
def Shares (r : Ratings α) (u v : UserId) : Prop :=
  ∃ product ∈ (r.row u).keys, product ∈ (r.row v).keys

instance (r : Ratings α) (u v : UserId) : Decidable (r.Shares u v) :=
  inferInstanceAs (Decidable (∃ product ∈ (r.row u).keys, product ∈ (r.row v).keys))

/-- The metric of what two users gave to the products that both rated. -/
def affinity (metric : Metric α) (r : Ratings α) (u v : UserId) : α :=
  metric ((common (r.row u) (r.row v)).map (·.1)) ((common (r.row u) (r.row v)).map (·.2))

theorem common_eq_nil_iff {r : Ratings α} {u v : UserId} :
    common (r.row u) (r.row v) = [] ↔ ¬ r.Shares u v := by
  rw [common, List.filterMap_eq_nil_iff, Shares, Table.keys]
  simp only [Option.map_eq_none_iff, List.mem_map, exists_exists_and_eq_and, not_exists, not_and,
    Table.mem_keys_iff, Option.not_isSome_iff_eq_none]

theorem similarity_eq_affinity [Scalar α] {metric : Metric α} {r : Ratings α} {u v : UserId} :
    r.similarity metric u v = if r.Shares u v then affinity metric r u v else Scalar.ofNat 0 := by
  by_cases h : r.Shares u v
  · rw [similarity_eq, if_pos h, if_neg fun hnil => common_eq_nil_iff.1 hnil h, affinity]
  · rw [similarity_eq, if_neg h, if_pos (common_eq_nil_iff.2 h)]

end

/-- The other users who rated the item, share a product with the user and are close to the user by
the metric. -/
def peers (metric : Metric ℚ) (r : Ratings ℚ) (user : UserId) (item : ProductId) :
    Finset UserId :=
  {v ∈ r.keys.toFinset | v ≠ user ∧ (r.rating? v item).isSome ∧ r.Shares user v ∧
    0 < affinity metric r user v}

variable {metric : Metric ℚ} {r : Ratings ℚ} {user v : UserId} {item : ProductId}

theorem similarity_pos_iff :
    0 < r.similarity metric user v ↔ r.Shares user v ∧ 0 < affinity metric r user v := by
  rw [similarity_eq_affinity]
  by_cases h : r.Shares user v
  · simp [h]
  · simp [h, Scalar.ofNat_eq_cast]

theorem mem_peers : v ∈ peers metric r user item ↔ Qualifies metric r user item v := by
  rw [peers, Finset.mem_filter, List.mem_toFinset, Qualifies, ← similarity_pos_iff]
  exact and_iff_right_of_imp fun h => mem_keys_of_isSome h.2.1

theorem affinity_pos (hv : v ∈ peers metric r user item) : 0 < affinity metric r user v :=
  (similarity_pos_iff.1 (mem_peers.1 hv).2.2).2

theorem similarity_of_mem_peers (hv : v ∈ peers metric r user item) :
    r.similarity metric user v = affinity metric r user v := by
  have hshares := (similarity_pos_iff.1 (mem_peers.1 hv).2.2).1
  rw [similarity_eq_affinity, if_pos hshares]

theorem toFinset_qualified :
    (qualified metric r user item).toFinset = peers metric r user item := by
  ext v
  rw [List.mem_toFinset, mem_qualified, mem_peers]

/-! ### The mean -/

/-- Sums over what a prediction is made from are sums over the peers. -/
theorem sum_qualified (f : UserId → ℚ) :
    ((qualified metric r user item).map f).sum = ∑ v ∈ peers metric r user item, f v := by
  have hnodup : (qualified metric r user item).Nodup := r.nodup_keys.filter _
  rw [← toFinset_qualified, List.sum_toFinset f hnodup]

/-- A prediction is the mean of the peers' ratings. If there are no peers, it is zero. -/
theorem predict_eq_div (h : r.rating? user item = none) :
    r.predict metric user item =
      (∑ v ∈ peers metric r user item, affinity metric r user v * given r item v) /
        ∑ v ∈ peers metric r user item, affinity metric r user v := by
  have htotal : ∑ v ∈ peers metric r user item, r.similarity metric user v =
      ∑ v ∈ peers metric r user item, affinity metric r user v :=
    Finset.sum_congr rfl fun _ hv => similarity_of_mem_peers hv
  have hsum : ∑ v ∈ peers metric r user item, r.similarity metric user v * given r item v =
      ∑ v ∈ peers metric r user item, affinity metric r user v * given r item v :=
    Finset.sum_congr rfl fun v hv => by rw [similarity_of_mem_peers hv]
  rw [predict, ← rating?_eq_bind, h]
  show weightedMean (r.votes metric user item) = _
  rw [weightedMean, votes_eq, List.map_map, List.map_map, Scalar.sum_eq_sum, Scalar.sum_eq_sum]
  simp only [Function.comp_def, sum_qualified, htotal, hsum, Scalar.ofNat_eq_cast, Nat.cast_zero]
  split_ifs with hzero
  · rw [eq_of_beq hzero, div_zero]
  · rfl

theorem sum_affinity_pos (hne : (peers metric r user item).Nonempty) :
    0 < ∑ v ∈ peers metric r user item, affinity metric r user v :=
  Finset.sum_pos (fun _ hv => affinity_pos hv) hne

theorem predict_eq_centerMass (h : r.rating? user item = none) :
    r.predict metric user item =
      (peers metric r user item).centerMass (affinity metric r user) (given r item) := by
  rw [predict_eq_div h, Finset.centerMass, div_eq_inv_mul]
  simp only [smul_eq_mul]

theorem peers_scaled {c : ℚ} (hc : 0 < c) :
    peers (fun a b => c * metric a b) r user item = peers metric r user item := by
  refine Finset.filter_congr fun v _ => ?_
  rw [affinity, mul_pos_iff_of_pos_left hc, affinity]

/-- Only the proportions of the metric matter. -/
theorem predict_scaled {c : ℚ} (hc : 0 < c) :
    r.predict (fun a b => c * metric a b) user item = r.predict metric user item := by
  cases h : r.rating? user item with
  | some rating => rw [predict, predict, ← rating?_eq_bind, h]
  | none =>
    rw [predict_eq_div h, predict_eq_div h, peers_scaled hc]
    simp only [affinity, mul_assoc, ← Finset.mul_sum]
    rw [mul_div_mul_left _ _ hc.ne']

/-- **A prediction is a weighted mean.** What a user is predicted to give to an item that the user
did not rate is, in exact arithmetic, zero if there are no peers, and else the mean of the peers'
ratings weighted by the metric, where the weights do not add up to zero. It lies between the least
and the greatest of these ratings, so it is the rating that all of them gave if they agree. It stays
the same if the metric is multiplied by a positive number, and if the rows of all but the user and
the peers are removed. -/
theorem predict_weightedMean (metric : Metric ℚ) (r : Ratings ℚ) (user : UserId)
    (item : ProductId) (h : r.rating? user item = none) :
    (peers metric r user item = ∅ → r.predict metric user item = 0) ∧
    (∀ hne : (peers metric r user item).Nonempty,
      ∑ v ∈ peers metric r user item, affinity metric r user v ≠ 0 ∧
      r.predict metric user item =
        (∑ v ∈ peers metric r user item, affinity metric r user v * given r item v) /
          ∑ v ∈ peers metric r user item, affinity metric r user v ∧
      (peers metric r user item).inf' hne (given r item) ≤ r.predict metric user item ∧
      r.predict metric user item ≤ (peers metric r user item).sup' hne (given r item)) ∧
    (∀ rating, (peers metric r user item).Nonempty →
      (∀ v ∈ peers metric r user item, r.rating? v item = some rating) →
      r.predict metric user item = rating) ∧
    (∀ c > 0, r.predict (fun a b => c * metric a b) user item = r.predict metric user item) ∧
    predict metric (r.filter fun v => v = user ∨ v ∈ peers metric r user item) user item =
      r.predict metric user item := by
  refine ⟨fun hempty => ?_, fun hne => ⟨(sum_affinity_pos hne).ne', predict_eq_div h, ?_, ?_⟩,
    fun rating hne hsame => ?_, fun c hc => predict_scaled hc, ?_⟩
  · rw [predict_eq_div h, hempty, Finset.sum_empty, zero_div]
  · rw [predict_eq_centerMass h]
    exact Finset.inf_le_centerMass (fun v hv => (affinity_pos hv).le) (sum_affinity_pos hne)
  · rw [predict_eq_centerMass h]
    exact Finset.centerMass_le_sup (fun v hv => (affinity_pos hv).le) (sum_affinity_pos hne)
  · have hgiven : ∀ v ∈ peers metric r user item, given r item v = rating := fun v hv => by
      rw [given, hsame v hv, Option.getD_some]
    rw [predict_eq_centerMass h, Finset.centerMass_congr_fun fun v hv _ => hgiven v hv]
    exact Finset.centerMass_const (sum_affinity_pos hne).ne' rating
  · refine predict_filter ?_ fun v hv => ?_
    · simp
    · simp [mem_peers, hv]

/-- The first customer of the shop is predicted to like product 4 as two others do, the first of
whom counts twice as much, product 5 as the only one who rated it, and product 9 not at all. -/
theorem predict_weightedMean_shop :
    (Shop.ratings ℚ).rating? 1 4 = none ∧
    peers dot (Shop.ratings ℚ) 1 4 = {2, 3} ∧
    (Shop.ratings ℚ).predict dot 1 4 = (30 * 3 + 15 * 4) / (30 + 15) ∧
    (Shop.ratings ℚ).predict dot 1 4 ∈ Set.Icc 3 4 ∧
    (Shop.ratings ℚ).predict (fun a b => 2 * dot a b) 1 4 = (Shop.ratings ℚ).predict dot 1 4 ∧
    (Shop.ratings ℚ).predict dot 1 5 = 3 ∧
    (Shop.ratings ℚ).predict dot 1 9 = 0 := by
  have hpeers : peers dot (Shop.ratings ℚ) 1 4 = {2, 3} := by decide +kernel
  have hnonempty : (peers dot (Shop.ratings ℚ) 1 4).Nonempty := ⟨2, by decide +kernel⟩
  have hsum : ∑ v ∈ peers dot (Shop.ratings ℚ) 1 4,
      affinity dot (Shop.ratings ℚ) 1 v * given (Shop.ratings ℚ) 4 v = 30 * 3 + 15 * 4 := by
    decide +kernel
  have htotal : ∑ v ∈ peers dot (Shop.ratings ℚ) 1 4, affinity dot (Shop.ratings ℚ) 1 v =
      30 + 15 := by decide +kernel
  have hgiven : ∀ v ∈ peers dot (Shop.ratings ℚ) 1 4,
      3 ≤ given (Shop.ratings ℚ) 4 v ∧ given (Shop.ratings ℚ) 4 v ≤ 4 := by
    intro v hv
    rw [hpeers, Finset.mem_insert, Finset.mem_singleton] at hv
    rcases hv with rfl | rfl
    · decide +kernel
    · decide +kernel
  have honly : peers dot (Shop.ratings ℚ) 1 5 = {3} := by decide +kernel
  obtain ⟨-, hmean, -, hscaled, -⟩ := predict_weightedMean dot (Shop.ratings ℚ) 1 4 rfl
  obtain ⟨-, hdiv, hleast, hgreatest⟩ := hmean hnonempty
  obtain ⟨-, -, hsame, -, -⟩ := predict_weightedMean dot (Shop.ratings ℚ) 1 5 rfl
  obtain ⟨hempty, -, -, -, -⟩ := predict_weightedMean dot (Shop.ratings ℚ) 1 9 rfl
  refine ⟨rfl, hpeers, by rw [hdiv, hsum, htotal], ⟨?_, ?_⟩, hscaled 2 two_pos, ?_, ?_⟩
  · exact (Finset.le_inf' _ _ fun v hv => (hgiven v hv).1).trans hleast
  · exact hgreatest.trans (Finset.sup'_le _ _ fun v hv => (hgiven v hv).2)
  · refine hsame 3 (honly ▸ Finset.singleton_nonempty 3) fun v hv => ?_
    obtain rfl := Finset.mem_singleton.1 (honly ▸ hv)
    rfl
  · exact hempty (by decide +kernel)

end Ratings

end Recommender
