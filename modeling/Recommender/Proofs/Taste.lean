import Recommender.Proofs.Candidates

/-!
# Tastes, declaratively

What a user prefers, said by counting what was liked and bought.

* `Taste.Recorded` : an entry of the catalog that stands for a known product has the category.
* `Taste.inclination` : the weights of a category's likes and then those of its purchases, added up
  from zero.
* `Taste.preference_history` : this is the preference that the strategy computes.
* `Taste.products_candidates_eq` : its candidates are the unseen products of preferred categories.
-/

namespace Recommender

namespace Taste

variable {α : Type}

section

variable (s : Snapshot α)

/-- An entry of the catalog that stands for a known product has the category. -/
def Recorded (category : String) : Prop :=
  ∃ p ∈ s.catalog, s.Knows p.id ∧ ∃ q ∈ s.product? p.id, q.category = category

instance : DecidablePred (Recorded s) := fun _ => inferInstanceAs (Decidable (∃ p ∈ s.catalog, _))

/-- How many liked products have the category. -/
def likedIn (category : String) : Nat :=
  (s.liked.filterMap s.product?).countP fun q => q.category = category

/-- How many lines of orders are of the category. -/
def boughtIn (category : String) : Nat :=
  (s.purchased.filterMap s.product?).countP fun q => q.category = category

end

section

variable [Scalar α] (s : Snapshot α) (w : Weights α)

/-- The weights of a category's likes and then those of its purchases, added up from zero. -/
def inclination (category : String) : α :=
  Scalar.sum (List.replicate (likedIn s category) w.likeCategory ++
    List.replicate (boughtIn s category) w.purchaseCategory)

/-- The category is recorded and the inclination to it is not at most zero. -/
def Preferred (category : String) : Prop :=
  Recorded s category ∧ ¬ inclination s w category ≤ Scalar.ofNat 0

instance : DecidablePred (Preferred s w) := fun _ => inferInstanceAs (Decidable (_ ∧ _))

end

variable {s : Snapshot α} {w : Weights α} {category : String}

theorem history_eq :
    history s w = (s.liked.filterMap s.product?).map (·, w.likeCategory) ++
      (s.purchased.filterMap s.product?).map (·, w.purchaseCategory) := by
  simp [history, List.filterMap_append, List.filterMap_map, List.map_filterMap]

theorem recorded_iff : Recorded s category ↔ ∃ e ∈ history s w, e.1.category = category := by
  have hmem (q : Product α) : q ∈ (history s w).map (·.1) ↔
      ∃ id, s.Knows id ∧ s.product? id = some q := by
    simp only [history_eq, List.map_append, List.map_map, Function.comp_def, List.map_id',
      ← List.filterMap_append, List.mem_filterMap, ← Snapshot.mem_interacted, Snapshot.interacted,
      mem_ascendingIds]
  have hcategory : (∃ e ∈ history s w, e.1.category = category) ↔
      ∃ q ∈ (history s w).map (·.1), q.category = category := by
    simp
  rw [hcategory]
  constructor
  · rintro ⟨p, -, hknown, q, hq, hc⟩
    exact ⟨q, (hmem q).2 ⟨p.id, hknown, hq⟩, hc⟩
  · rintro ⟨q, hq, hc⟩
    obtain ⟨id, hknown, hentry⟩ := (hmem q).1 hq
    obtain ⟨hcat, rfl⟩ := Snapshot.product?_eq_some hentry
    exact ⟨q, hcat, hknown, q, hentry, hc⟩

variable [Scalar α]

theorem preference_history : preference (history s w) category = inclination s w category := by
  rw [preference, Tally.total, history_eq, inclination, List.map_append, List.filter_append,
    List.map_append, List.map_map, List.map_map]
  congr 2
  · exact Tally.amounts_const _ Product.category ..
  · exact Tally.amounts_const _ Product.category ..

/-- There is no inclination to what was never recorded. -/
theorem inclination_of_not_recorded (h : ¬ Recorded s category) :
    inclination s w category = Scalar.ofNat 0 := by
  have hnone : (history s w).filter (fun e => e.1.category = category) = [] := by
    refine List.filter_eq_nil_iff.2 fun e he hc => h (recorded_iff.2 ⟨e, he, by simpa using hc⟩)
  rw [← preference_history, preference, Tally.total, List.filter_map]
  simp only [Function.comp_def, hnone]
  rfl

/-- There are candidates only if there is a history, and each has the score of its entry. -/
theorem score_of_mem_candidates {e : Product α × α}
    (he : e ∈ Strategy.contentBased.candidates s w) :
    (history s w).isEmpty = false ∧
      e.2 = score s w (averagePrice (history s w)) (preference (history s w) e.1.category) e.1 := by
  simp only [Strategy.candidates] at he
  split_ifs at he with hempty
  · simp at he
  · obtain ⟨p, -, hp⟩ := List.mem_filterMap.1 he
    simp only [Option.ite_none_left_eq_some, Option.some.injEq] at hp
    obtain ⟨-, rfl⟩ := hp
    exact ⟨eq_false_of_ne_true hempty, rfl⟩

/-- The candidates are the unseen products of preferred categories. -/
theorem products_candidates_eq [LawfulScalar α] :
    (Strategy.contentBased.candidates s w).map (·.1) =
      s.unseen.filter fun p => Preferred s w p.category := by
  have hpreferred (c : String) :
      Preferred s w c ↔ ¬ preference (history s w) c ≤ Scalar.ofNat 0 := by
    rw [preference_history]
    refine ⟨And.right, fun h => ⟨?_, h⟩⟩
    -- zero is at most zero, so an inclination that is not has a record behind it
    by_contra hrec
    rw [inclination_of_not_recorded hrec] at h
    exact h LawfulScalar.zero_le_zero
  simp only [Strategy.candidates]
  split_ifs with hempty
  · -- without a history nothing is recorded
    symm
    rw [List.map_nil, List.filter_eq_nil_iff]
    intro p _ hp
    obtain ⟨e, he, -⟩ := (recorded_iff (w := w)).1 (of_decide_eq_true hp).1
    simp [List.isEmpty_iff.1 hempty] at he
  · rw [products_candidates]
    apply List.filter_congr
    intro p _
    rw [decide_eq_decide, hpreferred]

end Taste

end Recommender
