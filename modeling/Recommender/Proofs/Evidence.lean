import Recommender.Ratings
import Recommender.Binary64
import Recommender.Proofs.Table

/-!
# What a prediction depends on

A missing rating is predicted from the other users who rated the same item, as far as they are
alike. Of their rows only the rating of that item counts, and those of products that both rated.

* `Ratings.rating?` : what a user gave to a product. A missing row is an empty one.
* `Ratings.Qualifies` : another user who rated the item and is alike.
* `Ratings.votes_eq` : a prediction is made from these users, in ascending order.
* `Ratings.predict_filter` : the rows of others can be removed.
* `Ratings.Agree` : two collections of ratings agree on all that may have a part in it; this is
  symmetric and transitive.
* `Ratings.predict_sees_evidence` : such ratings lead to one prediction, bit for bit.
-/

namespace Recommender

namespace Ratings

variable {α : Type}

/-- The ratings that a user gave. -/
def row (r : Ratings α) (user : UserId) : Table α :=
  (r.get? user).getD .empty

/-- The rating that a user gave to a product. -/
def rating? (r : Ratings α) (user : UserId) (product : ProductId) : Option α :=
  (r.row user).get? product

variable {r r' : Ratings α} {user v : UserId} {item product : ProductId}

theorem row_of_mem_entries {e : UserId × Table α} (he : e ∈ r.entries) : r.row e.1 = e.2 := by
  rw [row, Table.mem_entries_iff.1 he, Option.getD_some]

theorem row_congr (h : r.get? user = r'.get? user) : r.row user = r'.row user := by
  rw [row, row, h]

theorem row_filter (keep : UserId → Bool) :
    row (r.filter keep) v = if keep v then r.row v else .empty := by
  rw [row, Table.get?_filter]
  split_ifs <;> rfl

theorem rating?_eq_bind : r.rating? user item = (r.get? user).bind (·.get? item) := by
  rw [rating?, row]
  cases r.get? user <;> rfl

/-- Who rated something has a row. -/
theorem mem_keys_of_isSome (h : (r.rating? user item).isSome) : user ∈ r.keys := by
  rw [Table.mem_keys_iff]
  rw [rating?_eq_bind] at h
  exact Option.isSome_of_isSome_bind h

/-! ### Agreeing ratings -/

/-- Two collections of ratings agree on all that may have a part in predicting what a user gives to
an item. -/
structure Agree (r r' : Ratings α) (user : UserId) (item : ProductId) : Prop where
  /-- The user gave the same ratings. -/
  own : ∀ product, r.rating? user product = r'.rating? user product
  /-- Each other user gave the same rating to the item, or none. -/
  others : ∀ v ≠ user, r.rating? v item = r'.rating? v item
  /-- Those who rated it gave the same ratings, or none, to the products that the user rated. -/
  shared : ∀ v ≠ user, (r.rating? v item).isSome →
    ∀ product, (r.rating? user product).isSome → r.rating? v product = r'.rating? v product

namespace Agree

variable {r'' : Ratings α}

theorem symm (agree : Agree r r' user item) : Agree r' r user item := by
  refine ⟨fun product => (agree.own product).symm, fun v hne => (agree.others v hne).symm,
    fun v hne hrated product hown => (agree.shared v hne ?_ product ?_).symm⟩
  · rwa [agree.others v hne]
  · rwa [agree.own product]

theorem trans (agree : Agree r r' user item) (agree' : Agree r' r'' user item) :
    Agree r r'' user item := by
  refine ⟨fun product => (agree.own product).trans (agree'.own product),
    fun v hne => (agree.others v hne).trans (agree'.others v hne),
    fun v hne hrated product hown => ?_⟩
  rw [agree.shared v hne hrated product hown]
  refine agree'.shared v hne ?_ product ?_
  · rwa [← agree.others v hne]
  · rwa [← agree.own product]

end Agree

/-- Rows without a rating of the item have no part in its prediction. -/
theorem agree_of_rows (h : ∀ v, r.get? v = r'.get? v ∨
    v ≠ user ∧ r.rating? v item = none ∧ r'.rating? v item = none) :
    Agree r r' user item := by
  have hrow : ∀ v, (v = user ∨ (r.rating? v item).isSome) → r.row v = r'.row v := by
    intro v hv
    rcases h v with hsame | ⟨hne, hnone, -⟩
    · exact row_congr hsame
    · exact absurd hv (by simp [hne, hnone])
  refine ⟨fun product => ?_, fun v hne => ?_, fun v hne hrated product _ => ?_⟩
  · rw [rating?, rating?, hrow user (.inl rfl)]
  · rcases h v with hsame | ⟨-, hnone, hnone'⟩
    · rw [rating?, rating?, row_congr hsame]
    · rw [hnone, hnone']
  · rw [rating?, rating?, hrow v (.inr hrated)]

/-- What others gave to products that the user did not rate has no part in predicting another. -/
theorem agree_of_ratings (h : ∀ v product, r.rating? v product = r'.rating? v product ∨
    v ≠ user ∧ product ≠ item ∧ r.rating? user product = none) :
    Agree r r' user item := by
  refine ⟨fun product => ?_, fun v _ => ?_, fun v _ _ product hown => ?_⟩
  · exact (h user product).resolve_right fun hother => hother.1 rfl
  · exact (h v item).resolve_right fun hother => hother.2.1 rfl
  · refine (h v product).resolve_right fun hother => ?_
    simp [hother.2.2] at hown

/-! ### Ratings of common products -/

@[simp]
theorem common_empty_left (b : Table α) : common .empty b = [] := rfl

@[simp]
theorem common_empty_right (a : Table α) : common a .empty = [] := by
  simp [common]

/-- Of the second row only the products of the first matter. -/
theorem common_congr_right {a b b' : Table α}
    (h : ∀ product, (a.get? product).isSome → b.get? product = b'.get? product) :
    common a b = common a b' := by
  refine List.filterMap_congr fun e he => ?_
  rw [h e.1 (by rw [Table.mem_entries_iff.1 he, Option.isSome_some])]

variable [Scalar α] {metric : Metric α}

theorem similarity_eq :
    r.similarity metric user v =
      if common (r.row user) (r.row v) = [] then Scalar.ofNat 0
      else metric ((common (r.row user) (r.row v)).map (·.1))
        ((common (r.row user) (r.row v)).map (·.2)) := by
  unfold similarity row
  cases r.get? user with
  | none => simp
  | some a =>
    cases r.get? v with
    | none => simp
    | some b =>
      simp only [Option.getD_some]
      cases common a b with
      | nil => rfl
      | cons pair pairs => rfl

/-! ### Who has a part in a prediction -/

section

variable (metric : Metric α) (r : Ratings α) (user : UserId) (item : ProductId) (v : UserId)

/-- Another user who rated the item and whose similarity is above zero. -/
def Qualifies : Prop :=
  v ≠ user ∧ (r.rating? v item).isSome ∧ Scalar.ofNat 0 < r.similarity metric user v

instance : Decidable (Qualifies metric r user item v) :=
  inferInstanceAs (Decidable (_ ∧ _ ∧ _))

/-- The users from whom a prediction is made, in ascending order. -/
def qualified : List UserId :=
  r.keys.filter (Qualifies metric r user item ·)

/-- The rating that a user gave to an item, zero if there is none. -/
def given : α :=
  (r.rating? v item).getD (Scalar.ofNat 0)

end

theorem mem_qualified :
    v ∈ qualified metric r user item ↔ Qualifies metric r user item v := by
  rw [qualified, List.mem_filter, decide_eq_true_eq]
  exact and_iff_right_of_imp fun h => mem_keys_of_isSome h.2.1

/-- The ratings that a prediction is made from are those of the qualified users. -/
theorem votes_eq : r.votes metric user item =
    (qualified metric r user item).map fun v => (r.similarity metric user v, given r item v) := by
  rw [qualified, Table.keys, ← List.filterMap_eq_filter, List.map_filterMap, List.filterMap_map]
  refine List.filterMap_congr fun e he => ?_
  have hrating : r.rating? e.1 item = e.2.get? item := by
    rw [rating?, row_of_mem_entries he]
  by_cases huser : e.1 = user
  · have hnot : ¬ Qualifies metric r user item e.1 := fun h => h.1 huser
    simp [huser, Option.guard, huser ▸ hnot]
  cases hrow : e.2.get? item with
  | none =>
    have hnot : ¬ Qualifies metric r user item e.1 := fun h => by
      simpa [hrating, hrow] using h.2.1
    simp [huser, Option.guard, hnot]
  | some rating =>
    have hiff : Qualifies metric r user item e.1 ↔
        Scalar.ofNat 0 < r.similarity metric user e.1 := by
      simp [Qualifies, huser, hrating, hrow]
    have hgiven : given r item e.1 = rating := by
      rw [given, hrating, hrow, Option.getD_some]
    by_cases hpos : Scalar.ofNat 0 < r.similarity metric user e.1
    · simp [huser, Option.guard, hiff, hpos, hgiven]
    · simp [huser, Option.guard, hiff, hpos]

/-- Predictions are equal when the same users qualify, with the same ratings and similarities. -/
theorem predict_congr {metric' : Metric α} (hown : r.rating? user item = r'.rating? user item)
    (hqualifies : ∀ v, Qualifies metric r user item v ↔ Qualifies metric' r' user item v)
    (hvote : ∀ v, Qualifies metric r user item v →
      r.similarity metric user v = r'.similarity metric' user v ∧
        given r item v = given r' item v) :
    r.predict metric user item = r'.predict metric' user item := by
  have hqualified : qualified metric r user item = qualified metric' r' user item := by
    refine Table.filter_keys_congr fun v => ?_
    exact mem_qualified.trans ((hqualifies v).trans mem_qualified.symm)
  have hvotes : r.votes metric user item = r'.votes metric' user item := by
    rw [votes_eq, votes_eq, ← hqualified]
    refine List.map_congr_left fun v hv => ?_
    obtain ⟨hsimilarity, hgiven⟩ := hvote v (mem_qualified.1 hv)
    rw [hsimilarity, hgiven]
  rw [predict, predict, ← rating?_eq_bind, ← rating?_eq_bind, hown, hvotes]

/-- Without the rows of users who do not qualify the prediction is the same. -/
theorem predict_filter {keep : UserId → Bool} (huser : keep user)
    (hkeep : ∀ v, Qualifies metric r user item v → keep v) :
    predict metric (r.filter keep) user item = r.predict metric user item := by
  have hrow : ∀ v, keep v → row (r.filter keep) v = r.row v := fun v hv => by
    rw [row_filter, if_pos hv]
  have hsame : ∀ v, keep v →
      similarity metric (r.filter keep) user v = r.similarity metric user v ∧
        rating? (r.filter keep) v item = r.rating? v item := fun v hv => by
    rw [similarity_eq, similarity_eq, rating?, rating?, hrow user huser, hrow v hv]
    exact ⟨rfl, rfl⟩
  have hkept : ∀ v, Qualifies metric (r.filter keep) user item v → keep v := by
    rintro v ⟨-, hrated, -⟩
    by_contra hv
    rw [rating?, row_filter, if_neg hv] at hrated
    exact absurd hrated Bool.false_ne_true
  have hiff : ∀ v, keep v →
      (Qualifies metric (r.filter keep) user item v ↔ Qualifies metric r user item v) :=
    fun v hv => by rw [Qualifies, Qualifies, (hsame v hv).1, (hsame v hv).2]
  refine predict_congr (hsame user huser).2 (fun v => ?_) fun v hv => ?_
  · exact ⟨fun hv => (hiff v (hkept v hv)).1 hv, fun hv => (hiff v (hkeep v hv)).2 hv⟩
  · obtain ⟨hsimilarity, hrating⟩ := hsame v (hkept v hv)
    exact ⟨hsimilarity, by rw [given, given, hrating]⟩

/-! ### Predictions from agreeing ratings -/

namespace Agree

variable (agree : Agree r r' user item)

include agree

theorem similarity_eq (hne : v ≠ user) (hrated : (r.rating? v item).isSome) :
    r.similarity metric user v = r'.similarity metric user v := by
  have hrow : r.row user = r'.row user := Table.eq_of_get?_eq agree.own
  have hcommon : common (r.row user) (r.row v) = common (r.row user) (r'.row v) :=
    common_congr_right (agree.shared v hne hrated)
  rw [Ratings.similarity_eq, Ratings.similarity_eq, hcommon, hrow]

theorem qualifies_iff : Qualifies metric r user item v ↔ Qualifies metric r' user item v := by
  refine and_congr_right fun hne => ?_
  rw [← agree.others v hne]
  refine and_congr_right fun hrated => ?_
  rw [agree.similarity_eq hne hrated]

theorem predict_eq : r.predict metric user item = r'.predict metric user item := by
  refine predict_congr (agree.own item) (fun v => agree.qualifies_iff) fun v hv => ?_
  obtain ⟨hne, hrated, -⟩ := hv
  exact ⟨agree.similarity_eq hne hrated, by rw [given, given, agree.others v hne]⟩

end Agree

/-- **A prediction sees the relevant ratings only.** Agreeing ratings lead to the same prediction,
bit for bit, by whatever metric. So it does not change when users who did not rate the item come or
go, or the others' ratings of further products that the user did not rate. What the user gave to the
item is what is predicted, whatever else was rated. -/
theorem predict_sees_evidence (metric : Metric α) (user : UserId) (item : ProductId) :
    (∀ r r' : Ratings α, Agree r r' user item →
      r.predict metric user item = r'.predict metric user item) ∧
    (∀ r r' : Ratings α,
      (∀ v, r.get? v = r'.get? v ∨
        v ≠ user ∧ r.rating? v item = none ∧ r'.rating? v item = none) →
      r.predict metric user item = r'.predict metric user item) ∧
    (∀ r r' : Ratings α,
      (∀ v product, r.rating? v product = r'.rating? v product ∨
        v ≠ user ∧ product ≠ item ∧ r.rating? user product = none) →
      r.predict metric user item = r'.predict metric user item) ∧
    ∀ (r : Ratings α) (rating : α), r.rating? user item = some rating →
      r.predict metric user item = rating := by
  refine ⟨fun r r' agree => agree.predict_eq, fun r r' h => (agree_of_rows h).predict_eq,
    fun r r' h => (agree_of_ratings h).predict_eq, fun r rating h => ?_⟩
  rw [predict, ← rating?_eq_bind, h]

end Ratings

/-- What customers of the shop think of its products. The first of them does not know product 4. -/
def Shop.ratings (α : Type) [Scalar α] : Ratings α :=
  .ofList
    [(1, .ofList [(1, Scalar.ofNat 5), (2, Scalar.ofNat 3), (3, Scalar.ofNat 2)]),
      (2, .ofList [(1, Scalar.ofNat 4), (3, Scalar.ofNat 5), (4, Scalar.ofNat 3)]),
      (3, .ofList [(2, Scalar.ofNat 5), (4, Scalar.ofNat 4), (5, Scalar.ofNat 3)])]

/-- The same with a newcomer, who does not know product 4 either. -/
def Shop.newcomer : Ratings Binary64 :=
  (Shop.ratings Binary64).insert 4 (.ofList [(1, Scalar.ofNat 1), (5, Scalar.ofNat 2)])

/-- The same with an afterthought: the second customer also comes to rate product 5. -/
def Shop.afterthought : Ratings Binary64 :=
  (Shop.ratings Binary64).insert 2
    (((Shop.ratings Binary64).row 2).insert 5 (Scalar.ofNat 1))

namespace Ratings

open Shop

/-- Neither the newcomer nor the afterthought changes what the first customer is predicted to
give to product 4, and product 1 keeps the rating that it was given. -/
theorem predict_sees_evidence_shop :
    newcomer.Agree afterthought 1 4 ∧
    newcomer.predict cosine 1 4 = (ratings Binary64).predict cosine 1 4 ∧
    afterthought.predict cosine 1 4 = (ratings Binary64).predict cosine 1 4 ∧
    newcomer.predict cosine 1 4 = afterthought.predict cosine 1 4 ∧
    (ratings Binary64).predict cosine 1 1 = Scalar.ofNat 5 := by
  obtain ⟨hagree, hrows, hratings, -⟩ := predict_sees_evidence (cosine (α := Binary64)) 1 4
  obtain ⟨-, -, -, hown⟩ := predict_sees_evidence (cosine (α := Binary64)) 1 1
  have hnewcomer : ∀ v, newcomer.get? v = (ratings Binary64).get? v ∨
      v ≠ 1 ∧ newcomer.rating? v 4 = none ∧ (ratings Binary64).rating? v 4 = none := by
    intro v
    by_cases hv : v = 4
    · subst hv
      exact .inr ⟨by decide, rfl, rfl⟩
    · exact .inl (by rw [newcomer, Table.get?_insert, if_neg hv])
  have hafterthought : ∀ v product,
      afterthought.rating? v product = (ratings Binary64).rating? v product ∨
        v ≠ 1 ∧ product ≠ 4 ∧ afterthought.rating? 1 product = none := by
    intro v product
    by_cases hv : v = 2
    · subst hv
      by_cases hproduct : product = 5
      · subst hproduct
        exact .inr ⟨by decide, by decide, rfl⟩
      · refine .inl ?_
        show (afterthought.row 2).get? product = _
        rw [rating?, row, afterthought, Table.get?_insert, if_pos rfl, Option.getD_some,
          Table.get?_insert, if_neg hproduct]
    · refine .inl ?_
      rw [rating?, rating?, row, afterthought, Table.get?_insert, if_neg hv, row]
  have hagreeing : newcomer.Agree afterthought 1 4 :=
    (agree_of_rows hnewcomer).trans (agree_of_ratings hafterthought).symm
  exact ⟨hagreeing, hrows _ _ hnewcomer, hratings _ _ hafterthought, hagree _ _ hagreeing,
    hown _ _ rfl⟩

end Ratings

end Recommender
