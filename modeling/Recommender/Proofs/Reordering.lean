import Recommender.Proofs.Choice
import Recommender.Proofs.Exact

/-!
# The order of a history

A history may be listed in any order: likes and orders among themselves, and the lines within each
order. What is counted then stays the same, and so do the neighbours, the preferences and the
products that each strategy could pick. Only sums of different numbers may be rounded otherwise;
with exact arithmetic the answers are the same.

* `Snapshot.Reordered` : a snapshot with the same history in another order.
* `Snapshot.Reordered.chosen_eq`, `Snapshot.Reordered.preference_eq` : the neighbours with their
  similarities, and the preferences, are the same.
* `Snapshot.Reordered.products_perm` : each strategy could pick the same products.
* `Snapshot.Reordered.recommend_eq` : the answer is the same if addition may be reordered.
* `recommend_reordered` : all of this for floating point and for rational numbers.
-/

namespace Recommender

/-- Two orders of one user and one identifier hold the same lines, in whatever order. -/
def Order.SameLines (o o' : Order) : Prop :=
  o.id = o'.id ∧ o.user = o'.user ∧ o.items.Perm o'.items

/-- The same history, listed in another order. -/
structure Snapshot.Reordered {α : Type} (s t : Snapshot α) : Prop where
  /-- The same user is answered. -/
  user : s.user = t.user
  /-- The same products are on offer, in the same order. -/
  catalog : s.catalog = t.catalog
  /-- The answers are given at the same time. -/
  now : s.now = t.now
  /-- The likes of the user are the same. -/
  userLikes : s.userLikes.Perm t.userLikes
  /-- The likes of all users are the same. -/
  allLikes : s.allLikes.Perm t.allLikes
  /-- The orders are the same but for the order of their lines. -/
  userOrders : ∃ orders, s.userOrders.Perm orders ∧ List.Forall₂ Order.SameLines orders t.userOrders

namespace Snapshot.Reordered

variable {α : Type} {s t : Snapshot α}

/-! ### What the user knows -/

/-- The order of lines does not change what stands on a user's orders. -/
theorem products_perm_of_sameLines (user : UserId) {orders orders' : List Order}
    (h : List.Forall₂ Order.SameLines orders orders') :
    ((orders.filter (·.user = user)).flatMap Order.products).Perm
      ((orders'.filter (·.user = user)).flatMap Order.products) := by
  induction h with
  | nil => exact .refl _
  | cons hlines _ ih =>
    obtain ⟨-, huser, hitems⟩ := hlines
    rw [List.filter_cons, List.filter_cons, huser]
    split_ifs
    · rw [List.flatMap_cons, List.flatMap_cons]
      exact (hitems.map _).append ih
    · exact ih

theorem purchased_perm (h : s.Reordered t) : s.purchased.Perm t.purchased := by
  obtain ⟨orders, hperm, hlines⟩ := h.userOrders
  rw [purchased, purchased, h.user]
  exact ((hperm.filter _).flatMap_right _).trans (products_perm_of_sameLines t.user hlines)

theorem liked_perm (h : s.Reordered t) : s.liked.Perm t.liked := by
  rw [liked, liked, h.user]
  exact eraseDups_perm (((h.userLikes.append h.allLikes).filter _).map _)

theorem interacted_eq (h : s.Reordered t) : s.interacted = t.interacted :=
  ascendingIds_congr fun _ => (h.liked_perm.append h.purchased_perm).mem_iff

theorem knows_iff (h : s.Reordered t) (id : ProductId) : s.Knows id ↔ t.Knows id := by
  rw [← mem_interacted, ← mem_interacted, h.interacted_eq]

theorem product?_eq (h : s.Reordered t) : s.product? = t.product? := by
  funext id
  rw [product?, product?, h.catalog]

theorem unseen_eq (h : s.Reordered t) : s.unseen = t.unseen := by
  simp only [unseen, h.interacted_eq, h.catalog]

theorem likeCount_eq (h : s.Reordered t) (id : ProductId) : s.likeCount id = t.likeCount id :=
  h.allLikes.countP_eq _

/-! ### Neighbours -/

theorem isSimilar_iff (h : s.Reordered t) (v : UserId) :
    Neighbours.IsSimilar s v ↔ Neighbours.IsSimilar t v := by
  simp only [Neighbours.IsSimilar, h.user, h.allLikes.mem_iff, h.knows_iff]

theorem sharedLikes_eq (h : s.Reordered t) (v : UserId) :
    Neighbours.sharedLikes s v = Neighbours.sharedLikes t v := by
  simp only [Neighbours.sharedLikes, h.knows_iff]
  exact h.allLikes.countP_eq _

theorem similarUsers_perm (h : s.Reordered t) :
    (Neighbours.similarUsers s).Perm (Neighbours.similarUsers t) :=
  (List.perm_ext_iff_of_nodup Neighbours.nodup_similarUsers Neighbours.nodup_similarUsers).2
    fun v => by rw [Neighbours.mem_similarUsers, Neighbours.mem_similarUsers, h.isSimilar_iff]

variable [Scalar α] {w : Weights α}

theorem similarities_perm (h : s.Reordered t) :
    (Neighbours.similarities s w).Perm (Neighbours.similarities t w) := by
  refine Neighbours.similarities_perm.trans (.trans ?_ Neighbours.similarities_perm.symm)
  simp only [Neighbours.similarity, h.sharedLikes_eq]
  exact h.similarUsers_perm.map _

/-- The neighbours are the same, in the same order and with the same similarities. -/
theorem chosen_eq [LawfulScalar α] (h : s.Reordered t) :
    Neighbours.chosen w (Neighbours.similarities s w) =
      Neighbours.chosen w (Neighbours.similarities t w) :=
  congrArg (List.take w.maxSimilarUsers)
    (Ranking.mergeSort_eq_of_perm Neighbours.nodup_keys_similarities h.similarities_perm)

/-! ### Tastes -/

omit [Scalar α] in
theorem history_perm (h : s.Reordered t) : (Taste.history s w).Perm (Taste.history t w) := by
  rw [Taste.history, Taste.history, h.product?_eq]
  exact ((h.liked_perm.map _).append (h.purchased_perm.map _)).filterMap _

omit [Scalar α] in
theorem recorded_iff (h : s.Reordered t) (category : String) :
    Taste.Recorded s category ↔ Taste.Recorded t category := by
  simp only [Taste.Recorded, h.catalog, h.knows_iff, h.product?_eq]

/-- A preference is a sum of two numbers only, first the one and then the other as often as they are
counted. -/
theorem inclination_eq (h : s.Reordered t) (category : String) :
    Taste.inclination s w category = Taste.inclination t w category := by
  have hliked : Taste.likedIn s category = Taste.likedIn t category := by
    rw [Taste.likedIn, Taste.likedIn, h.product?_eq]
    exact (h.liked_perm.filterMap _).countP_eq _
  have hbought : Taste.boughtIn s category = Taste.boughtIn t category := by
    rw [Taste.boughtIn, Taste.boughtIn, h.product?_eq]
    exact (h.purchased_perm.filterMap _).countP_eq _
  rw [Taste.inclination, Taste.inclination, hliked, hbought]

theorem preference_eq (h : s.Reordered t) (category : String) :
    Taste.preference (Taste.history s w) category =
      Taste.preference (Taste.history t w) category := by
  rw [Taste.preference_history, Taste.preference_history, h.inclination_eq]

/-! ### Candidates -/

/-- Popularity counts likes, and chance has one score for all, so their candidates are the same. -/
theorem candidates_eq (h : s.Reordered t) {strategy : Strategy}
    (hstrategy : strategy = .popularity ∨ strategy = .random) :
    strategy.candidates s w = strategy.candidates t w := by
  rcases hstrategy with rfl | rfl
  · exact Strategy.candidates_popularity_congr h.unseen_eq fun p _ => h.likeCount_eq p.id
  · exact Strategy.candidates_random_congr h.unseen_eq

/-- The products that are voted for are the same, whatever the sums of their votes. -/
theorem keys_votes_perm (h : s.Reordered t) (neighbours : List (UserId × α)) :
    ((Neighbours.votes s neighbours).map (·.1)).Perm
      ((Neighbours.votes t neighbours).map (·.1)) := by
  have hnodup (u : Snapshot α) : ((Neighbours.votes u neighbours).map (·.1)).Nodup :=
    Tally.nodup_keys_totals
  rw [List.perm_ext_iff_of_nodup (hnodup s) (hnodup t)]
  intro id
  simp only [Neighbours.mem_keys_votes, h.knows_iff, h.allLikes.mem_iff]

/-- Each strategy could pick the same products. -/
theorem products_perm [LawfulScalar α] (h : s.Reordered t) (strategy : Strategy) :
    ((strategy.candidates s w).map (·.1)).Perm ((strategy.candidates t w).map (·.1)) := by
  cases strategy with
  | collaborative =>
    rw [Strategy.candidates, Strategy.candidates, Neighbours.products_candidates,
      Neighbours.products_candidates, h.chosen_eq, h.product?_eq]
    exact (h.keys_votes_perm _).filterMap _
  | contentBased =>
    rw [Taste.products_candidates_eq, Taste.products_candidates_eq, h.unseen_eq]
    simp only [Taste.Preferred, h.recorded_iff, h.inclination_eq]
    exact .refl _
  | popularity => rw [h.candidates_eq (.inl rfl)]
  | random => rw [h.candidates_eq (.inr rfl)]

theorem answering?_eq [LawfulScalar α] (h : s.Reordered t) : answering? s w = answering? t w := by
  refine answering?_congr fun strategy => ?_
  simpa using (h.products_perm (w := w) strategy).isEmpty_eq

/-! ### Exact addition -/

section

variable [Std.Commutative fun a b : α => a + b] [Std.Associative fun a b : α => a + b]

theorem averagePrice_eq (h : s.Reordered t) :
    Taste.averagePrice (Taste.history s w) = Taste.averagePrice (Taste.history t w) := by
  have hhistory : (Taste.history s w).Perm (Taste.history t w) := h.history_perm
  rw [Taste.averagePrice, Taste.averagePrice, hhistory.isEmpty_eq, hhistory.length_eq,
    Scalar.sum_perm (hhistory.map _)]

theorem candidates_contentBased_eq (h : s.Reordered t) :
    Strategy.contentBased.candidates s w = Strategy.contentBased.candidates t w :=
  Strategy.candidates_contentBased_congr h.unseen_eq h.now (fun p _ => h.likeCount_eq p.id)
    h.history_perm.isEmpty_eq h.averagePrice_eq h.preference_eq

theorem candidates_collaborative_perm [LawfulScalar α] (h : s.Reordered t) :
    (Strategy.collaborative.candidates s w).Perm (Strategy.collaborative.candidates t w) := by
  rw [Strategy.candidates, Strategy.candidates, h.chosen_eq, Neighbours.candidates,
    Neighbours.candidates, h.product?_eq, Neighbours.votes, Neighbours.votes]
  simp only [h.interacted_eq]
  exact (Tally.totals_perm ((h.allLikes.filter _).filterMap _)).filterMap _

variable {σ : Type} [IndexSource σ]

/-- If addition may be reordered, so may the history. -/
theorem recommend_eq [LawfulScalar α] (h : s.Reordered t) (w : Weights α) (requested : Int64)
    (source : σ) : recommend s w requested source = recommend t w requested source := by
  refine recommend_congr fun strategy => ?_
  cases strategy with
  | collaborative =>
    -- candidates are collected in the order of likes, but no identifier is repeated
    exact congrArg (·, source)
      (Ranking.mergeSort_eq_of_perm Neighbours.nodup_candidates h.candidates_collaborative_perm)
  | contentBased => exact Strategy.ranking_congr h.unseen_eq h.candidates_contentBased_eq
  | popularity => exact Strategy.ranking_congr h.unseen_eq (h.candidates_eq (.inl rfl))
  | random => exact Strategy.ranking_congr h.unseen_eq (h.candidates_eq (.inr rfl))

end

end Snapshot.Reordered

/-- **The order of a history does not matter beyond rounding.** On floating point numbers the known
products, the neighbours with their similarities, the preferences and the strategy that answers are
the same, and each strategy could pick the same products; popularity and chance pick them in the
same order and with the same scores. On rational numbers, which are added without rounding, the
answers are the same. -/
theorem recommend_reordered {σ : Type} [IndexSource σ] :
    (∀ (s t : Snapshot Binary64), s.Reordered t → ∀ (w : Weights Binary64) (source : σ),
      s.interacted = t.interacted ∧
      Neighbours.chosen w (Neighbours.similarities s w) =
        Neighbours.chosen w (Neighbours.similarities t w) ∧
      (∀ category : String, (Taste.Recorded s category ↔ Taste.Recorded t category) ∧
        Taste.preference (Taste.history s w) category =
          Taste.preference (Taste.history t w) category) ∧
      (∀ (requested : Int64) (strategy : Strategy),
        AnsweredBy (recommend s w requested source).1 strategy ↔
          AnsweredBy (recommend t w requested source).1 strategy) ∧
      (∀ (strategy : Strategy) (limit : Nat), s.catalog.length ≤ limit →
        (strategy.shortlist s w limit source).1.products.Perm
          (strategy.shortlist t w limit source).1.products) ∧
      ∀ (strategy : Strategy) (limit : Nat), strategy = .popularity ∨ strategy = .random →
        strategy.shortlist s w limit source = strategy.shortlist t w limit source) ∧
    ∀ (s t : Snapshot ℚ), s.Reordered t → ∀ (w : Weights ℚ) (requested : Int64) (source : σ),
      recommend s w requested source = recommend t w requested source := by
  constructor
  · intro s t h w source
    refine ⟨h.interacted_eq, h.chosen_eq, ?_, ?_, ?_, ?_⟩
    · intro category
      exact ⟨h.recorded_iff category, h.preference_eq category⟩
    · intro requested strategy
      rw [answeredBy_iff, answeredBy_iff, h.answering?_eq]
    · intro strategy limit hlimit
      refine (strategy.products_shortlist_perm hlimit source).trans ?_
      refine (h.products_perm strategy).trans ?_
      exact (strategy.products_shortlist_perm (h.catalog ▸ hlimit) source).symm
    · intro strategy limit hstrategy
      rw [Strategy.shortlist_eq, Strategy.shortlist_eq,
        Strategy.ranking_congr h.unseen_eq (h.candidates_eq hstrategy)]
  · intro s t h w requested source
    exact h.recommend_eq w requested source

namespace Shop

/-- Two users like some books, and the first one has ordered the lamp and the tool. -/
def ordered {α : Type} (products : List (Product α)) : Snapshot α :=
  ⟨1, [], [⟨1, 1, [⟨4, 1⟩, ⟨5, 2⟩]⟩], likes, products, noon⟩

/-- The same history, listed backwards. -/
def backwards {α : Type} (products : List (Product α)) : Snapshot α :=
  ⟨1, [], [⟨1, 1, [⟨5, 2⟩, ⟨4, 1⟩]⟩], likes.reverse, products, noon⟩

theorem ordered_reordered {α : Type} (products : List (Product α)) :
    (ordered products).Reordered (backwards products) where
  user := rfl
  catalog := rfl
  now := rfl
  userLikes := .refl _
  allLikes := (List.reverse_perm likes).symm
  userOrders := ⟨_, .refl _, .cons ⟨rfl, rfl, .swap ..⟩ .nil⟩

/-- The products of the shop, with exact prices. -/
def exactProducts : List (Product ℚ) :=
  products.map fun p => ⟨p.id, p.name, p.category, 10, p.createdAt⟩

end Shop

/-- Listed backwards, the history of the shop has the same preferences, and with exact prices the
same answer. -/
theorem recommend_reordered_shop :
    (Shop.ordered Shop.products).Reordered (Shop.backwards Shop.products) ∧
    (∀ category, Taste.preference (Taste.history (Shop.ordered Shop.products) .standard) category =
      Taste.preference (Taste.history (Shop.backwards Shop.products) .standard) category) ∧
    recommend (Shop.ordered Shop.exactProducts) .exact 2 (Generator.tape []) =
      recommend (Shop.backwards Shop.exactProducts) .exact 2 (Generator.tape []) := by
  obtain ⟨hfloats, hexact⟩ := recommend_reordered (σ := Generator)
  have h := Shop.ordered_reordered Shop.products
  obtain ⟨-, -, hpreference, -⟩ := hfloats _ _ h .standard (.tape [])
  exact ⟨h, fun category => (hpreference category).2,
    hexact _ _ (Shop.ordered_reordered Shop.exactProducts) .exact 2 (.tape [])⟩

end Recommender
