import Recommender.Proofs.Answer

/-!
# What an answer depends on

Of the lists of a snapshot only some parts have a part in an answer: the products of the user's own
rows, and who likes what of the products that the user knows or that are on offer. When things were
liked, how many pieces were bought, how purchases are split into orders and what others do apart
from that is the same to the user.

* `Snapshot.Relevant` : a like that may have a part in the answer.
* `Snapshot.Agree` : two snapshots that agree on all that may have a part.
* `Snapshot.Agree.candidates_eq` : every strategy has the same candidates for both.
* `recommend_eq_of_agree` : both are answered alike.
-/

namespace Recommender

/-- Who likes what. -/
def Like.row (l : Like) : UserId × ProductId :=
  (l.user, l.product)

namespace Snapshot

variable {α : Type}

section

variable (s : Snapshot α)

/-- The products of the user's own rows in the list of the user's likes. -/
def ownLikes : List ProductId :=
  (s.userLikes.filter (·.user = s.user)).map (·.product)

/-- A like that may have a part in the answer: the user's own, or one on a product that the user
knows or that is on offer. -/
def Relevant (l : Like) : Prop :=
  l.user = s.user ∨ s.Knows l.product ∨ ∃ p ∈ s.catalog, p.id = l.product

instance : DecidablePred s.Relevant := fun _ => inferInstanceAs (Decidable (_ ∨ _ ∨ _))

/-- Who likes what, as far as it may have a part in the answer. -/
def relevantRows : List (UserId × ProductId) :=
  (s.allLikes.filter fun l => s.Relevant l).map Like.row

end

/-- Two snapshots agree on all that may have a part in an answer. -/
structure Agree (s t : Snapshot α) : Prop where
  /-- The same user is answered. -/
  user : s.user = t.user
  /-- The same products are on offer. -/
  catalog : s.catalog = t.catalog
  /-- The answers are given at the same time. -/
  now : s.now = t.now
  /-- The user's rows in the list of the user's likes are on the same products. -/
  ownLikes : s.ownLikes = t.ownLikes
  /-- The lines of the user's orders are on the same products. -/
  purchased : s.purchased = t.purchased
  /-- The likes that may have a part are by the same users on the same products. -/
  relevantRows : s.relevantRows = t.relevantRows

/-! ### Reading only what may have a part -/

section

variable {s : Snapshot α}

theorem filter_relevantRows {P : UserId × ProductId → Bool}
    (h : ∀ l, P l.row = true → s.Relevant l) :
    s.relevantRows.filter P = (s.allLikes.filter fun l => P l.row).map Like.row := by
  rw [relevantRows, List.filter_map, List.filter_filter]
  congr 1
  apply List.filter_congr
  intro l _
  by_cases hl : P l.row = true
  · simp [hl, h l hl]
  · simp [hl]

theorem liked_eq :
    s.liked = (s.ownLikes ++ (s.relevantRows.filter (·.1 = s.user)).map (·.2)).eraseDups := by
  have hown (l : Like) (h : decide (l.row.1 = s.user) = true) : s.Relevant l :=
    .inl (of_decide_eq_true h)
  rw [filter_relevantRows hown, List.map_map, liked, List.filter_append, List.map_append]
  rfl

theorem likeCount_eq {p : Product α} (hp : p ∈ s.catalog) :
    s.likeCount p.id = s.relevantRows.countP (·.2 = p.id) := by
  have hoffered (l : Like) (h : decide (l.row.2 = p.id) = true) : s.Relevant l :=
    .inr (.inr ⟨p, hp, (of_decide_eq_true h).symm⟩)
  rw [List.countP_eq_length_filter, filter_relevantRows hoffered, List.length_map, likeCount,
    List.countP_eq_length_filter]
  rfl

end

end Snapshot

namespace Neighbours

variable {α : Type} [Scalar α] {s : Snapshot α} {w : Weights α}

theorem similarities_eq_relevantRows :
    similarities s w = Tally.totals
      ((s.relevantRows.filter fun r => r.1 ≠ s.user ∧ r.2 ∈ s.interacted).map fun r =>
        (r.1, w.coOccurrence)) := by
  have hknown (l : Like) (h : decide (l.row.1 ≠ s.user ∧ l.row.2 ∈ s.interacted) = true) :
      s.Relevant l := .inr (.inl (Snapshot.mem_interacted.1 (of_decide_eq_true h).2))
  rw [Snapshot.filter_relevantRows hknown, List.map_map]
  rfl

omit [Scalar α] in
/-- Votes for what is not on offer make no candidates. -/
theorem candidates_filter (votes : List (ProductId × α)) :
    candidates s (votes.filter fun v => (s.product? v.1).isSome) = candidates s votes := by
  rw [candidates, List.filterMap_filter]
  apply List.filterMap_congr
  intro v _
  cases s.product? v.1 <;> rfl

theorem candidates_votes_eq_relevantRows (neighbours : List (UserId × α)) :
    candidates s (votes s neighbours) = candidates s (Tally.totals
      ((s.relevantRows.filter fun r =>
        (s.product? r.2).isSome ∧ r.2 ∉ s.interacted).filterMap fun r =>
          (neighbours.lookup r.1).map (r.2, ·))) := by
  have hoffered (l : Like)
      (h : decide ((s.product? l.row.2).isSome ∧ l.row.2 ∉ s.interacted) = true) : s.Relevant l :=
    .inr (.inr (Snapshot.product?_isSome.1 (of_decide_eq_true h).1))
  rw [← candidates_filter, votes, Tally.filter_totals fun id => (s.product? id).isSome,
    Snapshot.filter_relevantRows hoffered, List.filterMap_map, List.filter_filterMap,
    List.filterMap_filter, List.filterMap_filter]
  congr 2
  apply List.filterMap_congr
  intro l _
  by_cases hknown : l.product ∈ s.interacted
  · simp [Like.row, hknown]
  · cases hoffer : s.product? l.product <;> cases hvoter : neighbours.lookup l.user <;>
      simp [Like.row, hknown, hoffer, hvoter]

end Neighbours

/-! ### Agreeing snapshots -/

namespace Snapshot.Agree

variable {α : Type} {s t : Snapshot α}

theorem liked_eq (agree : s.Agree t) : s.liked = t.liked := by
  rw [Snapshot.liked_eq, Snapshot.liked_eq, agree.ownLikes, agree.relevantRows, agree.user]

theorem interacted_eq (agree : s.Agree t) : s.interacted = t.interacted := by
  rw [interacted, interacted, agree.liked_eq, agree.purchased]

theorem product?_eq (agree : s.Agree t) (id : ProductId) : s.product? id = t.product? id := by
  rw [product?, product?, agree.catalog]

theorem unseen_eq (agree : s.Agree t) : s.unseen = t.unseen := by
  simp only [unseen, agree.interacted_eq, agree.catalog]

theorem likeCount_eq (agree : s.Agree t) {p : Product α} (hp : p ∈ s.unseen) :
    s.likeCount p.id = t.likeCount p.id := by
  have hs : p ∈ s.catalog := (mem_unseen.1 hp).1
  rw [Snapshot.likeCount_eq hs, Snapshot.likeCount_eq (agree.catalog ▸ hs), agree.relevantRows]

variable {w : Weights α}

theorem history_eq (agree : s.Agree t) : Taste.history s w = Taste.history t w := by
  simp only [Taste.history, agree.liked_eq, agree.purchased, agree.product?_eq]

variable [Scalar α]

theorem similarities_eq (agree : s.Agree t) :
    Neighbours.similarities s w = Neighbours.similarities t w := by
  rw [Neighbours.similarities_eq_relevantRows, Neighbours.similarities_eq_relevantRows,
    agree.relevantRows, agree.user, agree.interacted_eq]

/-- Every strategy has the same candidates for agreeing snapshots. -/
theorem candidates_eq (agree : s.Agree t) (strategy : Strategy) :
    strategy.candidates s w = strategy.candidates t w := by
  cases strategy with
  | collaborative =>
    rw [Strategy.candidates, Strategy.candidates, agree.similarities_eq,
      Neighbours.candidates_votes_eq_relevantRows, Neighbours.candidates_votes_eq_relevantRows]
    simp only [Neighbours.candidates, agree.relevantRows, agree.interacted_eq, agree.product?_eq]
  | contentBased =>
    refine Strategy.candidates_contentBased_congr agree.unseen_eq agree.now
      (fun p hp => agree.likeCount_eq hp) ?_ ?_ fun category => ?_
    all_goals rw [agree.history_eq]
  | popularity =>
    exact Strategy.candidates_popularity_congr agree.unseen_eq fun p hp => agree.likeCount_eq hp
  | random => exact Strategy.candidates_random_congr agree.unseen_eq

end Snapshot.Agree

/-- **Nothing else has a part in an answer.** Agreeing snapshots are answered with the same
recommendations, bit for bit, and leave the same source of indices. -/
theorem recommend_eq_of_agree {α σ : Type} [Scalar α] [IndexSource σ] {s t : Snapshot α}
    (agree : s.Agree t) (w : Weights α) (requested : Int64) (source : σ) :
    recommend s w requested source = recommend t w requested source := by
  refine recommend_congr ?_
  intro strategy
  exact Strategy.ranking_congr agree.unseen_eq (agree.candidates_eq strategy)

/-- The first user of the shop has liked a book and bought the lamp and the tool. -/
def Shop.regular : Snapshot Binary64 :=
  { Shop.snapshot with
    userLikes := [⟨1, 1, Shop.noon⟩]
    userOrders := [⟨1, 1, [⟨4, 1⟩, ⟨5, 2⟩]⟩] }

/-- The same user with other pieces in other orders, among rows of others, and one more like on
something that is not on offer. -/
def Shop.bystanders : Snapshot Binary64 :=
  { Shop.snapshot with
    userLikes := [⟨2, 3, Shop.noon⟩, ⟨1, 1, { Shop.noon with day := 19800 }⟩]
    userOrders := [⟨8, 1, [⟨4, 7⟩]⟩, ⟨9, 2, [⟨3, 1⟩]⟩, ⟨7, 1, [⟨5, 1⟩]⟩]
    allLikes := ⟨2, 99, Shop.noon⟩ :: Shop.likes }

/-- The regular customer of the shop does not notice the bystanders. -/
theorem recommend_eq_of_agree_bystanders :
    Shop.regular.Agree Shop.bystanders ∧
    recommend Shop.regular .standard 3 (Generator.tape []) =
      recommend Shop.bystanders .standard 3 (Generator.tape []) := by
  have agree : Shop.regular.Agree Shop.bystanders :=
    ⟨rfl, rfl, rfl, by decide, by decide, by decide⟩
  exact ⟨agree, recommend_eq_of_agree agree .standard 3 (Generator.tape [])⟩

end Recommender
