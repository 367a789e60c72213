import Recommender.Table
import Recommender.Proofs.Answer
import Recommender.Proofs.Exact
import Recommender.Proofs.Neighbours
import Mathlib.Algebra.BigOperators.Ring.Finset

/-!
# Votes, declaratively

What the similar users of a user come to recommend, said without the bookkeeping of a strategy: a
panel of the most similar ones votes by its likes, and a product is supported by the similarities of
those that vote for it.

* `Neighbours.IsPanel` : the most similar users with their similarities, the first one first.
* `Neighbours.support` : the similarities of a panel's likes on a product, added up from zero in the
  order of the likes.
* `Neighbours.IsCandidate` : an unseen entry that stands for a product with votes, and its support.
* `Neighbours.isShortlist_iff` : the strategy ranks just these.
* `Neighbours.support_eq` : with exact numbers, a support counts likes by user.
* `Neighbours.shortlist_characterized` : all of this for floating point and for rational numbers.
-/

namespace Recommender

namespace Neighbours

/-! ### Panels and votes -/

section

variable {α : Type} [Scalar α] (s : Snapshot α) (w : Weights α)

/-- Another user with at least one like on a product that the user knows, and the similarity. -/
def Competes (e : UserId × α) : Prop :=
  e.1 ≠ s.user ∧ 0 < sharedLikes s e.1 ∧ e.2 = similarity s w e.1

/-- A panel holds the first of all competing users, as many as the weights allow. -/
def IsPanel (panel : List (UserId × α)) : Prop :=
  ∃ ranking, Ranking.IsRanking id (Competes s w) ranking ∧ panel = ranking.take w.maxSimilarUsers

/-- The support of a product: the similarities of the users whose likes on it are votes, added up
from zero in the order of the likes. -/
def support (users : List UserId) (id : ProductId) : α :=
  Scalar.sum <| (s.allLikes.filter fun l => l.user ∈ users ∧ l.product = id).map fun l =>
    similarity s w l.user

/-- An entry of the catalog that stands for a product that the user does not know and that has a
vote, and its support. -/
def IsCandidate (users : List UserId) (e : Product α × α) : Prop :=
  ¬ s.Knows e.1.id ∧ s.Stands e.1 ∧ (∃ l ∈ s.allLikes, l.user ∈ users ∧ l.product = e.1.id) ∧
    e.2 = support s w users e.1.id

/-- A shortlist holds the first candidates that the panel votes for. -/
def IsShortlist (limit : Nat) (list : Shortlist α) : Prop :=
  ∃ panel ranking, IsPanel s w panel ∧
    Ranking.IsRanking Product.id (IsCandidate s w (panel.map (·.1))) ranking ∧
    list = .ofEntries (ranking.take limit)

end

/-! ### The bookkeeping of votes -/

variable {α : Type} [Scalar α] {s : Snapshot α} {w : Weights α}

theorem mem_similarities {e : UserId × α} : e ∈ similarities s w ↔ Competes s w e := by
  have hsimilar : IsSimilar s e.1 ↔ e.1 ≠ s.user ∧ 0 < sharedLikes s e.1 := by
    simp [IsSimilar, sharedLikes]
  rw [similarities_perm.mem_iff, List.mem_map, Competes, ← and_assoc, ← hsimilar,
    ← mem_similarUsers]
  constructor
  · rintro ⟨v, hv, rfl⟩
    exact ⟨hv, rfl⟩
  · rintro ⟨hv, hscore⟩
    exact ⟨e.1, hv, by rw [← hscore]⟩

/-- A panel is looked up by its users. -/
theorem lookup_panel {panel : List (UserId × α)} (h : ∀ e ∈ panel, e.2 = similarity s w e.1)
    (v : UserId) :
    panel.lookup v = if v ∈ panel.map (·.1) then some (similarity s w v) else none := by
  induction panel with
  | nil => rfl
  | cons e panel ih =>
    obtain ⟨he, hrest⟩ := List.forall_mem_cons.1 h
    rw [Table.lookup_cons_eq, ih hrest, List.map_cons]
    by_cases hv : v = e.1
    · simp only [hv, he, if_true, List.mem_cons, true_or]
    · simp only [hv, if_false, List.mem_cons, false_or]

/-- What a panel books on products that the user does not know. -/
def ballots (s : Snapshot α) (panel : List (UserId × α)) : List (ProductId × α) :=
  (s.allLikes.filter fun l => l.product ∉ s.interacted).filterMap fun l =>
    (panel.lookup l.user).map (l.product, ·)

theorem votes_eq (panel : List (UserId × α)) : votes s panel = Tally.totals (ballots s panel) := rfl

/-- The votes for an unseen product add up to its support. -/
theorem total_ballots {panel : List (UserId × α)} (h : ∀ e ∈ panel, e.2 = similarity s w e.1)
    {id : ProductId} (hnew : ¬ s.Knows id) :
    Tally.total (ballots s panel) id = support s w (panel.map (·.1)) id := by
  rw [Tally.total, ballots, support, List.filter_filterMap, List.map_filterMap,
    List.filterMap_filter, ← List.filterMap_eq_filter, List.map_filterMap]
  congr 1
  apply List.filterMap_congr
  intro l _
  rw [lookup_panel h]
  by_cases hid : l.product = id
  · subst hid
    by_cases huser : l.user ∈ panel.map (·.1)
    · simp [Snapshot.mem_interacted, hnew, huser, Option.guard]
    · simp [Snapshot.mem_interacted, huser, Option.guard]
  · by_cases huser : l.user ∈ panel.map (·.1) <;> simp [hid, huser, Option.guard]

/-- The strategy makes candidates of just the supported products. -/
theorem mem_candidates_votes {panel : List (UserId × α)}
    (h : ∀ e ∈ panel, e.2 = similarity s w e.1) {e : Product α × α} :
    e ∈ candidates s (votes s panel) ↔ IsCandidate s w (panel.map (·.1)) e := by
  have hkeys : e.1.id ∈ (ballots s panel).map (·.1) ↔
      ¬ s.Knows e.1.id ∧ ∃ l ∈ s.allLikes, l.user ∈ panel.map (·.1) ∧ l.product = e.1.id := by
    rw [← List.mem_eraseDups, ← Tally.keys_totals, ← votes_eq, mem_keys_votes]
    simp only [and_comm]
  rw [mem_candidates_iff, votes_eq, Tally.mem_totals, hkeys]
  constructor
  · rintro ⟨hstands, ⟨hnew, hliked⟩, hscore⟩
    exact ⟨hnew, hstands, hliked, hscore.trans (total_ballots h hnew)⟩
  · rintro ⟨hnew, hstands, hliked, hscore⟩
    exact ⟨hstands, ⟨hnew, hliked⟩, hscore.trans (total_ballots h hnew).symm⟩

theorem IsPanel.score_eq {panel : List (UserId × α)} (h : IsPanel s w panel) :
    ∀ e ∈ panel, e.2 = similarity s w e.1 := by
  obtain ⟨ranking, hranking, rfl⟩ := h
  intro e he
  exact ((hranking.mem_iff e).1 (List.mem_of_mem_take he)).2.2

/-- A user who knows nothing has no panel. -/
theorem isPanel_nil (h : ∀ id, ¬ s.Knows id) : IsPanel s w [] := by
  refine ⟨[], ⟨fun e => ?_, .nil⟩, by simp⟩
  simp [Competes, sharedLikes, h]

/-! ### The strategy -/

section

variable [LawfulScalar α]

/-- The panel is what the strategy chooses. -/
theorem isPanel_iff {panel : List (UserId × α)} :
    IsPanel s w panel ↔ panel = chosen w (similarities s w) := by
  have hranking (ranking : List (UserId × α)) : Ranking.IsRanking id (Competes s w) ranking ↔
      ranking = (similarities s w).mergeSort (Ranking.before id) :=
    Ranking.isRanking_iff nodup_keys_similarities fun e => mem_similarities
  simp only [IsPanel, hranking, exists_eq_left]
  rfl

/-- The strategy ranks the candidates that the panel votes for. -/
theorem isShortlist_iff {limit : Nat} {list : Shortlist α} :
    IsShortlist s w limit list ↔ list = shortlist s w limit := by
  have hpanel : IsPanel s w (chosen w (similarities s w)) := isPanel_iff.2 rfl
  have hranking (ranking : List (Product α × α)) :
      Ranking.IsRanking Product.id
          (IsCandidate s w ((chosen w (similarities s w)).map (·.1))) ranking ↔
        ranking = (candidates s (votes s (chosen w (similarities s w)))).mergeSort
          (Ranking.before Product.id) :=
    Ranking.isRanking_iff nodup_candidates fun e => mem_candidates_votes hpanel.score_eq
  simp only [IsShortlist, isPanel_iff, exists_and_left, exists_eq_left, hranking, shortlist_eq]
  rfl

/-- Without a panel nothing is recommended. -/
theorem shortlist_of_isPanel_nil {limit : Nat} (h : IsPanel s w []) :
    shortlist s w limit = .empty := by
  symm
  refine isShortlist_iff.1 ⟨[], [], h, ⟨fun e => ?_, .nil⟩, ?_⟩
  · simp [IsCandidate]
  · simp [Shortlist.ofEntries, Shortlist.empty]

end

/-! ### Exact supports -/

section

variable (s : Snapshot ℚ) (w : Weights ℚ)

/-- How many likes a user has on a product. -/
def likesOn (v : UserId) (id : ProductId) : Nat :=
  s.allLikes.countP fun l => l.user = v ∧ l.product = id

theorem similarity_eq (v : UserId) : similarity s w v = w.coOccurrence * sharedLikes s v := by
  rw [similarity, Scalar.sum_eq_sum, List.sum_replicate, nsmul_eq_mul, mul_comm]

/-- Numbers added up like by like may be added up user by user. -/
theorem sum_likes_eq (f : UserId → ℚ) (users : List UserId) (id : ProductId) (likes : List Like) :
    ((likes.filter fun l => l.user ∈ users ∧ l.product = id).map fun l => f l.user).sum =
      ∑ v ∈ users.toFinset, f v * (likes.countP fun l => l.user = v ∧ l.product = id) := by
  induction likes with
  | nil => simp
  | cons l likes ih =>
    have hone : (if l.user ∈ users ∧ l.product = id then f l.user else 0) =
        ∑ v ∈ users.toFinset, f v * (if l.user = v ∧ l.product = id then 1 else 0) := by
      by_cases hid : l.product = id <;> simp [hid]
    calc _ = (if l.user ∈ users ∧ l.product = id then f l.user else 0) +
          ((likes.filter fun l => l.user ∈ users ∧ l.product = id).map fun l => f l.user).sum := by
            rw [List.filter_cons]
            by_cases hl : l.user ∈ users ∧ l.product = id <;> simp [hl]
      _ = _ := by
            rw [hone, ih, ← Finset.sum_add_distrib]
            refine Finset.sum_congr rfl fun v _ => ?_
            rw [List.countP_cons, Nat.cast_add, ← mul_add, add_comm]
            simp

/-- An exact support counts the likes of each user, on what is known and on the product. -/
theorem support_eq (users : List UserId) (id : ProductId) :
    support s w users id =
      w.coOccurrence * ∑ v ∈ users.toFinset, (sharedLikes s v * likesOn s v id : ℚ) := by
  rw [support, Scalar.sum_eq_sum, sum_likes_eq (similarity s w), Finset.mul_sum]
  refine Finset.sum_congr rfl fun v _ => ?_
  rw [similarity_eq, likesOn, mul_assoc]

end

/-- **What similar users like, without the bookkeeping.** The shortlist holds the first candidates
with the votes of a panel, on floating point and on rational numbers: each product once, as the last
entry of the catalog has it. There are none for a user who knows nothing, or if nobody is on the
panel. On rational numbers the support of a product is the weight of a shared like times, for each
user on the panel, all shared likes and all likes on the product. -/
theorem shortlist_characterized :
    (∀ (s : Snapshot Binary64) (w : Weights Binary64) (limit : Nat),
      (∀ list, IsShortlist s w limit list ↔ list = shortlist s w limit) ∧
      ((∀ id, ¬ s.Knows id) ∨ IsPanel s w [] → shortlist s w limit = .empty)) ∧
    ∀ (s : Snapshot ℚ) (w : Weights ℚ),
      (∀ limit list, IsShortlist s w limit list ↔ list = shortlist s w limit) ∧
      ∀ (users : List UserId) (id : ProductId), support s w users id =
        w.coOccurrence * ∑ v ∈ users.toFinset, (sharedLikes s v * likesOn s v id : ℚ) := by
  constructor
  · intro s w limit
    refine ⟨fun list => isShortlist_iff, ?_⟩
    rintro (hnothing | hnobody)
    · exact shortlist_of_isPanel_nil (isPanel_nil hnothing)
    · exact shortlist_of_isPanel_nil hnobody
  · intro s w
    exact ⟨fun limit list => isShortlist_iff, support_eq s w⟩

/-- Nobody votes for a user who is new to the shop, and one user votes for one who is not. -/
theorem shortlist_characterized_shop :
    (∀ id, ¬ { Shop.snapshot with user := 3 }.Knows id) ∧
    shortlist { Shop.snapshot with user := 3 } .standard 3 = .empty ∧
    IsShortlist Shop.snapshot .standard 3 ⟨[Shop.product 2 "book"], [1.0]⟩ := by
  obtain ⟨hfloats, -⟩ := shortlist_characterized
  have hnothing : ∀ id, ¬ { Shop.snapshot with user := 3 }.Knows id := by
    intro id
    simp [Snapshot.Knows, Shop.snapshot, Shop.likes]
  have hshortlist : ⟨[Shop.product 2 "book"], [1.0]⟩ = shortlist Shop.snapshot .standard 3 := by
    decide +kernel
  obtain ⟨-, hempty⟩ := hfloats { Shop.snapshot with user := 3 } .standard 3
  obtain ⟨hiff, -⟩ := hfloats Shop.snapshot .standard 3
  exact ⟨hnothing, hempty (.inl hnothing), (hiff _).2 hshortlist⟩

end Neighbours

end Recommender
