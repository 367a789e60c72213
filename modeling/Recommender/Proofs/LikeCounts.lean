import Recommender.Proofs.Answer
import Recommender.Proofs.Sorting
import Recommender.Proofs.WholeNumbers

/-!
# What many users like, declaratively

The ranking by likes, said with the numbers of likes themselves instead of the floating point
numbers that serve as scores. Fewer likes than `2 ^ 53` are counted exactly and in order, so the two
rankings agree.

* `Popularity.moreLiked` : the order of the ranking, on entries of the catalog.
* `Popularity.outranks` : its strict part; an entry stands behind as many as outrank it.
* `Popularity.IsShortlist` : a list holds the first entries by likes.
* `Popularity.isShortlist_iff` : this is the shortlist of the strategy.
* `Popularity.Raised` : what one more like does for the entry that it is on.
* `Popularity.raised_withLikeAt` : a like of another user does this, wherever it is put.
* `Popularity.shortlist_ranks_likes` : the same for fewer likes than a counter of 32 bits can hold.
-/

namespace Recommender

/-! ### One more like -/

namespace Snapshot

variable {α : Type} {s : Snapshot α} {place : Nat} {like : Like}

/-- The snapshot with one more like, put at some place of the list of all likes. -/
def withLikeAt (s : Snapshot α) (place : Nat) (like : Like) : Snapshot α :=
  { s with allLikes := s.allLikes.take place ++ like :: s.allLikes.drop place }

theorem allLikes_withLikeAt_perm :
    (s.withLikeAt place like).allLikes.Perm (like :: s.allLikes) := by
  have hperm : (s.withLikeAt place like).allLikes.Perm
      (like :: (s.allLikes.take place ++ s.allLikes.drop place)) := List.perm_middle
  rwa [List.take_append_drop] at hperm

theorem length_allLikes_withLikeAt :
    (s.withLikeAt place like).allLikes.length = s.allLikes.length + 1 :=
  allLikes_withLikeAt_perm.length_eq

/-- What another user likes is not known by that. -/
theorem knows_withLikeAt (other : like.user ≠ s.user) {id : ProductId} :
    (s.withLikeAt place like).Knows id ↔ s.Knows id := by
  have hall : (∃ l ∈ (s.withLikeAt place like).allLikes, l.user = s.user ∧ l.product = id) ↔
      ∃ l ∈ s.allLikes, l.user = s.user ∧ l.product = id := by
    simp [allLikes_withLikeAt_perm.mem_iff, other]
  simp only [Knows, List.mem_append, or_and_right, exists_or]
  rw [show (s.withLikeAt place like).user = s.user from rfl, hall]
  rfl

theorem likeCount_withLikeAt (id : ProductId) :
    (s.withLikeAt place like).likeCount id =
      s.likeCount id + if like.product = id then 1 else 0 := by
  rw [likeCount, allLikes_withLikeAt_perm.countP_eq, List.countP_cons, likeCount]
  simp

end Snapshot

namespace Popularity

/-! ### The ranking by likes -/

section

variable {α : Type} (s : Snapshot α)

/-- Whether an entry may stand before another one: it has more likes, or as many and no higher
identifier. -/
def moreLiked (p q : Product α) : Bool :=
  s.likeCount q.id < s.likeCount p.id ∨ s.likeCount q.id = s.likeCount p.id ∧ p.id ≤ q.id

/-- The entries of the catalog that the user does not know and that anyone likes. -/
def liked : List (Product α) :=
  s.catalog.filter fun p => ¬ s.Knows p.id ∧ ∃ l ∈ s.allLikes, l.product = p.id

/-- An entry with its number of likes as the score. -/
def entry [Scalar α] (p : Product α) : Product α × α :=
  (p, Scalar.ofNat (s.likeCount p.id))

/-- A shortlist holds the first entries by likes, with their numbers of likes; entries of one
identifier stay in the order of the catalog. -/
def IsShortlist [Scalar α] (limit : Nat) (list : Shortlist α) : Prop :=
  ∃ ranking, Sorts (moreLiked s) (liked s) ranking ∧
    list = .ofEntries ((ranking.take limit).map (entry s))

/-- All entries by likes. -/
def ranking : List (Product α) :=
  (liked s).mergeSort (moreLiked s)

/-- Whether an entry must stand before another one. -/
def outranks (p q : Product α) : Bool :=
  !moreLiked s q p

variable {s} {p q : Product α}

theorem mem_liked :
    p ∈ liked s ↔ p ∈ s.catalog ∧ ¬ s.Knows p.id ∧ ∃ l ∈ s.allLikes, l.product = p.id := by
  simp [liked]

theorem moreLiked_iff : moreLiked s p q = true ↔
    s.likeCount q.id < s.likeCount p.id ∨
      s.likeCount q.id = s.likeCount p.id ∧ p.id ≤ q.id :=
  decide_eq_true_iff

theorem outranks_iff : outranks s p q = true ↔
    s.likeCount q.id < s.likeCount p.id ∨
      s.likeCount q.id = s.likeCount p.id ∧ p.id < q.id := by
  rw [outranks, Bool.not_eq_true', ← Bool.not_eq_true, moreLiked_iff, not_or, not_and, Nat.not_lt,
    Int64.not_le]
  constructor
  · rintro ⟨hcount, hid⟩
    exact hcount.lt_or_eq.imp_right fun heq => ⟨heq, hid heq.symm⟩
  · rintro (hlt | ⟨heq, hid⟩)
    · exact ⟨hlt.le, fun heq => absurd heq hlt.ne'⟩
    · exact ⟨heq.le, fun _ => hid⟩

theorem moreLiked_trans (a b c : Product α) (hab : moreLiked s a b = true)
    (hbc : moreLiked s b c = true) : moreLiked s a c = true := by
  rw [moreLiked_iff] at *
  rcases hab with hab | ⟨hab, hid⟩
  · omega
  · rcases hbc with hbc | ⟨hbc, hid'⟩
    · omega
    · exact .inr ⟨hbc.trans hab, Int64.le_trans hid hid'⟩

theorem moreLiked_total (a b : Product α) : (moreLiked s a b || moreLiked s b a) = true := by
  rw [Bool.or_eq_true, moreLiked_iff, moreLiked_iff]
  rcases Nat.lt_trichotomy (s.likeCount a.id) (s.likeCount b.id) with hlt | heq | hgt
  · exact .inr (.inl hlt)
  · rcases Int64.le_total a.id b.id with hid | hid
    · exact .inl (.inr ⟨heq.symm, hid⟩)
    · exact .inr (.inr ⟨heq, hid⟩)
  · exact .inl (.inl hgt)

/-- Entries with distinct identifiers are ranked without ties. -/
theorem pairwise_ranking (distinct : (s.catalog.map (·.id)).Nodup) :
    (ranking s).Pairwise (outranks s · · = true) := by
  have hsorted : (ranking s).Pairwise (moreLiked s · · = true) :=
    List.pairwise_mergeSort moreLiked_trans moreLiked_total (liked s)
  have hids : ((ranking s).map (·.id)).Nodup := by
    rw [ranking, ((List.mergeSort_perm _ _).map _).nodup_iff]
    exact (List.filter_sublist.map _).nodup distinct
  refine (hsorted.and (List.pairwise_map.1 hids)).imp fun {p q} ⟨hle, hne⟩ => ?_
  rw [moreLiked_iff] at hle
  rw [outranks_iff]
  exact hle.imp_right fun ⟨hcount, hid⟩ => ⟨hcount, Int64.lt_of_le_of_ne hid hne⟩

/-- An entry stands behind as many others as outrank it. -/
theorem idxOf_ranking [DecidableEq α] (distinct : (s.catalog.map (·.id)).Nodup)
    (hp : p ∈ ranking s) : (ranking s).idxOf p = (ranking s).countP (outranks s · p) := by
  refine eq_of_forall_gt_iff fun k => ?_
  have hasymm : ∀ {a b : Product α}, outranks s a b = true → outranks s b a = false := by
    intro a b hab
    have htotal := moreLiked_total (s := s) a b
    simp_all [outranks]
  rw [← List.mem_take_iff_idxOf_lt hp,
    Ranking.mem_take_iff_countP hasymm (pairwise_ranking distinct)]
  exact and_iff_right hp

theorem candidates_eq [Scalar α] : candidates s = (liked s).map (entry s) := by
  have hliked : (s.unseen.filter fun p => 0 < s.likeCount p.id) = liked s := by
    rw [liked, Snapshot.unseen_eq, List.filter_filter]
    refine List.filter_congr fun p _ => ?_
    simp [Snapshot.likeCount, List.countP_pos_iff, Bool.and_comm]
  rw [candidates, hliked]
  rfl

end

/-! ### Scores keep the order of the numbers of likes -/

variable {s : Snapshot Binary64} {p q : Product Binary64} {limit : Nat}

section

variable (few : s.allLikes.length < 2 ^ 53)

include few

theorem likeCount_lt (id : ProductId) : s.likeCount id < 2 ^ 53 :=
  List.countP_le_length.trans_lt few

theorem totalOrder_likeCount (id id' : ProductId) :
    Scalar.totalOrder (Scalar.ofNat (s.likeCount id) : Binary64) (Scalar.ofNat (s.likeCount id')) =
      compare (s.likeCount id) (s.likeCount id') :=
  Binary64.totalOrder_ofNat (likeCount_lt few id) (likeCount_lt few id')

theorem before_entry :
    Ranking.before Product.id (entry s p) (entry s q) = moreLiked s p q := by
  rw [Bool.eq_iff_iff, Ranking.before_iff, entry, entry, totalOrder_likeCount few,
    Nat.compare_eq_lt, ← @Std.LawfulEqCmp.compare_eq_iff_eq _ Scalar.totalOrder _,
    totalOrder_likeCount few, Nat.compare_eq_eq, moreLiked, decide_eq_true_eq,
    @eq_comm _ (s.likeCount q.id)]

theorem map_ranking : (ranking s).map (entry s) =
    (candidates s).mergeSort (Ranking.before Product.id) := by
  rw [ranking, candidates_eq]
  exact List.map_mergeSort fun p _ q _ => (before_entry few).symm

theorem shortlist_eq_ranking :
    shortlist s limit = .ofEntries (((ranking s).take limit).map (entry s)) := by
  have hranked : (.ranked (candidates s) limit : Shortlist Binary64) =
      .ofEntries (((ranking s).take limit).map (entry s)) := by
    rw [List.map_take, map_ranking few]
    rfl
  rw [← hranked, shortlist]
  split_ifs with hempty
  · -- nobody likes anything, so there are no candidates either
    have hnone : candidates s = [] := by
      simp [candidates, Snapshot.likeCount, List.isEmpty_iff.1 hempty]
    rw [hnone, Shortlist.ranked_nil]
  · rfl

theorem isShortlist_iff {list : Shortlist Binary64} :
    IsShortlist s limit list ↔ list = shortlist s limit := by
  simp only [IsShortlist, sorts_iff moreLiked_trans moreLiked_total, exists_eq_left,
    shortlist_eq_ranking few]
  rfl

end

/-! ### What one more like does -/

/-- Of two shortlists, the second one has the other products as the first, but `p` scores one more
and stands no further behind. -/
structure Raised (p : Product Binary64) (now next : Shortlist Binary64) : Prop where
  /-- All other products keep their order and their scores. -/
  others : (next.entries.filter fun e => e.1.id ≠ p.id) =
    now.entries.filter fun e => e.1.id ≠ p.id
  /-- The product is on the second shortlist, and if it was on the first, its score is one more. -/
  score : ∃ y, (p, y) ∈ next.entries ∧ ∀ x, (p, x) ∈ now.entries → y.toRat = x.toRat + 1
  /-- What was not on the first shortlist counts as behind all that was. -/
  place : next.products.idxOf p ≤ now.products.idxOf p

section

variable {place : Nat} {like : Like} (other : like.user ≠ s.user) (hlike : like.product = p.id)

include hlike

theorem likeCount_self : (s.withLikeAt place like).likeCount p.id = s.likeCount p.id + 1 := by
  rw [Snapshot.likeCount_withLikeAt, if_pos hlike]

theorem likeCount_of_ne (hne : q.id ≠ p.id) :
    (s.withLikeAt place like).likeCount q.id = s.likeCount q.id := by
  rw [Snapshot.likeCount_withLikeAt, if_neg fun h => hne (h.symm.trans hlike), Nat.add_zero]

include other

theorem filter_liked_withLikeAt :
    (liked (s.withLikeAt place like)).filter (fun q => q.id ≠ p.id) =
      (liked s).filter fun q => q.id ≠ p.id := by
  rw [liked, liked, List.filter_filter, List.filter_filter]
  refine List.filter_congr fun q _ => ?_
  by_cases hne : q.id = p.id
  · simp [hne]
  · have hproduct : like.product ≠ q.id := fun h => hne (h.symm.trans hlike)
    simp [Snapshot.knows_withLikeAt other, Snapshot.allLikes_withLikeAt_perm.mem_iff, hproduct]

theorem filter_ranking_withLikeAt :
    (ranking (s.withLikeAt place like)).filter (fun q => q.id ≠ p.id) =
      (ranking s).filter fun q => q.id ≠ p.id := by
  rw [ranking, ranking, filter_mergeSort moreLiked_trans moreLiked_total,
    filter_mergeSort moreLiked_trans moreLiked_total, filter_liked_withLikeAt other hlike]
  -- of the others, both rankings have the same numbers of likes
  have hsame := List.map_mergeSort (f := id) (r := moreLiked (s.withLikeAt place like))
    (s := moreLiked s) (l := (liked s).filter fun q => q.id ≠ p.id) fun a ha b hb => by
      have ha : a.id ≠ p.id := by simpa using (List.mem_filter.1 ha).2
      have hb : b.id ≠ p.id := by simpa using (List.mem_filter.1 hb).2
      simp only [moreLiked, likeCount_of_ne hlike ha, likeCount_of_ne hlike hb, id]
  rwa [List.map_id, List.map_id] at hsame

/-- With the like, fewer entries outrank the product, or as many. -/
theorem idxOf_ranking_withLikeAt (distinct : (s.catalog.map (·.id)).Nodup)
    (hp : p ∈ ranking (s.withLikeAt place like)) :
    (ranking (s.withLikeAt place like)).idxOf p ≤ (ranking s).idxOf p := by
  have houtranks : ∀ q ∈ ranking (s.withLikeAt place like),
      outranks (s.withLikeAt place like) q p = true →
        (outranks s q p && q.id ≠ p.id) = true := by
    intro q _ hq
    rw [outranks_iff, likeCount_self hlike] at hq
    have hne : q.id ≠ p.id := by
      intro hid
      rw [hid, likeCount_self hlike] at hq
      rcases hq with hq | ⟨-, hq⟩
      · omega
      · exact Int64.lt_irrefl hq
    rw [likeCount_of_ne hlike hne] at hq
    have hbetter : outranks s q p = true := outranks_iff.2 (by omega)
    simp [hbetter, hne]
  calc (ranking (s.withLikeAt place like)).idxOf p
      _ ≤ (ranking (s.withLikeAt place like)).countP fun q => outranks s q p && q.id ≠ p.id := by
        rw [idxOf_ranking (s := s.withLikeAt place like) distinct hp]
        exact List.countP_mono_left houtranks
      _ = ((ranking s).filter fun q => q.id ≠ p.id).countP (outranks s · p) := by
        rw [← List.countP_filter, filter_ranking_withLikeAt other hlike]
      _ ≤ (ranking s).countP (outranks s · p) := List.filter_sublist.countP_le
      _ ≤ (ranking s).idxOf p := by
        by_cases hmem : p ∈ ranking s
        · exact (idxOf_ranking distinct hmem).ge
        · rw [List.idxOf_eq_length hmem]
          exact List.countP_le_length

end

/-! ### The shortlist -/

/-- Within the size of the catalog nothing is cut off. -/
theorem shortlist_eq_of_le (few : s.allLikes.length < 2 ^ 53) (h : s.catalog.length ≤ limit) :
    shortlist s limit = .ofEntries ((ranking s).map (entry s)) := by
  have hlength : (ranking s).length ≤ limit := by
    rw [ranking, List.length_mergeSort]
    exact (List.length_filter_le _ _).trans h
  rw [shortlist_eq_ranking few, List.take_of_length_le hlength]

theorem products_ofEntries (entries : List (Product Binary64)) :
    (Shortlist.ofEntries (entries.map (entry s))).products = entries := by
  simp [Shortlist.ofEntries, entry, Function.comp_def]

theorem raised_withLikeAt (few : s.allLikes.length + 1 < 2 ^ 53)
    (distinct : (s.catalog.map (·.id)).Nodup) (hp : p ∈ s.catalog) (hnew : ¬ s.Knows p.id)
    {place : Nat} {like : Like} (other : like.user ≠ s.user) (hlike : like.product = p.id)
    (hlimit : s.catalog.length ≤ limit) :
    Raised p (shortlist s limit) (shortlist (s.withLikeAt place like) limit) := by
  have few₀ : s.allLikes.length < 2 ^ 53 := by omega
  have few₁ : (s.withLikeAt place like).allLikes.length < 2 ^ 53 := by
    rwa [Snapshot.length_allLikes_withLikeAt]
  have hranked : p ∈ ranking (s.withLikeAt place like) := by
    rw [ranking, List.mem_mergeSort, mem_liked, Snapshot.knows_withLikeAt other]
    exact ⟨hp, hnew, like, by simp [Snapshot.allLikes_withLikeAt_perm.mem_iff], hlike⟩
  rw [shortlist_eq_of_le few₀ hlimit, shortlist_eq_of_le few₁ hlimit]
  constructor
  · -- the others keep their places by the ranking, and their scores by their numbers of likes
    rw [Shortlist.entries_ofEntries, Shortlist.entries_ofEntries, List.filter_map, List.filter_map]
    show ((ranking (s.withLikeAt place like)).filter fun q => q.id ≠ p.id).map _ =
      ((ranking s).filter fun q => q.id ≠ p.id).map _
    rw [filter_ranking_withLikeAt other hlike]
    refine List.map_congr_left fun q hq => ?_
    have hne : q.id ≠ p.id := by simpa using (List.mem_filter.1 hq).2
    rw [entry, entry, likeCount_of_ne hlike hne]
  · have hcount := likeCount_lt few₁ p.id
    refine ⟨Scalar.ofNat (s.likeCount p.id + 1), ?_, ?_⟩
    · rw [Shortlist.entries_ofEntries, List.mem_map]
      exact ⟨p, hranked, by rw [entry, likeCount_self hlike]⟩
    · intro x hx
      rw [Shortlist.entries_ofEntries, List.mem_map] at hx
      obtain ⟨q, -, hq⟩ := hx
      obtain ⟨rfl, rfl⟩ := Prod.mk.inj hq
      rw [likeCount_self hlike] at hcount
      rw [Binary64.toRat_ofNat hcount, Binary64.toRat_ofNat (by omega)]
      push_cast
      rfl
  · rw [products_ofEntries, products_ofEntries]
    exact idxOf_ranking_withLikeAt other hlike distinct hranked

/-- **What many users like, by their numbers.** With fewer likes than a counter of 32 bits can hold,
the shortlist holds the first of the liked entries that are new to the user, by their numbers of
likes, and a score is exactly this number. One more like of another user on a new product does
nothing for the other products; it raises the score of its own by one and never moves it back. -/
theorem shortlist_ranks_likes (s : Snapshot Binary64) (few : s.allLikes.length < 2 ^ 32 - 1) :
    (∀ limit list, IsShortlist s limit list ↔ list = shortlist s limit) ∧
    (∀ id, (Scalar.ofNat (s.likeCount id) : Binary64).toRat = s.likeCount id) ∧
    ∀ (like : Like) (place limit : Nat), (s.catalog.map (·.id)).Nodup → s.catalog.length ≤ limit →
      ∀ p ∈ s.catalog, ¬ s.Knows p.id → like.user ≠ s.user → like.product = p.id →
        Raised p (shortlist s limit) (shortlist (s.withLikeAt place like) limit) := by
  refine ⟨?_, ?_, ?_⟩
  · intro limit list
    exact isShortlist_iff (by omega)
  · intro id
    exact Binary64.toRat_ofNat (likeCount_lt (by omega) id)
  · intro like place limit distinct hlimit p hp hnew other hlike
    exact raised_withLikeAt (by omega) distinct hp hnew other hlike hlimit

end Popularity

namespace Shop

/-- Someone likes the lamp. -/
def lampLike (user : UserId) : Like :=
  ⟨user, 4, noon⟩

/-- The shop with a like on the lamp. -/
def lampLiked : Snapshot Binary64 :=
  snapshot.withLikeAt 1 (lampLike 2)

end Shop

namespace Popularity

/-- A second like on the lamp raises it over a book with one like. -/
theorem shortlist_ranks_likes_lamp :
    Shop.lampLiked.allLikes.length < 2 ^ 32 - 1 ∧ (Shop.lampLiked.catalog.map (·.id)).Nodup ∧
    Shop.lampLiked.catalog.length ≤ 5 ∧ Shop.product 4 "lamp" ∈ Shop.lampLiked.catalog ∧
    ¬ Shop.lampLiked.Knows 4 ∧ (3 : UserId) ≠ Shop.lampLiked.user ∧
    candidates Shop.lampLiked = [(Shop.product 2 "book", 1.0), (Shop.product 4 "lamp", 1.0)] ∧
    candidates (Shop.lampLiked.withLikeAt 0 (Shop.lampLike 3)) =
      [(Shop.product 2 "book", 1.0), (Shop.product 4 "lamp", 2.0)] ∧
    Raised (Shop.product 4 "lamp") (shortlist Shop.lampLiked 5)
      (shortlist (Shop.lampLiked.withLikeAt 0 (Shop.lampLike 3)) 5) := by
  have few : Shop.lampLiked.allLikes.length < 2 ^ 32 - 1 := by decide
  have distinct : (Shop.lampLiked.catalog.map (·.id)).Nodup := by decide +kernel
  have hlimit : Shop.lampLiked.catalog.length ≤ 5 := by decide
  have hp : Shop.product 4 "lamp" ∈ Shop.lampLiked.catalog := by decide +kernel
  have hnew : ¬ Shop.lampLiked.Knows 4 := by decide +kernel
  have other : (3 : UserId) ≠ Shop.lampLiked.user := by decide
  obtain ⟨-, -, hraised⟩ := shortlist_ranks_likes Shop.lampLiked few
  exact ⟨few, distinct, hlimit, hp, hnew, other, by decide +kernel, by decide +kernel,
    hraised (Shop.lampLike 3) 0 5 distinct hlimit _ hp hnew other rfl⟩

end Popularity

end Recommender
