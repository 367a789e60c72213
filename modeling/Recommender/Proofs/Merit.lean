import Recommender.Proofs.Answer
import Recommender.Proofs.Taste

/-!
# Merits, declaratively

What a user's taste comes to recommend, said without the bookkeeping of a strategy: every unseen
entry of a preferred category has a merit, and the entries with the highest merits are kept.

* `Taste.references` : the entries that stand for what was liked and then for what was bought.
* `Taste.merit` : the preference for the category, and bonuses for age, likes and price.
* `Taste.IsShortlist` : a list holds the first entries by merit.
* `Taste.isShortlist_iff` : this is the shortlist of the strategy.
* `Taste.shortlist_ranks_merits` : the same for floating point numbers, with what likes and entries
  are counted for the references.
-/

namespace Recommender

namespace Taste

/-! ### Merits -/

section

variable {α : Type} [Scalar α] (s : Snapshot α) (w : Weights α)

omit [Scalar α] in
/-- The entries that stand for what the user liked, each once, and then for what stands on the lines
of the user's orders. -/
def references : List (Product α) :=
  (s.liked ++ s.purchased).filterMap s.product?

/-- The average price of the references, if there are any. -/
def referencePrice : Option α :=
  if (references s).isEmpty then none
  else some (Scalar.sum ((references s).map (·.price)) / Scalar.ofNat (references s).length)

/-- The age of an entry in days, of whole seconds and not below zero. -/
def age (p : Product α) : α :=
  Scalar.ofNat (max 0 ((s.now.nanosSince p.createdAt).tdiv 1000000000)).toNat / Scalar.ofNat 86400

/-- The bonus for a price, which has a part only if the references have an average price other than
zero. -/
def priceMerit (price : α) : α :=
  match referencePrice s with
  | none => Scalar.ofNat 0
  | some average =>
    if average == Scalar.ofNat 0 then Scalar.ofNat 0
    else
      Scalar.nonneg
        (Scalar.ofNat 1 - Scalar.distance price average / average / Scalar.ofNat 2) * w.price

/-- What an entry earns by its category, its age, its likes and its price. -/
def merit (p : Product α) : α :=
  inclination s w p.category +
    Scalar.ofNat 1 / (Scalar.ofNat 1 + age s p / w.recencyScaleDays) * w.recency +
    Scalar.ofNat (s.allLikes.countP fun l => l.product = p.id) * w.popularity +
    priceMerit s w p.price

/-- The unseen entries of preferred categories with their merits, in the order of the catalog. -/
def merits : List (Product α × α) :=
  (s.catalog.filter fun p => ¬ s.Knows p.id ∧ Preferred s w p.category).map fun p =>
    (p, merit s w p)

/-- A shortlist holds the first entries by merit; ties stay in the order of the catalog. -/
def IsShortlist (limit : Nat) (list : Shortlist α) : Prop :=
  ∃ ranking, Sorts (Ranking.before Product.id) (merits s w) ranking ∧
    list = .ofEntries (ranking.take limit)

end

/-! ### The bookkeeping of tastes -/

section

variable {α : Type} {s : Snapshot α} {w : Weights α}

theorem products_history : (history s w).map (·.1) = references s := by
  simp [history_eq, references, List.filterMap_append, Function.comp_def]

variable [Scalar α]

theorem averagePrice_history : averagePrice (history s w) = referencePrice s := by
  have hprices : (history s w).map (·.1.price) = (references s).map (·.price) := by
    rw [← products_history (w := w), List.map_map]
    rfl
  have hlength : (history s w).length = (references s).length := by
    rw [← products_history (w := w), List.length_map]
  have hempty : (history s w).isEmpty = (references s).isEmpty := by
    rw [← products_history (w := w), List.isEmpty_map]
  rw [averagePrice, hprices, hlength, hempty, referencePrice]

theorem ageInDays_eq (p : Product α) : p.ageInDays s.now = age s p := by
  have hseconds : s.now.secondsSince p.createdAt =
      (max 0 ((s.now.nanosSince p.createdAt).tdiv 1000000000)).toNat := by
    rw [Instant.secondsSince]
    rcases Int.le_total 0 (s.now.nanosSince p.createdAt) with h | h
    · rw [Int.tdiv_eq_ediv_of_nonneg h]
      omega
    · -- toward zero and to the floor differ below zero, which is cut off
      have hneg : 0 ≤ (-s.now.nanosSince p.createdAt).tdiv 1000000000 :=
        Int.tdiv_nonneg (Int.neg_nonneg_of_nonpos h) (by decide)
      rw [Int.neg_tdiv] at hneg
      omega
  rw [Product.ageInDays, hseconds, age]

theorem score_eq_merit (p : Product α) :
    score s w (averagePrice (history s w)) (preference (history s w) p.category) p =
      merit s w p := by
  have hprice : ((referencePrice s).map (priceBonus w · p.price)).getD (Scalar.ofNat 0) =
      priceMerit s w p.price := by
    rw [priceMerit]
    cases referencePrice s <;> rfl
  rw [score, averagePrice_history, hprice, preference_history, recencyBonus, ageInDays_eq,
    popularityBonus, Snapshot.likeCount, merit]

/-- The strategy makes candidates of the unseen entries of preferred categories. -/
theorem candidates_eq_merits [LawfulScalar α] :
    Strategy.contentBased.candidates s w = merits s w := by
  have hscored : ∀ e ∈ Strategy.contentBased.candidates s w, e = (e.1, merit s w e.1) := by
    intro e he
    exact Prod.ext rfl ((score_of_mem_candidates he).2.trans (score_eq_merit e.1))
  have hunseen : (s.catalog.filter fun p => ¬ s.Knows p.id ∧ Preferred s w p.category) =
      s.unseen.filter fun p => Preferred s w p.category := by
    simp [Snapshot.unseen_eq, List.filter_filter, Bool.and_comm]
  rw [merits, hunseen, ← products_candidates_eq, List.map_map]
  exact (List.map_id _).symm.trans (List.map_congr_left hscored)

/-- The strategy ranks the merits. -/
theorem isShortlist_iff [LawfulScalar α] {limit : Nat} {list : Shortlist α} :
    IsShortlist s w limit list ↔ list = shortlist s w limit := by
  simp only [IsShortlist, Ranking.sorts_iff, exists_eq_left, shortlist_eq, candidates_eq_merits]
  rfl

end

/-- **What resembles the user's taste, without the bookkeeping.** On all floating point numbers the
shortlist holds the first of the merits, in order and with ties as the catalog has them. What is
liked is counted once, where it is liked first, by the user's own rows of either list; what is
bought is counted once for each line of the user's own orders, whatever its quantity; and a
reference is the last entry that the catalog has for it. Counters of 32 bits hold the numbers of
fewer than `UInt32.size` likes. -/
theorem shortlist_ranks_merits (s : Snapshot Binary64) (w : Weights Binary64) :
    let rows := ((s.userLikes ++ s.allLikes).filter (·.user = s.user)).map (·.product)
    (∀ limit list, IsShortlist s w limit list ↔ list = shortlist s w limit) ∧
    (∀ id, id ∈ s.liked ↔ id ∈ rows) ∧
    s.liked.Pairwise (fun a b => rows.idxOf a < rows.idxOf b) ∧
    s.purchased = ((s.userOrders.filter (·.user = s.user)).flatMap (·.items)).map (·.product) ∧
    (∀ id p, s.product? id = some p ↔ s.Stands p ∧ p.id = id) ∧
    (s.allLikes.length < UInt32.size →
      ∀ id, (s.likeCounts.lookup id).getD 0 = s.allLikes.countP fun l => l.product = id) := by
  refine ⟨fun _ _ => isShortlist_iff, ?_, pairwise_idxOf_eraseDups _, ?_, ?_, ?_⟩
  · intro id
    exact List.mem_eraseDups
  · rw [List.map_flatMap]
    rfl
  · intro id p
    exact Snapshot.product?_eq_some_iff_stands
  · exact Snapshot.lookup_likeCounts

end Taste

/-- The first user likes a book and bought lamps twice, by several, and tools. There are other
products of all three categories. -/
def Shop.furnished : Snapshot Binary64 where
  user := 1
  userLikes := [⟨1, 1, Shop.noon⟩]
  userOrders := [⟨1, 1, [⟨4, 3⟩, ⟨5, 2⟩]⟩, ⟨2, 2, [⟨5, 1⟩]⟩, ⟨3, 1, [⟨4, 2⟩]⟩]
  allLikes := Shop.likes
  catalog := Shop.products ++ [Shop.product 6 "tool", Shop.product 7 "lamp"]
  now := Shop.noon

/-- Lamps stand on two lines of the user's orders, so another lamp comes first, before a tool. -/
theorem Taste.shortlist_ranks_merits_furnished :
    Shop.furnished.purchased = [4, 5, 4] ∧
    Shop.furnished.allLikes.length < UInt32.size ∧ (Shop.furnished.likeCounts.lookup 1).getD 0 = 2 ∧
    shortlist Shop.furnished .standard 2 =
      ⟨[Shop.product 7 "lamp", Shop.product 6 "tool"], [4.5, 2.5]⟩ := by
  obtain ⟨hiff, -, -, hpurchased, -, hcounts⟩ := shortlist_ranks_merits Shop.furnished .standard
  have hfew : Shop.furnished.allLikes.length < UInt32.size := by decide
  have hsorts : Sorts (Ranking.before Product.id) (merits Shop.furnished .standard)
      [(Shop.product 7 "lamp", 4.5), (Shop.product 6 "tool", 2.5), (Shop.product 2 "book", 1.8),
        (Shop.product 3 "book", 1.5)] :=
    sorts_of_perm Ranking.before_trans (by decide +kernel) (by decide +kernel) (by decide +kernel)
  refine ⟨?_, hfew, ?_, ((hiff 2 _).1 ⟨_, hsorts, rfl⟩).symm⟩
  · rw [hpurchased]
    decide
  · rw [hcounts hfew]
    decide

end Recommender
