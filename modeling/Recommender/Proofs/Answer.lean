import Recommender.Proofs.Candidates

/-!
# The answer to a user

Trying the strategies in turn comes down to the first one that has a candidate: its ranking, cut at
the limit, is the answer, and all others leave no trace.

* `answering?` : the strategy that answers; it depends neither on the limit nor on chance.
* `recommend_of_answering` : the answer is the beginning of its ranking.
* `recommend_congr` : the answer depends only on the rankings of the strategies.
* `recommend_eq_nil_iff` : the answer is empty if and only if every product is known.
* `recommend_wellFormed` : what is recommended is on offer and new to the user, stays within the
  limit and comes from one strategy, and no product or score is dropped on the way.
-/

namespace Recommender

variable {α : Type}

theorem effectiveLimit_pos (requested : Int64) : 0 < effectiveLimit requested := by
  unfold effectiveLimit
  split_ifs with h
  · decide
  · have : (0 : Int64).toInt < requested.toInt := Int64.lt_iff_toInt_lt.1 (Int64.not_le.1 h)
    exact Int.lt_toNat.2 this

/-- What an entry of a ranking recommends. -/
def Recommendation.ofEntry (strategy : Strategy) (e : Product α × α) : Recommendation α :=
  ⟨e.1, e.2, strategy⟩

/-- The entry of a ranking that a recommendation was made of. -/
def Recommendation.entry (r : Recommendation α) : Product α × α :=
  (r.product, r.score)

@[simp]
theorem Recommendation.entry_ofEntry (strategy : Strategy) (e : Product α × α) :
    (ofEntry strategy e).entry = e := rfl

namespace Shortlist

theorem recommendations_ofEntries (entries : List (Product α × α)) (strategy : Strategy)
    (limit : Nat) : (ofEntries entries).recommendations strategy limit =
      (entries.take limit).map (.ofEntry strategy) := by
  rw [recommendations, ofEntries, List.zip_map', List.map_take, List.map_take]
  simp [Recommendation.ofEntry, ← List.map_take]

theorem isEmpty_ofEntries_take {entries : List (Product α × α)} {limit : Nat} (h : 0 < limit) :
    (ofEntries (entries.take limit)).isEmpty = entries.isEmpty := by
  cases entries with
  | nil => simp [isEmpty, ofEntries]
  | cons e entries =>
    obtain ⟨k, rfl⟩ := Nat.exists_eq_succ_of_ne_zero (Nat.ne_of_gt h)
    simp [isEmpty, ofEntries]

end Shortlist

/-! ### The strategy that answers -/

variable {σ : Type} [Scalar α] [IndexSource σ] {s : Snapshot α} {w : Weights α}
  {requested : Int64} {source : σ}

/-- The first of some strategies that has a candidate. -/
def firstWithCandidate (s : Snapshot α) (w : Weights α) (strategies : List Strategy) :
    Option Strategy :=
  strategies.find? fun strategy => !(strategy.candidates s w).isEmpty

/-- The strategy that answers a user, if one does. -/
def answering? (s : Snapshot α) (w : Weights α) : Option Strategy :=
  firstWithCandidate s w Strategy.chain

/-- The answer that a strategy gives within a limit, and the source of indices after it. -/
def Strategy.answer (strategy : Strategy) (s : Snapshot α) (w : Weights α) (limit : Nat)
    (source : σ) : List (Recommendation α) × σ :=
  (((strategy.ranking s w source).1.take limit).map (.ofEntry strategy),
    (strategy.ranking s w source).2)

/-- Strategies without candidates are passed over and leave the source of indices as it was. -/
theorem firstAnswer_eq {limit : Nat} (hlimit : 0 < limit) (strategies : List Strategy) :
    firstAnswer s w limit strategies source =
      match firstWithCandidate s w strategies with
      | none => ([], source)
      | some strategy => strategy.answer s w limit source := by
  induction strategies with
  | nil => rfl
  | cons strategy others ih =>
    simp only [firstAnswer, firstWithCandidate, List.find?_cons, Strategy.shortlist_eq,
      Shortlist.isEmpty_ofEntries_take hlimit]
    rw [(Strategy.ranking_perm strategy source).isEmpty_eq]
    cases h : strategy.candidates s w with
    | nil =>
      -- nothing was drawn either, so the others start from the same source
      simpa [Strategy.ranking_of_candidates_nil h, firstWithCandidate] using ih
    | cons e rest => simp [Strategy.answer, Shortlist.recommendations_ofEntries, List.take_take]

theorem recommend_of_none (h : answering? s w = none) :
    recommend s w requested source = ([], source) := by
  rw [recommend, firstAnswer_eq (effectiveLimit_pos requested), ← answering?, h]

/-- The answer is the beginning of the ranking of the strategy that answers. -/
theorem recommend_of_answering {strategy : Strategy} (h : answering? s w = some strategy) :
    recommend s w requested source = strategy.answer s w (effectiveLimit requested) source := by
  rw [recommend, firstAnswer_eq (effectiveLimit_pos requested), ← answering?, h]

theorem candidates_ne_nil_of_answering {strategy : Strategy} (h : answering? s w = some strategy) :
    strategy.candidates s w ≠ [] := by
  simpa using List.find?_some h

/-- No strategy answers just if no product is new to the user. -/
theorem answering?_eq_none_iff : answering? s w = none ↔ s.unseen = [] := by
  simp only [answering?, firstWithCandidate, List.find?_eq_none, Bool.not_eq_true,
    Bool.not_eq_false', List.isEmpty_iff]
  constructor
  · -- chance could pick any unseen product, so it has no candidates only if there are none
    intro h
    simpa [Strategy.candidates] using h .random (by decide)
  · intro h strategy _
    rw [List.eq_nil_iff_forall_not_mem]
    intro e he
    have hunseen := Strategy.mem_unseen_of_mem_candidates he
    rw [h] at hunseen
    exact List.not_mem_nil hunseen

/-- A recommendation of an answer is a candidate of the strategy that it names. -/
theorem mem_recommend {r : Recommendation α} (h : r ∈ (recommend s w requested source).1) :
    answering? s w = some r.strategy ∧ (r.product, r.score) ∈ r.strategy.candidates s w := by
  cases hs : answering? s w with
  | none => simp [recommend_of_none hs] at h
  | some strategy =>
    rw [recommend_of_answering hs] at h
    obtain ⟨e, he, rfl⟩ := List.mem_map.1 h
    exact ⟨rfl, (Strategy.ranking_perm strategy source).mem_iff.1 (List.mem_of_mem_take he)⟩

/-- All recommendations of an answer come from the strategy that answers. -/
theorem strategy_of_mem_recommend {strategy : Strategy} {r : Recommendation α}
    (h : answering? s w = some strategy) (hr : r ∈ (recommend s w requested source).1) :
    r.strategy = strategy := by
  have hanswering := (mem_recommend hr).1
  rw [h, Option.some.injEq] at hanswering
  exact hanswering.symm

/-- Which strategy answers depends only on which ones have candidates. -/
theorem answering?_congr {t : Snapshot α}
    (h : ∀ strategy : Strategy,
      (strategy.candidates s w).isEmpty = (strategy.candidates t w).isEmpty) :
    answering? s w = answering? t w := by
  simp only [answering?, firstWithCandidate, h]

/-- Snapshots of which every strategy makes the same ranking get the same answers. -/
theorem recommend_congr {t : Snapshot α}
    (h : ∀ strategy : Strategy, strategy.ranking s w source = strategy.ranking t w source) :
    recommend s w requested source = recommend t w requested source := by
  have hanswering : answering? s w = answering? t w := by
    refine answering?_congr fun strategy => ?_
    rw [← (Strategy.ranking_perm strategy source).isEmpty_eq, h,
      (Strategy.ranking_perm strategy source).isEmpty_eq]
  cases ht : answering? t w with
  | none => rw [recommend_of_none ht, recommend_of_none (hanswering.trans ht)]
  | some strategy =>
    rw [recommend_of_answering ht, recommend_of_answering (hanswering.trans ht), Strategy.answer, h,
      ← Strategy.answer]

/-- The recommendations depend only on the ranking of the strategy that answers. -/
theorem recommend_fst_congr {τ : Type} [IndexSource τ] {source' : τ} {t : Snapshot α}
    (hanswering : answering? s w = answering? t w)
    (hranking : ∀ strategy, answering? s w = some strategy →
      (strategy.ranking s w source).1 = (strategy.ranking t w source').1) :
    (recommend s w requested source).1 = (recommend t w requested source').1 := by
  cases hs : answering? s w with
  | none => rw [recommend_of_none hs, recommend_of_none (hanswering ▸ hs)]
  | some strategy =>
    rw [recommend_of_answering hs, recommend_of_answering (hanswering ▸ hs), Strategy.answer,
      Strategy.answer, hranking strategy hs]

theorem length_answer (strategy : Strategy) (limit : Nat) :
    (strategy.answer s w limit source).1.length = min limit (strategy.candidates s w).length := by
  simp [Strategy.answer, (Strategy.ranking_perm strategy source).length_eq]

theorem recommend_eq_nil_iff_answering :
    (recommend s w requested source).1 = [] ↔ answering? s w = none := by
  cases h : answering? s w with
  | none => simp [recommend_of_none h]
  | some strategy =>
    have hpos := List.length_pos_iff.2 (candidates_ne_nil_of_answering h)
    have hlimit := effectiveLimit_pos requested
    rw [recommend_of_answering h, ← List.length_eq_zero_iff, length_answer]
    simp only [reduceCtorEq, iff_false]
    -- a limit is never zero, so a candidate is left
    omega

theorem recommend_eq_nil_iff :
    (recommend s w requested source).1 = [] ↔ ∀ p ∈ s.catalog, s.Knows p.id := by
  rw [recommend_eq_nil_iff_answering, answering?_eq_none_iff, Snapshot.unseen_eq_nil_iff]

/-! ### What an answer promises -/

theorem length_recommend_le :
    (recommend s w requested source).1.length ≤ effectiveLimit requested := by
  cases h : answering? s w with
  | none => simp [recommend_of_none h]
  | some strategy =>
    rw [recommend_of_answering h, length_answer]
    exact Nat.min_le_left ..

theorem products_recommend_subset {p : Product α}
    (h : p ∈ (recommend s w requested source).1.map (·.product)) : p ∈ s.unseen := by
  obtain ⟨r, hr, rfl⟩ := List.mem_map.1 h
  exact Strategy.mem_unseen_of_mem_candidates (mem_recommend hr).2

/-- If the catalog repeats no identifier, no answer repeats one. -/
theorem nodup_recommend (distinct : (s.catalog.map (·.id)).Nodup) :
    ((recommend s w requested source).1.map (·.product.id)).Nodup := by
  cases h : answering? s w with
  | none => simp [recommend_of_none h]
  | some strategy =>
    have all := (Strategy.ranking_perm strategy source).map (·.1.id) |>.nodup_iff.2
      (Strategy.nodup_candidates (w := w) distinct strategy)
    rw [recommend_of_answering h, Strategy.answer, List.map_map]
    exact all.sublist ((List.take_sublist _ _).map _)

/-- **What is recommended is on offer and new to the user**, stays within the limit and comes from
one strategy. Products and scores of a shortlist match, whatever the limit, so that making
recommendations of them drops none. -/
theorem recommend_wellFormed (s : Snapshot α) (w : Weights α) (requested : Int64) (source : σ) :
    (∀ r ∈ (recommend s w requested source).1, r.product ∈ s.catalog ∧ ¬ s.Knows r.product.id) ∧
    (recommend s w requested source).1.length ≤ effectiveLimit requested ∧
    (∃ strategy, ∀ r ∈ (recommend s w requested source).1, r.strategy = strategy) ∧
    ∀ (strategy : Strategy) (limit : Nat),
      let list := (strategy.shortlist s w limit source).1
      list.products.length = list.scores.length ∧
      (list.recommendations strategy limit).map (·.product) = list.products ∧
      (list.recommendations strategy limit).map (·.score) = list.scores := by
  refine ⟨?_, length_recommend_le, ?_, ?_⟩
  · intro r hr
    exact Snapshot.mem_unseen.1 (products_recommend_subset (List.mem_map_of_mem hr))
  · cases h : answering? s w with
    | none => exact ⟨.random, by simp [recommend_of_none h]⟩
    | some strategy =>
      refine ⟨strategy, ?_⟩
      intro r hr
      exact strategy_of_mem_recommend h hr
  · intro strategy limit
    -- a shortlist pairs what stood together in the ranking, and cutting it again drops nothing
    simp only [Strategy.shortlist_eq, Shortlist.recommendations_ofEntries, List.take_take,
      Nat.min_self]
    simp [Shortlist.ofEntries, Recommendation.ofEntry, Function.comp_def]

/-! ### A small shop -/

namespace Shop

/-- The time of all that happens in the shop. -/
def noon : Instant :=
  ⟨19875, 43200, 0, by decide, by decide, by decide⟩

/-- A product of a category, at one price for all. -/
def product (id : ProductId) (category : String) : Product Binary64 :=
  ⟨id, "", category, 10.0, noon⟩

/-- Three books, a lamp and a tool. -/
def products : List (Product Binary64) :=
  [product 1 "book", product 2 "book", product 3 "book", product 4 "lamp", product 5 "tool"]

/-- Two users like the first book, and the second of them likes one more. -/
def likes : List Like :=
  [⟨1, 1, noon⟩, ⟨2, 1, noon⟩, ⟨2, 2, noon⟩]

/-- What the answer to the first user depends on. -/
def snapshot : Snapshot Binary64 :=
  ⟨1, [], [], likes, products, noon⟩

/-- The first user likes the first book. Two others do, too; both like another book, and each of
them likes one more product. -/
def busyLikes : List Like :=
  [⟨1, 1, noon⟩, ⟨2, 1, noon⟩, ⟨2, 2, noon⟩, ⟨2, 3, noon⟩, ⟨3, 1, noon⟩, ⟨3, 3, noon⟩, ⟨3, 4, noon⟩]

/-- What the answer to the first user depends on, on a busy day. -/
def busy : Snapshot Binary64 :=
  ⟨1, [], [], busyLikes, products, noon⟩

/-- Both others are neighbours, and three products have their votes. -/
theorem candidates_busy : Strategy.collaborative.candidates busy .standard =
    [(product 2 "book", 1.0), (product 3 "book", 2.0), (product 4 "lamp", 1.0)] := by
  have hsorted : [(2, 1.0), (3, 1.0)] =
      (Neighbours.similarities busy .standard).mergeSort (Ranking.before id) :=
    Ranking.sorts_iff.1 <| sorts_of_perm Ranking.before_trans (by decide +kernel)
      (by decide +kernel) (by decide +kernel)
  have hchosen : Neighbours.chosen .standard (Neighbours.similarities busy .standard) =
      [(2, 1.0), (3, 1.0)] := by
    rw [Neighbours.chosen, Ranking.top, ← hsorted]
    rfl
  rw [Strategy.candidates, hchosen]
  decide +kernel

theorem answering_busy : answering? busy .standard = some .collaborative := by
  rw [answering?, Strategy.chain, firstWithCandidate, List.find?_cons_of_pos]
  simp [candidates_busy]

end Shop

example : answering? Shop.snapshot .standard = some .collaborative := by decide +kernel

end Recommender
