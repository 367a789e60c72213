import Recommender.Proofs.Choice

/-!
# The order of the catalog

A catalog without repeated identifiers may be listed in any order: the strategies that compute
scores make the same rankings of it, and the same strategy answers. Only chance follows the order of
the catalog, and it too picks as many products from the same ones.

* `Snapshot.withCatalog` : a snapshot with another catalog.
* `Strategy.candidates_withCatalog_perm` : each strategy has the same candidates.
* `Strategy.ranking_withCatalog` : all strategies but chance put them into the same order.
* `recommend_withCatalog` : what this means for an answer.
-/

namespace Recommender

variable {α σ τ : Type} {s : Snapshot α} {w : Weights α} {catalog : List (Product α)}

namespace Snapshot

/-- The snapshot with another catalog. -/
def withCatalog (s : Snapshot α) (catalog : List (Product α)) : Snapshot α :=
  { s with catalog }

theorem unseen_withCatalog_perm (perm : s.catalog.Perm catalog) :
    (s.withCatalog catalog).unseen.Perm s.unseen :=
  perm.symm.filter _

theorem product?_withCatalog (distinct : (s.catalog.map (·.id)).Nodup)
    (perm : s.catalog.Perm catalog) : (s.withCatalog catalog).product? = s.product? := by
  have distinct' : ((s.withCatalog catalog).catalog.map (·.id)).Nodup :=
    (perm.map _).nodup_iff.1 distinct
  funext id
  ext p
  rw [product?_eq_some_iff distinct, product?_eq_some_iff distinct']
  exact and_congr_left fun _ => perm.symm.mem_iff

end Snapshot

/-! ### Candidates and rankings -/

theorem Taste.history_withCatalog (distinct : (s.catalog.map (·.id)).Nodup)
    (perm : s.catalog.Perm catalog) : history (s.withCatalog catalog) w = history s w := by
  rw [history, history, Snapshot.product?_withCatalog distinct perm]
  rfl

variable [Scalar α]

namespace Strategy

theorem candidates_withCatalog_perm (distinct : (s.catalog.map (·.id)).Nodup)
    (perm : s.catalog.Perm catalog) (strategy : Strategy) :
    (strategy.candidates (s.withCatalog catalog) w).Perm (strategy.candidates s w) := by
  have hunseen := s.unseen_withCatalog_perm perm
  cases strategy with
  | collaborative =>
    rw [candidates, Neighbours.candidates, Snapshot.product?_withCatalog distinct perm]
    exact .refl _
  | contentBased =>
    simp only [candidates, Taste.candidates, Taste.history_withCatalog distinct perm]
    split_ifs
    · exact .refl _
    · exact hunseen.filterMap _
  | popularity => exact (hunseen.filter _).map _
  | random => exact hunseen.map _

/-- All strategies but chance put the same candidates into the same order. -/
theorem ranking_withCatalog [LawfulScalar α] [IndexSource σ] [IndexSource τ]
    (distinct : (s.catalog.map (·.id)).Nodup) (perm : s.catalog.Perm catalog) {strategy : Strategy}
    (h : strategy ≠ random) (source : σ) (source' : τ) :
    (strategy.ranking s w source).1 = (strategy.ranking (s.withCatalog catalog) w source').1 := by
  have hsorted := Ranking.mergeSort_eq_of_perm (nodup_candidates (w := w) distinct strategy)
    (candidates_withCatalog_perm distinct perm strategy).symm
  cases strategy with
  | random => exact absurd rfl h
  | _ => exact hsorted

end Strategy

theorem answering?_withCatalog (distinct : (s.catalog.map (·.id)).Nodup)
    (perm : s.catalog.Perm catalog) : answering? s w = answering? (s.withCatalog catalog) w :=
  answering?_congr fun strategy =>
    (strategy.candidates_withCatalog_perm distinct perm).symm.isEmpty_eq

/-- **The order of the catalog does not matter except to chance.** If the catalog repeats no
identifier, all other strategies pick the same products with the same scores in the same order, and
the same strategy answers, so that the recommendations are the same. If chance answers, it gives as
many recommendations, of products from the same unseen ones. -/
theorem recommend_withCatalog [IndexSource σ] [IndexSource τ] (s : Snapshot Binary64)
    (w : Weights Binary64) (catalog : List (Product Binary64))
    (distinct : (s.catalog.map (·.id)).Nodup) (perm : s.catalog.Perm catalog) (source : σ)
    (source' : τ) :
    (∀ strategy ≠ Strategy.random, ∀ limit : Nat,
      (strategy.shortlist s w limit source).1 =
        (strategy.shortlist (s.withCatalog catalog) w limit source').1) ∧
    ∀ requested : Int64,
      let answer := (recommend s w requested source).1
      let answer' := (recommend (s.withCatalog catalog) w requested source').1
      (∀ strategy, AnsweredBy answer strategy ↔ AnsweredBy answer' strategy) ∧
      (¬ AnsweredBy answer .random → answer = answer') ∧
      (AnsweredBy answer .random → answer.length = answer'.length ∧
        ∀ r ∈ answer ++ answer', r.product ∈ s.catalog ∧ ¬ s.Knows r.product.id) := by
  have hanswering := answering?_withCatalog (w := w) distinct perm
  constructor
  · intro strategy hne limit
    rw [Strategy.shortlist_eq, Strategy.shortlist_eq,
      Strategy.ranking_withCatalog distinct perm hne source source']
  · intro requested
    refine ⟨?_, ?_, ?_⟩
    · intro strategy
      rw [answeredBy_iff, answeredBy_iff, hanswering]
    · intro hnot
      refine recommend_fst_congr hanswering ?_
      intro strategy h
      have hne : strategy ≠ .random := by
        rintro rfl
        exact hnot (answeredBy_iff.2 h)
      exact Strategy.ranking_withCatalog distinct perm hne source source'
    · intro hrandom
      have h := answeredBy_iff.1 hrandom
      constructor
      · rw [recommend_of_answering h, recommend_of_answering (hanswering ▸ h), length_answer,
          length_answer,
          (Strategy.random.candidates_withCatalog_perm (w := w) distinct perm).length_eq]
      · intro r hr
        rw [← Snapshot.mem_unseen]
        rcases List.mem_append.1 hr with hr | hr
        · exact products_recommend_subset (List.mem_map_of_mem hr)
        · exact (s.unseen_withCatalog_perm perm).subset
            (products_recommend_subset (List.mem_map_of_mem hr))

/-- The busy shop with its products listed backwards recommends the same to the first user: the
product that two others like, and then what one of them likes, by identifier. -/
theorem recommend_withCatalog_shop :
    (Shop.busy.catalog.map (·.id)).Nodup ∧ Shop.busy.catalog.Perm Shop.products.reverse ∧
    ¬ AnsweredBy (recommend Shop.busy .standard 3 (Generator.tape [])).1 .random ∧
    (recommend Shop.busy .standard 3 (Generator.tape [])).1 =
      [⟨Shop.product 3 "book", 2.0, .collaborative⟩, ⟨Shop.product 2 "book", 1.0, .collaborative⟩,
        ⟨Shop.product 4 "lamp", 1.0, .collaborative⟩] ∧
    (recommend Shop.busy .standard 3 (Generator.tape [])).1 =
      (recommend (Shop.busy.withCatalog Shop.products.reverse) .standard 3
        (Generator.tape [8])).1 := by
  have distinct : (Shop.busy.catalog.map (·.id)).Nodup := by decide
  have perm : Shop.busy.catalog.Perm Shop.products.reverse := (List.reverse_perm _).symm
  have hnot : ¬ AnsweredBy (recommend Shop.busy .standard 3 (Generator.tape [])).1 .random := by
    rw [answeredBy_iff, Shop.answering_busy]
    decide
  have hranking : [(Shop.product 3 "book", 2.0), (Shop.product 2 "book", 1.0),
      (Shop.product 4 "lamp", 1.0)] =
        (Strategy.collaborative.ranking Shop.busy .standard (Generator.tape [])).1 := by
    show _ = (Strategy.collaborative.candidates Shop.busy .standard).mergeSort _
    rw [Shop.candidates_busy]
    exact Ranking.sorts_iff.1 <| sorts_of_perm Ranking.before_trans (by decide +kernel)
      (by decide +kernel) (by decide +kernel)
  obtain ⟨-, hanswers⟩ := recommend_withCatalog Shop.busy .standard Shop.products.reverse
    distinct perm (Generator.tape []) (Generator.tape [8])
  obtain ⟨-, hsame, -⟩ := hanswers 3
  refine ⟨distinct, perm, hnot, ?_, hsame hnot⟩
  rw [recommend_of_answering Shop.answering_busy, Strategy.answer, ← hranking]
  rfl

end Recommender
