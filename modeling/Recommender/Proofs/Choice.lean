import Recommender.Proofs.Answer
import Recommender.Proofs.Neighbours
import Recommender.Proofs.Taste

/-!
# Which strategy answers

The strategy that answers and the number of its recommendations, read off the snapshot: every way
in which a strategy gives up early is a way to have nothing to recommend.

* `Strategy.Fits` : what a strategy asks of an unseen product.
* `Strategy.supply` : how many products a strategy could recommend, without any limit.
* `Strategy.length_candidates` : this is the number of its candidates.
* `answering?_eq` : the strategy that answers is the first one that some unseen product fits.
* `recommend_chooses` : what this means for an answer.
-/

namespace Recommender

/-! ### Fitting products -/

namespace Strategy

section

variable {α : Type} [Scalar α] (s : Snapshot α) (w : Weights α)

/-- What a strategy asks of an unseen product: a like by a neighbour, a preferred category, a like
by anyone, or nothing. -/
def Fits : Strategy → Product α → Prop
  | collaborative, p => Neighbours.Suggested s w p.id
  | contentBased, p => Taste.Preferred s w p.category
  | popularity, p => ∃ l ∈ s.allLikes, l.product = p.id
  | random, _ => True

instance (strategy : Strategy) : DecidablePred (strategy.Fits s w) := fun p =>
  match strategy with
  | collaborative => inferInstanceAs (Decidable (Neighbours.Suggested s w p.id))
  | contentBased => inferInstanceAs (Decidable (Taste.Preferred s w p.category))
  | popularity => inferInstanceAs (Decidable (∃ l ∈ s.allLikes, _))
  | random => inferInstanceAs (Decidable True)

/-- Some product that the user does not know fits the strategy. -/
def Applies (strategy : Strategy) : Prop :=
  ∃ p ∈ s.catalog, ¬ s.Knows p.id ∧ strategy.Fits s w p

instance : DecidablePred (Applies s w) :=
  fun _ => inferInstanceAs (Decidable (∃ p ∈ s.catalog, _))

/-- The identifiers of the fitting products, as often as the catalog has them. -/
def fittingIds (strategy : Strategy) : List ProductId :=
  (s.catalog.filter fun p => ¬ s.Knows p.id ∧ strategy.Fits s w p).map (·.id)

/-- How many products a strategy could recommend. The one that collects votes by identifier knows a
repeated entry of the catalog only once. -/
def supply (strategy : Strategy) : Nat :=
  match strategy with
  | collaborative => (fittingIds s w collaborative).eraseDups.length
  | other => (fittingIds s w other).length

end

variable {α : Type} [Scalar α] {s : Snapshot α} {w : Weights α}

theorem fittingIds_eq (strategy : Strategy) :
    fittingIds s w strategy = (s.unseen.filter fun p => strategy.Fits s w p).map (·.id) := by
  simp [fittingIds, Snapshot.unseen_eq, List.filter_filter, Bool.and_comm]

theorem fittingIds_ne_nil_iff {strategy : Strategy} :
    fittingIds s w strategy ≠ [] ↔ strategy.Applies s w := by
  simp [fittingIds, Applies]

theorem supply_of_ne {strategy : Strategy} (h : strategy ≠ collaborative) :
    strategy.supply s w = (fittingIds s w strategy).length := by
  cases strategy with
  | collaborative => exact absurd rfl h
  | _ => rfl

theorem supply_pos_iff {strategy : Strategy} :
    0 < strategy.supply s w ↔ strategy.Applies s w := by
  rw [← fittingIds_ne_nil_iff]
  by_cases h : strategy = collaborative
  · subst h
    rw [supply, List.length_pos_iff, not_iff_not]
    simp only [List.eq_nil_iff_forall_not_mem, List.mem_eraseDups]
  · rw [supply_of_ne h, List.length_pos_iff]

variable [LawfulScalar α]

/-- Without the bookkeeping of votes, the candidates are the fitting products themselves. -/
theorem products_candidates_eq {strategy : Strategy} (h : strategy ≠ collaborative) :
    (strategy.candidates s w).map (·.1) = s.unseen.filter fun p => strategy.Fits s w p := by
  cases strategy with
  | collaborative => exact absurd rfl h
  | contentBased => exact Taste.products_candidates_eq
  | popularity =>
    rw [candidates, Popularity.products_candidates]
    apply List.filter_congr
    intro p _
    rw [decide_eq_decide, Snapshot.likeCount, List.countP_pos_iff]
    simp [Fits]
  | random =>
    have hall : (s.unseen.filter fun p => random.Fits s w p) = s.unseen :=
      List.filter_eq_self.2 fun p _ => decide_eq_true trivial
    simp [candidates, hall, Function.comp_def]

/-- A strategy has as many candidates as it has products to recommend. -/
theorem length_candidates (strategy : Strategy) :
    (strategy.candidates s w).length = strategy.supply s w := by
  by_cases h : strategy = collaborative
  · subst h
    have hlen := (Neighbours.ids_candidates_perm (s := s) (w := w)).length_eq
    rw [List.length_map] at hlen
    rw [hlen, supply, fittingIds_eq]
    rfl
  · have hlen := congrArg List.length (products_candidates_eq (s := s) (w := w) h)
    rw [List.length_map] at hlen
    rw [hlen, supply_of_ne h, fittingIds_eq, List.length_map]

theorem candidates_ne_nil_iff {strategy : Strategy} :
    strategy.candidates s w ≠ [] ↔ strategy.Applies s w := by
  rw [← supply_pos_iff, ← length_candidates, List.length_pos_iff]

end Strategy

/-! ### The choice -/

/-- The strategy answers with at least one recommendation, and all recommendations name it. -/
def AnsweredBy {α : Type} (answer : List (Recommendation α)) (strategy : Strategy) : Prop :=
  answer ≠ [] ∧ ∀ r ∈ answer, r.strategy = strategy

variable {α σ : Type} [Scalar α] [IndexSource σ] {s : Snapshot α} {w : Weights α}
  {requested : Int64} {source : σ}

theorem answeredBy_iff {strategy : Strategy} :
    AnsweredBy (recommend s w requested source).1 strategy ↔ answering? s w = some strategy := by
  constructor
  · rintro ⟨hne, hall⟩
    obtain ⟨r, hr⟩ := List.exists_mem_of_ne_nil _ hne
    rw [(mem_recommend hr).1, hall r hr]
  · intro h
    constructor
    · intro hnil
      simp [recommend_eq_nil_iff_answering.1 hnil] at h
    · intro r hr
      exact strategy_of_mem_recommend h hr

variable [LawfulScalar α]

/-- The first strategy that applies is the one that answers. -/
theorem answering?_eq :
    answering? s w =
      if Strategy.collaborative.Applies s w then some .collaborative
      else if Strategy.contentBased.Applies s w then some .contentBased
      else if Strategy.popularity.Applies s w then some .popularity
      else if Strategy.random.Applies s w then some .random
      else none := by
  have happlies (strategy : Strategy) :
      (!(strategy.candidates s w).isEmpty) = decide (strategy.Applies s w) := by
    rw [Bool.eq_iff_iff, decide_eq_true_eq, ← Strategy.candidates_ne_nil_iff]
    simp
  simp only [answering?, firstWithCandidate, Strategy.chain, List.find?_cons, List.find?_nil,
    happlies]
  split_ifs <;> simp [*]

theorem answering?_eq_none_iff_applies :
    answering? s w = none ↔ ∀ strategy : Strategy, ¬ strategy.Applies s w := by
  have hchain (strategy : Strategy) : strategy ∈ Strategy.chain := by cases strategy <;> decide
  simp only [answering?, firstWithCandidate, List.find?_eq_none, ← Strategy.candidates_ne_nil_iff]
  constructor
  · intro h strategy
    simpa using h strategy (hchain strategy)
  · intro h strategy _
    simpa using h strategy

/-- **Which strategy answers, and with how much**: the first one that some product new to the user
fits, with all that it has to recommend or as much as the limit admits. Neither the limit nor chance
has a part in the choice. -/
theorem recommend_chooses (s : Snapshot Binary64) (w : Weights Binary64) (requested : Int64)
    (source : σ) :
    let answer := (recommend s w requested source).1
    (AnsweredBy answer .collaborative ↔ Strategy.collaborative.Applies s w) ∧
    (AnsweredBy answer .contentBased ↔
      ¬ Strategy.collaborative.Applies s w ∧ Strategy.contentBased.Applies s w) ∧
    (AnsweredBy answer .popularity ↔
      ¬ Strategy.collaborative.Applies s w ∧ ¬ Strategy.contentBased.Applies s w ∧
        Strategy.popularity.Applies s w) ∧
    (AnsweredBy answer .random ↔
      ¬ Strategy.collaborative.Applies s w ∧ ¬ Strategy.contentBased.Applies s w ∧
        ¬ Strategy.popularity.Applies s w ∧ Strategy.random.Applies s w) ∧
    (answer = [] ↔ ∀ strategy : Strategy, ¬ strategy.Applies s w) ∧
    (answer = [] ↔ ∀ p ∈ s.catalog, s.Knows p.id) ∧
    (∀ {τ : Type} [IndexSource τ] (requested' : Int64) (source' : τ) (strategy : Strategy),
      AnsweredBy (recommend s w requested' source').1 strategy ↔ AnsweredBy answer strategy) ∧
    ∀ strategy : Strategy, AnsweredBy answer strategy →
      answer.length = min (effectiveLimit requested) (strategy.supply s w) := by
  refine ⟨?_, ?_, ?_, ?_, ?_, recommend_eq_nil_iff, ?_, ?_⟩
  · rw [answeredBy_iff, answering?_eq]
    split_ifs <;> simp [*]
  · rw [answeredBy_iff, answering?_eq]
    split_ifs <;> simp [*]
  · rw [answeredBy_iff, answering?_eq]
    split_ifs <;> simp [*]
  · rw [answeredBy_iff, answering?_eq]
    split_ifs <;> simp [*]
  · exact recommend_eq_nil_iff_answering.trans answering?_eq_none_iff_applies
  · intro τ _ requested' source' strategy
    rw [answeredBy_iff, answeredBy_iff]
  · intro strategy h
    rw [recommend_of_answering (answeredBy_iff.1 h), length_answer, Strategy.length_candidates]

end Recommender
