import Recommender.Strategy

/-!
# Recommending

The strategies are tried in their order; the first shortlist that is not empty is the answer, and
results of different strategies are never mixed.

* `Strategy.shortlist` : the shortlist of a strategy.
* `effectiveLimit` : how many recommendations a requested limit stands for.
* `recommend` : the answer to a user.
-/

namespace Recommender

variable {α σ : Type} [Scalar α] [IndexSource σ]

/-- The shortlist of a strategy. Only the strategy of chance takes indices from the source. -/
def Strategy.shortlist (strategy : Strategy) (s : Snapshot α) (w : Weights α) (limit : Nat)
    (source : σ) : Shortlist α × σ :=
  match strategy with
  | .collaborative => (Neighbours.shortlist s w limit, source)
  | .contentBased => (Taste.shortlist s w limit, source)
  | .popularity => (Popularity.shortlist s limit, source)
  | .random => Chance.shortlist s w limit source

/-- How many recommendations are given to a request that sets no limit of its own. -/
def defaultLimit : Nat := 10

/-- How many recommendations a requested limit stands for; one that is not positive sets no limit.
-/
def effectiveLimit (requested : Int64) : Nat :=
  if requested ≤ 0 then defaultLimit else requested.toNatClampNeg

/-- The recommendations of the first of some strategies whose shortlist is not empty. -/
def firstAnswer (s : Snapshot α) (w : Weights α) (limit : Nat) :
    List Strategy → σ → List (Recommendation α) × σ
  | [], source => ([], source)
  | strategy :: others, source =>
    let (list, source) := strategy.shortlist s w limit source
    if list.isEmpty then firstAnswer s w limit others source
    else (list.recommendations strategy limit, source)

/-- The answer to a user: at most as many recommendations as the requested limit stands for, the
best one first, and the source of indices after it. -/
def recommend (s : Snapshot α) (w : Weights α) (requested : Int64) (source : σ) :
    List (Recommendation α) × σ :=
  firstAnswer s w (effectiveLimit requested) Strategy.chain source

end Recommender
