import Recommender.Snapshot
import Recommender.Weights
import Recommender.Random.Draw

/-!
# Strategies and their results

A `Strategy` is a way to pick products for a user. Its result is a `Shortlist`, products with their
scores in two parallel lists; a `Recommendation` names the strategy, too.

* `Strategy.chain` : the order in which strategies are tried.
* `Shortlist.ranked` : the shortlist of the best of some candidates.
* `Shortlist.recommendations` : the recommendations of a shortlist.
* `Neighbours.shortlist` : the products with the most votes of similar users.
* `Taste.shortlist` : the products that best fit what the user liked and bought.
* `Popularity.shortlist` : the products with the most likes.
* `Chance.shortlist` : the first products of a shuffle.
-/

namespace Recommender

/-- A way to pick products for a user. -/
inductive Strategy
  /-- What similar users like. -/
  | collaborative
  /-- What resembles the things that the user liked and bought. -/
  | contentBased
  /-- What many users like. -/
  | popularity
  /-- What chance picks. -/
  | random
deriving DecidableEq

namespace Strategy

/-- The strategies in the order in which they are tried. -/
def chain : List Strategy :=
  [collaborative, contentBased, popularity, random]

/-- The name of a strategy, in answers and messages. -/
def name : Strategy → String
  | collaborative => "collaborative"
  | contentBased => "content_based"
  | popularity => "popularity"
  | random => "random"

/-- The strategy of a name. -/
def ofName? (name : String) : Option Strategy :=
  chain.find? (·.name = name)

theorem ofName?_name (s : Strategy) : ofName? s.name = some s := by
  cases s <;> decide

end Strategy

/-- A product picked for a user. -/
structure Recommendation (α : Type) where
  /-- The product. -/
  product : Product α
  /-- How well the product fits. -/
  score : α
  /-- What picked the product. -/
  strategy : Strategy
deriving DecidableEq

/-- Products and their scores, in two lists that run side by side. -/
structure Shortlist (α : Type) where
  /-- The products, the best one first. -/
  products : List (Product α)
  /-- Their scores. -/
  scores : List α
deriving DecidableEq

namespace Shortlist

variable {α : Type}

/-- Whether there is no product that has a score. -/
def isEmpty (l : Shortlist α) : Bool :=
  l.products.isEmpty || l.scores.isEmpty

/-- The shortlist of nothing. -/
def empty : Shortlist α :=
  ⟨[], []⟩

/-- The best `limit` candidates. -/
def ranked [Scalar α] (candidates : List (Product α × α)) (limit : Nat) : Shortlist α :=
  let kept := Ranking.top Product.id limit candidates
  ⟨kept.map (·.1), kept.map (·.2)⟩

/-- The first `limit` products with their scores; a product without a score is dropped, and a score
without a product. -/
def recommendations (l : Shortlist α) (strategy : Strategy) (limit : Nat) :
    List (Recommendation α) :=
  ((l.products.zip l.scores).take limit).map fun e => ⟨e.1, e.2, strategy⟩

end Shortlist

/-! ### What similar users like

Another user is similar to the user by every like on a product that the user knows. The most similar
ones are the neighbours; each like of a neighbour on a product that the user does not know is a vote
for it, of the weight of the neighbour's similarity.
-/

namespace Neighbours

variable {α : Type} [Scalar α] (s : Snapshot α) (w : Weights α)

/-- The other users that liked a product that the user knows, with their similarities. -/
def similarities : List (UserId × α) :=
  let known := s.interacted
  Tally.totals <|
    (s.allLikes.filter fun l => l.user ≠ s.user ∧ l.product ∈ known).map fun l =>
      (l.user, w.coOccurrence)

/-- The neighbours: the users of highest similarity, as many as the weights allow. -/
def chosen (similarities : List (UserId × α)) : List (UserId × α) :=
  Ranking.top id w.maxSimilarUsers similarities

/-- The products that the user does not know and that neighbours like, each with the sum of the
similarities of the likes on it. -/
def votes (neighbours : List (UserId × α)) : List (ProductId × α) :=
  let known := s.interacted
  Tally.totals <|
    (s.allLikes.filter fun l => l.product ∉ known).filterMap fun l =>
      (neighbours.lookup l.user).map (l.product, ·)

/-- The entries of the catalog that votes were given for. -/
def candidates (votes : List (ProductId × α)) : List (Product α × α) :=
  votes.filterMap fun v => (s.product? v.1).map (·, v.2)

/-- The products with the highest sums of votes. A user who knows nothing has no neighbours, and
without neighbours there are no votes to count. -/
def shortlist (limit : Nat) : Shortlist α :=
  if s.interacted.isEmpty then .empty
  else
    let neighbours := chosen w (similarities s w)
    if neighbours.isEmpty then .empty
    else .ranked (candidates s (votes s neighbours)) limit

end Neighbours

/-! ### What resembles the user's taste

The taste of a user is what was liked and bought: a preference for each category, and an average
price. A product that the user does not know fits if there is a preference for its category; it
scores that preference, and bonuses for being new, for being liked by many, and for a price near the
average.
-/

namespace Taste

variable {α : Type} [Scalar α] (s : Snapshot α) (w : Weights α)

/-- What was liked and then what was bought, as far as it is in the catalog, with its weight. -/
def history : List (Product α × α) :=
  (s.liked.map (·, w.likeCategory) ++ s.purchased.map (·, w.purchaseCategory)).filterMap fun e =>
    (s.product? e.1).map (·, e.2)

/-- The preference for a category. -/
def preference (history : List (Product α × α)) (category : String) : α :=
  Tally.total (history.map fun e => (e.1.category, e.2)) category

/-- The average price of what was liked and bought, if anything was. -/
def averagePrice (history : List (Product α × α)) : Option α :=
  if history.isEmpty then none
  else some (Scalar.sum (history.map (·.1.price)) / Scalar.ofNat history.length)

/-- The bonus for being new. -/
def recencyBonus (p : Product α) : α :=
  Scalar.ofNat 1 / (Scalar.ofNat 1 + p.ageInDays s.now / w.recencyScaleDays) * w.recency

/-- The bonus for being liked by many. -/
def popularityBonus (p : Product α) : α :=
  Scalar.ofNat (s.likeCount p.id) * w.popularity

/-- The bonus for a price near the average: full at the average itself, and none at a distance of
twice the average or more if the average is above zero. -/
def priceBonus (average price : α) : α :=
  if average == Scalar.ofNat 0 then Scalar.ofNat 0
  else
    Scalar.nonneg
      (Scalar.ofNat 1 - Scalar.distance price average / average / Scalar.ofNat 2) * w.price

/-- The score of a product whose category has the preference `base`. Without an average price there
is no bonus for the price. -/
def score (average : Option α) (base : α) (p : Product α) : α :=
  base + recencyBonus s w p + popularityBonus s w p +
    (average.map (priceBonus w · p.price)).getD (Scalar.ofNat 0)

/-- The products that the user does not know and whose categories are preferred, with scores. -/
def candidates : List (Product α × α) :=
  let past := history s w
  let average := averagePrice past
  s.unseen.filterMap fun p =>
    let base := preference past p.category
    if base ≤ Scalar.ofNat 0 then none else some (p, score s w average base p)

/-- The products with the highest scores; none if the user has no taste. -/
def shortlist (limit : Nat) : Shortlist α :=
  if (history s w).isEmpty then .empty else .ranked (candidates s w) limit

end Taste

/-! ### What many users like -/

namespace Popularity

variable {α : Type} [Scalar α] (s : Snapshot α)

/-- The liked products that the user does not know, with their numbers of likes. -/
def candidates : List (Product α × α) :=
  (s.unseen.filter fun p => 0 < s.likeCount p.id).map fun p =>
    (p, Scalar.ofNat (s.likeCount p.id))

/-- The products with the most likes; none if nothing was ever liked. -/
def shortlist (limit : Nat) : Shortlist α :=
  if s.allLikes.isEmpty then .empty else .ranked (candidates s) limit

end Popularity

/-! ### What chance picks -/

namespace Chance

variable {α σ : Type} [IndexSource σ]

/-- The first `limit` products of a shuffle, each with the fixed score, and the source of indices
after the shuffle. -/
def shortlist (s : Snapshot α) (w : Weights α) (limit : Nat) (source : σ) : Shortlist α × σ :=
  let (shuffled, source) := shuffle s.unseen source
  let kept := shuffled.take limit
  (⟨kept, List.replicate kept.length w.randomScore⟩, source)

end Chance

end Recommender
