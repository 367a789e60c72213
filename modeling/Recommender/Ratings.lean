import Recommender.Catalog
import Recommender.Table

/-!
# Ratings

The ratings that users gave to products, and the prediction of a missing one from the users who are
alike. A `Metric` says how alike two vectors are; zero means that nothing is known.

* `cosine` : the cosine of the angle between two vectors.
* `Ratings.similarity` : how alike two users are, by the products that both rated.
* `Ratings.predict` : the rating a user gave, or the mean of the others' ratings weighted by how
  alike they are.
-/

namespace Recommender

/-! ### Similarity of vectors -/

/-- A measure of how alike two vectors are. -/
abbrev Metric (α : Type) := List α → List α → α

/-- The scalar product of two vectors. -/
def dot {α : Type} [Scalar α] (a b : List α) : α :=
  Scalar.sum (List.zipWith (· * ·) a b)

/-- The cosine of the angle between two vectors. It is zero for vectors that have no angle: of
different lengths, without entries, or of magnitude zero. -/
def cosine {α : Type} [RootedScalar α] (a b : List α) : α :=
  if a.length ≠ b.length ∨ a = [] then Scalar.ofNat 0
  else
    let magnitude := RootedScalar.sqrt (dot a a) * RootedScalar.sqrt (dot b b)
    if magnitude == Scalar.ofNat 0 then Scalar.ofNat 0 else dot a b / magnitude

/-! ### Ratings and predictions -/

/-- The ratings of each user, in one row per user. -/
abbrev Ratings (α : Type) := Table (Table α)

namespace Ratings

variable {α : Type}

/-- The ratings of the products that occur in both rows, in pairs, in ascending order of product. -/
def common (first second : Table α) : List (α × α) :=
  first.entries.filterMap fun e => (second.get? e.1).map (e.2, ·)

variable [Scalar α]

/-- How alike two users are: the metric of their ratings of the products that both rated, zero if
there is no such product. -/
def similarity (metric : Metric α) (ratings : Ratings α) (first second : UserId) : α :=
  match ratings.get? first, ratings.get? second with
  | some a, some b =>
    match common a b with
    | [] => Scalar.ofNat 0
    | pairs => metric (pairs.map (·.1)) (pairs.map (·.2))
  | _, _ => Scalar.ofNat 0

/-- The others' ratings of an item, each with the similarity of its author, in ascending order of
author. Only similarities above zero count. -/
def votes (metric : Metric α) (ratings : Ratings α) (user : UserId) (item : ProductId) :
    List (α × α) :=
  ratings.entries.filterMap fun e =>
    if e.1 = user then none
    else (e.2.get? item).bind fun rating =>
      let weight := similarity metric ratings user e.1
      if Scalar.ofNat 0 < weight then some (weight, rating) else none

/-- The mean of the second components weighted by the first, zero if the weights add up to zero. -/
def weightedMean (votes : List (α × α)) : α :=
  let total := Scalar.sum (votes.map (·.1))
  if total == Scalar.ofNat 0 then Scalar.ofNat 0
  else Scalar.sum (votes.map fun v => v.1 * v.2) / total

/-- The rating that a user gave to an item; if there is none, the mean of the others' ratings,
weighted by how alike they are. -/
def predict (metric : Metric α) (ratings : Ratings α) (user : UserId) (item : ProductId) : α :=
  match (ratings.get? user).bind (·.get? item) with
  | some rating => rating
  | none => weightedMean (votes metric ratings user item)

end Ratings

end Recommender
