import Recommender.Decimal.Text

/-!
# Weights

The coefficients that scores are computed with. They are usable if every coefficient is finite and
the scale of ages is above zero.

* `Weights.standard` : the coefficients in force unless they are set otherwise.
* `Weights.coefficients` : the coefficients with their names.
* `Weights.defect?` : what is wrong with weights.
* `Weights.defect?_eq_none_iff` : which weights are usable.
-/

namespace Recommender

/-- The coefficients of all strategies. -/
structure Weights (α : Type) where
  /-- What a like adds to the preference for a category. -/
  likeCategory : α
  /-- What a line of an order adds to the preference for a category. -/
  purchaseCategory : α
  /-- What a like on a product that the user knows adds to the similarity of another user. -/
  coOccurrence : α
  /-- How many similar users are asked. -/
  maxSimilarUsers : Nat
  /-- The bonus of a new product. -/
  recency : α
  /-- The age in days at which the bonus for being new has halved. -/
  recencyScaleDays : α
  /-- The bonus per like of any user. -/
  popularity : α
  /-- The bonus of a product at the user's average price. -/
  price : α
  /-- The score of a product that chance has picked. -/
  randomScore : α
deriving DecidableEq

/-- The coefficients in force unless they are set otherwise. -/
def Weights.standard : Weights Binary64 where
  likeCategory := 1.0
  purchaseCategory := 2.0
  coOccurrence := 1.0
  maxSimilarUsers := 10
  recency := 0.2
  recencyScaleDays := 30.0
  popularity := 0.3
  price := 0.3
  randomScore := 0.1

/-! ### Usable weights -/

/-- What is wrong with weights. -/
inductive WeightsDefect (α : Type)
  /-- A coefficient is not a finite number. -/
  | notFinite (name : String) (value : α)
  /-- The scale of ages is not above zero. -/
  | scaleNotPositive (value : α)
deriving DecidableEq

/-- The text of a defect. -/
def WeightsDefect.message : WeightsDefect Binary64 → String
  | notFinite name value => name ++ " must be a finite number, got " ++ value.plainText
  | scaleNotPositive value =>
    "recency_scale_days must be positive, got " ++ value.plainText

namespace Weights

variable {α : Type}

/-- The coefficients with their names, in the order in which they are checked. -/
def coefficients (w : Weights α) : List (String × α) :=
  [("like_category_weight", w.likeCategory),
   ("purchase_category_weight", w.purchaseCategory),
   ("co_occurrence_weight", w.coOccurrence),
   ("recency_weight", w.recency),
   ("recency_scale_days", w.recencyScaleDays),
   ("popularity_weight", w.popularity),
   ("price_weight", w.price),
   ("random_score", w.randomScore)]

/-- The first defect of weights, if they have one. -/
def defect? [Scalar α] (w : Weights α) : Option (WeightsDefect α) :=
  match w.coefficients.find? fun c => !Scalar.isFinite c.2 with
  | some (name, value) => some (.notFinite name value)
  | none =>
    if w.recencyScaleDays ≤ Scalar.ofNat 0 then some (.scaleNotPositive w.recencyScaleDays)
    else none

theorem defect?_eq_none_iff [Scalar α] {w : Weights α} :
    w.defect? = none ↔
      (∀ c ∈ w.coefficients, Scalar.isFinite c.2) ∧ ¬ w.recencyScaleDays ≤ Scalar.ofNat 0 := by
  have hfinite : (w.coefficients.find? fun c => !Scalar.isFinite c.2) = none ↔
      ∀ c ∈ w.coefficients, Scalar.isFinite c.2 := by simp [List.find?_eq_none]
  rw [← hfinite, defect?]
  cases w.coefficients.find? fun c => !Scalar.isFinite c.2 with
  | none => simp
  | some c => simp

end Weights

end Recommender
