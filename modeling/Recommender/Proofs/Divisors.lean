import Recommender.Proofs.CheckedRuns
import Recommender.Proofs.Evidence

/-!
# What is divided by

The divisors of scores, similarities and predictions are listed here, and the list is complete: on
`Checked` scalars, which notice a division by zero, everything is computed as on plain ones if no
divisor of the list is zero.

* `Taste.Divisor` : what scores by taste divide by.
* `Taste.shortlist_number`, `recommend_number` : if none of it is zero, no score is undefined.
* `Taste.score_undefined` : with a scale of zero every score is.
* `Cosine.Divisor`, `Ratings.Divisor` : what the cosine and predictions by it divide by.
* `Cosine.cosine_number`, `Ratings.predict_number` : these are compared with zero first, so no
  similarity and no prediction is undefined.
-/

namespace Recommender

open Checked (number undefined)

variable {α : Type}

/-! ### Scores by taste -/

namespace Taste

variable [Scalar α]

/-- What scores by taste may divide by. -/
inductive Divisor (s : Snapshot α) (w : Weights α) : α → Prop
  /-- The seconds of a day, by which an age in seconds is divided. -/
  | day : Divisor s w (Scalar.ofNat 86400)
  /-- The scale of ages. -/
  | scale : Divisor s w w.recencyScaleDays
  /-- One and the age of an unseen product on this scale. -/
  | aging {p : Product α} (unseen : p ∈ s.unseen) :
    Divisor s w (Scalar.ofNat 1 + p.ageInDays s.now / w.recencyScaleDays)
  /-- The number of prices that are averaged. -/
  | references (past : history s w ≠ []) : Divisor s w (Scalar.ofNat (history s w).length)
  /-- An average price that does not equal zero. -/
  | average {average : α} (known : average ∈ averagePrice (history s w))
    (nonzero : (average == Scalar.ofNat 0) = false) : Divisor s w average
  /-- Two, by which the distance from the average price is divided. -/
  | half : Divisor s w (Scalar.ofNat 2)

/-- Nothing that scores by taste may divide by is zero. -/
def Defined (s : Snapshot α) (w : Weights α) : Prop :=
  ∀ d, Divisor s w d → (d == Scalar.ofNat 0) = false

theorem preference_number (past : List (Product α × α)) (category : String) :
    preference (past.map (Prod.map (Product.map number) number)) category =
      number (preference past category) := by
  rw [preference, preference, ← Tally.total_number, List.map_map, List.map_map]
  rfl

theorem averagePrice_number (past : List (Product α × α))
    (nonzero : past ≠ [] → ((Scalar.ofNat past.length : α) == Scalar.ofNat 0) = false) :
    averagePrice (past.map (Prod.map (Product.map number) number)) =
      (averagePrice past).map number := by
  cases past with
  | nil => rfl
  | cons e past =>
    have hprices : ((e :: past).map (Prod.map (Product.map number) number)).map (·.1.price) =
        ((e :: past).map (·.1.price)).map number := by
      rw [List.map_map, List.map_map]
      rfl
    have hdefined := Checked.number_div (x := Scalar.sum ((e :: past).map (·.1.price)))
      (nonzero (List.cons_ne_nil e past))
    rw [averagePrice, averagePrice, hprices, Checked.sum_number, List.length_map,
      Checked.ofNat_eq_number, hdefined]
    rfl

variable {s : Snapshot α} {w : Weights α}

theorem recencyBonus_number (defined : Defined s w) {p : Product α} (unseen : p ∈ s.unseen) :
    recencyBonus (s.map number) (w.map number) (p.map number) =
      number (recencyBonus s w p) := by
  have hage : (p.map number).ageInDays (s.map number).now = number (p.ageInDays s.now) :=
    Checked.number_div (defined _ .day)
  have hscaled : number (p.ageInDays s.now) / (w.map number).recencyScaleDays =
      number (p.ageInDays s.now / w.recencyScaleDays) :=
    Checked.number_div (defined _ .scale)
  rw [recencyBonus, hage, hscaled, Checked.ofNat_eq_number, Checked.number_add,
    Checked.number_div (defined _ (.aging unseen))]
  rfl

theorem priceBonus_number (w : Weights α) (average price : α)
    (half : ((Scalar.ofNat 2 : α) == Scalar.ofNat 0) = false) :
    priceBonus (w.map number) (number average) (number price) =
      number (priceBonus w average price) := by
  rw [priceBonus, priceBonus, Checked.ofNat_eq_number, Checked.number_beq_number]
  cases hzero : average == Scalar.ofNat 0 with
  | true => rfl
  | false =>
    rw [Checked.distance_number, Checked.number_div hzero, Checked.ofNat_eq_number,
      Checked.ofNat_eq_number, Checked.number_div half, Checked.number_sub,
      Checked.nonneg_number]
    rfl

theorem score_number (defined : Defined s w) {p : Product α} (unseen : p ∈ s.unseen)
    (average : Option α) (base : α) :
    score (s.map number) (w.map number) (average.map number) (number base) (p.map number) =
      number (score s w average base p) := by
  rw [score, score, recencyBonus_number defined unseen]
  cases average with
  | none => rfl
  | some average =>
    have hprice := priceBonus_number w average p.price (defined _ .half)
    show _ + priceBonus (w.map number) (number average) (number p.price) = _
    rw [hprice]
    rfl

theorem candidates_number (defined : Defined s w) :
    candidates (s.map number) (w.map number) =
      (candidates s w).map (Prod.map (Product.map number) number) := by
  have haverage := averagePrice_number (history s w) fun past => defined _ (.references past)
  rw [candidates, candidates, history_map, haverage, Snapshot.unseen_map, List.filterMap_map,
    List.map_filterMap]
  refine List.filterMap_congr fun p unseen => ?_
  -- a preference is a sum, so the same products are left out
  simp only [Function.comp_apply, Product.category_map, preference_number,
    score_number defined unseen, Checked.ofNat_eq_number, Checked.number_le_number]
  split_ifs <;> rfl

/-- If nothing is zero that scores may divide by, none of them is undefined. -/
theorem shortlist_number (defined : Defined s w) (limit : Nat) :
    shortlist (s.map number) (w.map number) limit = (shortlist s w limit).map number := by
  rw [shortlist, shortlist, history_map, List.isEmpty_map, candidates_number defined,
    Shortlist.ranked_number]
  split_ifs <;> rfl

/-- With a scale of zero every score is undefined. -/
theorem score_undefined (zero : (w.recencyScaleDays == Scalar.ofNat 0) = true)
    (average : Option (Checked α)) (base : Checked α) (p : Product (Checked α)) :
    score (s.map number) (w.map number) average base p = undefined := by
  have hscaled : p.ageInDays (s.map number).now / (w.map number).recencyScaleDays = undefined :=
    Checked.number_div_zero zero
  rw [score, recencyBonus, hscaled]
  simp only [Checked.add_undefined, Checked.div_undefined, Checked.undefined_mul,
    Checked.undefined_add]

end Taste

/-! ### Answers -/

section

variable {σ : Type} [IndexSource σ] [Scalar α] {s : Snapshot α} {w : Weights α}
  (defined : Taste.Defined s w)

include defined

/-- The other strategies divide by nothing. -/
theorem Strategy.shortlist_number (strategy : Strategy) (limit : Nat) (source : σ) :
    strategy.shortlist (s.map number) (w.map number) limit source =
      ((strategy.shortlist s w limit source).1.map number,
        (strategy.shortlist s w limit source).2) := by
  cases strategy with
  | collaborative => exact congrArg (·, source) (Neighbours.shortlist_number s w limit)
  | contentBased => exact congrArg (·, source) (Taste.shortlist_number defined limit)
  | popularity => exact congrArg (·, source) (Popularity.shortlist_number s limit)
  | random => exact Chance.shortlist_map number s w limit source

theorem firstAnswer_number (strategies : List Strategy) (limit : Nat) (source : σ) :
    firstAnswer (s.map number) (w.map number) limit strategies source =
      ((firstAnswer s w limit strategies source).1.map (Recommendation.map number),
        (firstAnswer s w limit strategies source).2) := by
  induction strategies generalizing source with
  | nil => rfl
  | cons strategy others ih =>
    -- the same shortlists are empty, so the same strategy answers
    simp only [firstAnswer, Strategy.shortlist_number defined, Shortlist.isEmpty_map, ih,
      Shortlist.recommendations_map]
    split_ifs <;> rfl

/-- If nothing is zero that scores may divide by, no answer has an undefined score. -/
theorem recommend_number (requested : Int64) (source : σ) :
    recommend (s.map number) (w.map number) requested source =
      ((recommend s w requested source).1.map (Recommendation.map number),
        (recommend s w requested source).2) :=
  firstAnswer_number defined Strategy.chain (effectiveLimit requested) source

end

/-! ### Similarities -/

namespace Cosine

variable [RootedScalar α]

/-- The product of the magnitudes of two vectors. -/
def magnitudes (a b : List α) : α :=
  RootedScalar.sqrt (dot a a) * RootedScalar.sqrt (dot b b)

/-- What the cosine of two vectors divides by. -/
inductive Divisor (a b : List α) : α → Prop
  /-- The product of the magnitudes, if it does not equal zero and the vectors have entries, as many
  the one as the other. -/
  | product (length : a.length = b.length) (entries : a ≠ [])
    (nonzero : (magnitudes a b == Scalar.ofNat 0) = false) : Divisor a b (magnitudes a b)

/-- Where there is something to divide by, the cosine is the quotient. -/
theorem Divisor.cosine_eq_div {a b : List α} {d : α} (divisor : Divisor a b d) :
    cosine a b = dot a b / d := by
  cases divisor with
  | product length entries nonzero =>
    rw [cosine, if_neg (not_or.2 ⟨not_not.2 length, entries⟩)]
    exact if_neg (ne_true_of_eq_false nonzero)

theorem dot_number (a b : List α) : dot (a.map number) (b.map number) = number (dot a b) := by
  rw [dot, dot, ← Checked.sum_number, List.zipWith_map, List.map_zipWith]
  rfl

/-- No cosine is undefined. -/
theorem cosine_number (a b : List α) :
    cosine (a.map number) (b.map number) = number (cosine a b) := by
  simp only [cosine, dot_number, List.length_map, List.map_eq_nil_iff, Checked.sqrt_number,
    Checked.number_mul, Checked.ofNat_eq_number, Checked.number_beq_number]
  split_ifs with hshape hzero
  · rfl
  · rfl
  · exact Checked.number_div (eq_false_of_ne_true hzero)

end Cosine

/-! ### Predictions -/

namespace Ratings

/-- What a prediction by the cosine may divide by. -/
inductive Divisor [RootedScalar α] (r : Ratings α) (user : UserId) (item : ProductId) : α → Prop
  /-- What the similarity to another user who rated the item divides by. -/
  | similarity {v : UserId} {d : α} (missing : r.rating? user item = none) (other : v ≠ user)
    (rated : (r.rating? v item).isSome)
    (divisor : Cosine.Divisor ((common (r.row user) (r.row v)).map (·.1))
      ((common (r.row user) (r.row v)).map (·.2)) d) : Divisor r user item d
  /-- The sum of the similarities, if it does not equal zero. -/
  | total (missing : r.rating? user item = none)
    (nonzero : (Scalar.sum ((r.votes cosine user item).map (·.1)) == Scalar.ofNat 0) = false) :
    Divisor r user item (Scalar.sum ((r.votes cosine user item).map (·.1)))

variable [Scalar α] {metric : Metric α} {metric' : Metric (Checked α)}
  (defined : ∀ a b, metric' (a.map number) (b.map number) = number (metric a b)) (r : Ratings α)

include defined

theorem similarity_number (user v : UserId) :
    (r.map number).similarity metric' user v = number (r.similarity metric user v) := by
  simp only [similarity, map, Table.get?_map]
  cases r.get? user with
  | none => rfl
  | some a =>
    cases r.get? v with
    | none => rfl
    | some b =>
      simp only [Option.map_some, common_map]
      -- the metric is asked only if there are common products, here as there
      cases common a b with
      | nil => rfl
      | cons pair pairs =>
        simp only [List.map_cons, Prod.map_fst, Prod.map_snd, ← defined, List.map_map,
          Function.comp_def]

theorem votes_number (user : UserId) (item : ProductId) :
    (r.map number).votes metric' user item =
      (r.votes metric user item).map (Prod.map number number) := by
  have hentries : (r.map number).entries = r.entries.map fun e => (e.1, e.2.map number) := rfl
  rw [votes, votes, hentries, List.filterMap_map, List.map_filterMap]
  refine List.filterMap_congr fun e _ => ?_
  simp only [Function.comp_apply, Table.get?_map, similarity_number defined,
    Checked.ofNat_eq_number, Checked.number_lt_number]
  by_cases huser : e.1 = user
  · simp [huser]
  · cases e.2.get? item with
    | none => simp [huser]
    | some rating =>
      by_cases hpos : Scalar.ofNat 0 < r.similarity metric user e.1
      · simp [huser, hpos]
      · simp [huser, hpos]

omit defined in
theorem weightedMean_number (votes : List (α × α)) :
    weightedMean (votes.map (Prod.map number number)) = number (weightedMean votes) := by
  have hweights : (votes.map (Prod.map number number)).map (·.1) =
      (votes.map (·.1)).map number := by
    simp only [List.map_map, Function.comp_def, Prod.map_fst]
  have hproducts : ((votes.map (Prod.map number number)).map fun v => v.1 * v.2) =
      (votes.map fun v => v.1 * v.2).map number := by
    simp only [List.map_map, Function.comp_def, Prod.map_fst, Prod.map_snd, Checked.number_mul]
  simp only [weightedMean, hweights, hproducts, Checked.sum_number, Checked.ofNat_eq_number,
    Checked.number_beq_number]
  split_ifs with hzero
  · rfl
  · exact Checked.number_div (eq_false_of_ne_true hzero)

/-- By a metric that is always defined, no prediction is undefined. -/
theorem predict_number (user : UserId) (item : ProductId) :
    (r.map number).predict metric' user item = number (r.predict metric user item) := by
  have hown : ((r.map number).get? user).bind (·.get? item) =
      ((r.get? user).bind (·.get? item)).map number := by
    rw [map, Table.get?_map]
    cases r.get? user with
    | none => rfl
    | some row => exact Table.get?_map number row item
  rw [predict, predict, hown, votes_number defined, weightedMean_number]
  cases (r.get? user).bind (·.get? item) <;> rfl

end Ratings

end Recommender
