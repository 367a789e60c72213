import Recommender.Weights
import Recommender.Proofs.Answer
import Recommender.Proofs.Exact
import Recommender.Proofs.Taste
import Mathlib.Tactic.GCongr
import Mathlib.Tactic.Linarith
import Mathlib.Tactic.Positivity
import Mathlib.Tactic.Ring

/-!
# Bonuses on exact numbers

What the bonuses of a taste come to when numbers are not rounded, for usable weights whose bonuses
are not negative. Prices may have any sign.

* `Taste.recencyBonus_mem`, `Taste.recencyBonus_le` : the bonus for being new lies between zero and
  its weight, and is no lower for what was created no earlier.
* `Taste.priceBonus_mem`, `Taste.priceBonus_le` : the same for the bonus for a price, and for what
  is at least as close to the average price, **if the average is not negative**.
* `Taste.priceBonus_of_neg` : below an average of zero the bonus starts from its weight and grows
  with the distance, without an upper bound.
* `Taste.better_scores_higher` : so the better of two candidates does not score lower, unless the
  average is negative.
* `Taste.closer_scores_lower` : with a negative average, it may.

Which of two instants is earlier is told by the time from each of them to now. Unless one of them
lies in a leap second, that is the order of their places on the time line, `Instant.ticks`.
-/

namespace Recommender

/-! ### The order of instants -/

namespace Instant

/-- The nanoseconds from the first day to an instant, if no leap second is counted. -/
def ticks (t : Instant) : Int :=
  (t.day * 86400 + t.second) * 1000000000 + t.nano

/-- The instant lies in a leap second. -/
def IsLeap (t : Instant) : Prop :=
  1000000000 ≤ t.nano

/-- Out of leap seconds, the time between two instants is the difference of their places. -/
theorem nanosSince_eq {now start : Instant} (hnow : ¬ now.IsLeap) (hstart : ¬ start.IsLeap) :
    now.nanosSince start = now.ticks - start.ticks := by
  unfold IsLeap at hnow hstart
  have hleap : leapBetween now start = 0 := by
    unfold leapBetween
    split_ifs <;> rfl
  rw [nanosSince, hleap, ticks, ticks]
  omega

theorem secondsSince_le {now a b : Instant} (h : now.nanosSince a ≤ now.nanosSince b) :
    now.secondsSince a ≤ now.secondsSince b :=
  Int.toNat_le_toNat (Int.ediv_le_ediv (by decide) h)

end Instant

namespace Taste

variable {s : Snapshot ℚ} {w : Weights ℚ} {p q : Product ℚ} {average price price' : ℚ}

/-! ### The bonus for being new -/

theorem recencyBonus_eq : recencyBonus s w p =
    1 / (1 + (s.now.secondsSince p.createdAt : ℚ) / 86400 / w.recencyScaleDays) * w.recency := by
  simp [recencyBonus, Product.ageInDays, Scalar.ofNat_eq_cast]

theorem recencyBonus_mem (hscale : 0 < w.recencyScaleDays) (hrecency : 0 ≤ w.recency) :
    recencyBonus s w p ∈ Set.Icc 0 w.recency := by
  have hage : 0 ≤ (s.now.secondsSince p.createdAt : ℚ) / 86400 / w.recencyScaleDays := by
    positivity
  have hshare :
      1 / (1 + (s.now.secondsSince p.createdAt : ℚ) / 86400 / w.recencyScaleDays) ≤ 1 := by
    rw [div_le_one (by positivity)]
    linarith
  rw [recencyBonus_eq]
  exact ⟨by positivity, mul_le_of_le_one_left hrecency hshare⟩

/-- What was created no earlier has no lower bonus for being new. -/
theorem recencyBonus_le (hscale : 0 < w.recencyScaleDays) (hrecency : 0 ≤ w.recency)
    (h : s.now.nanosSince p.createdAt ≤ s.now.nanosSince q.createdAt) :
    recencyBonus s w q ≤ recencyBonus s w p := by
  have hseconds : (s.now.secondsSince p.createdAt : ℚ) ≤ s.now.secondsSince q.createdAt := by
    exact_mod_cast Instant.secondsSince_le h
  rw [recencyBonus_eq, recencyBonus_eq]
  gcongr

/-! ### The bonus for being liked by many -/

theorem popularityBonus_le (hpopularity : 0 ≤ w.popularity)
    (h : s.likeCount q.id ≤ s.likeCount p.id) : popularityBonus s w q ≤ popularityBonus s w p := by
  unfold popularityBonus
  have hcount : (Scalar.ofNat (s.likeCount q.id) : ℚ) ≤ Scalar.ofNat (s.likeCount p.id) := by
    rw [Scalar.ofNat_eq_cast, Scalar.ofNat_eq_cast]
    exact_mod_cast h
  gcongr

/-! ### The bonus for a price near the average -/

theorem priceBonus_of_ne (haverage : average ≠ 0) :
    priceBonus w average price = max 0 (1 - |price - average| / average / 2) * w.price := by
  simp [priceBonus, haverage, Scalar.ofNat_eq_cast, Scalar.distance_eq_abs, Scalar.nonneg_eq_max]

theorem priceBonus_zero : priceBonus w 0 price = 0 := by
  simp [priceBonus, Scalar.ofNat_eq_cast]

theorem priceBonus_mem (haverage : 0 ≤ average) (hprice : 0 ≤ w.price) :
    priceBonus w average price ∈ Set.Icc 0 w.price := by
  rcases eq_or_lt_of_le haverage with rfl | hpos
  · rw [priceBonus_zero]
    exact ⟨le_refl 0, hprice⟩
  · have hshare : max 0 (1 - |price - average| / average / 2) ≤ 1 := by
      have hdistance : 0 ≤ |price - average| / average / 2 := by positivity
      exact max_le zero_le_one (by linarith)
    rw [priceBonus_of_ne hpos.ne']
    exact ⟨by positivity, mul_le_of_le_one_left hprice hshare⟩

/-- What is at least as close to an average that is not negative has no lower bonus. -/
theorem priceBonus_le (haverage : 0 ≤ average) (hprice : 0 ≤ w.price)
    (h : |price - average| ≤ |price' - average|) :
    priceBonus w average price' ≤ priceBonus w average price := by
  rcases eq_or_lt_of_le haverage with rfl | hpos
  · rw [priceBonus_zero, priceBonus_zero]
  · rw [priceBonus_of_ne hpos.ne', priceBonus_of_ne hpos.ne']
    gcongr

/-- A distance from a negative average does not lower the bonus, it raises it. -/
theorem priceBonus_of_neg (haverage : average < 0) :
    priceBonus w average price = (1 + |price - average| / |average| / 2) * w.price := by
  have hshare : 1 - |price - average| / average / 2 = 1 + |price - average| / |average| / 2 := by
    rw [abs_of_neg haverage, div_neg]
    ring
  have hnonneg : 0 ≤ 1 + |price - average| / |average| / 2 := by positivity
  rw [priceBonus_of_ne haverage.ne, hshare, max_eq_right hnonneg]

/-! ### Scores -/

/-- Of two entries of one category, the first is liked at least as often, was created no earlier and
has a price at least as close to the average. -/
structure NoWorse (s : Snapshot ℚ) (average : ℚ) (p q : Product ℚ) : Prop where
  /-- Both have one category. -/
  category : p.category = q.category
  /-- The first has at least as many likes of all users. -/
  likes : s.likeCount q.id ≤ s.likeCount p.id
  /-- No more time has passed since the first was created. -/
  created : s.now.nanosSince p.createdAt ≤ s.now.nanosSince q.createdAt
  /-- The price of the first is at least as close to the average. -/
  price : |p.price - average| ≤ |q.price - average|

/-- Where there are candidates there is an average price, and a score is a preference and three
bonuses. -/
theorem exists_average_of_mem_candidates {e : Product ℚ × ℚ}
    (he : e ∈ Strategy.contentBased.candidates s w) :
    ∃ average ∈ averagePrice (history s w),
      e.2 = preference (history s w) e.1.category + recencyBonus s w e.1 + popularityBonus s w e.1 +
        priceBonus w average e.1.price := by
  obtain ⟨hhistory, hscore⟩ := score_of_mem_candidates he
  have haverage : averagePrice (history s w) = some
      (Scalar.sum ((history s w).map (·.1.price)) / Scalar.ofNat (history s w).length) := by
    simp [averagePrice, hhistory]
  rw [haverage, score] at hscore
  exact ⟨_, haverage, hscore⟩

theorem scale_pos (usable : w.defect? = none) : 0 < w.recencyScaleDays := by
  have hscale := (Weights.defect?_eq_none_iff.1 usable).2
  rw [Scalar.ofNat_eq_cast, Nat.cast_zero] at hscale
  exact not_le.1 hscale

/-- **A better candidate scores no lower, and bonuses are bounded.** The bonus for being new lies
between zero and its weight. So does the bonus for a price if the average price is not negative, and
then of two candidates one that is no worse scores no lower. At a negative average the bonus for a
price is its weight and more, the more the further away the price is. -/
theorem better_scores_higher (s : Snapshot ℚ) (w : Weights ℚ) (usable : w.defect? = none)
    (recency : 0 ≤ w.recency) (popularity : 0 ≤ w.popularity) (price : 0 ≤ w.price) :
    let candidates := Strategy.contentBased.candidates s w
    (∀ e ∈ candidates, recencyBonus s w e.1 ∈ Set.Icc 0 w.recency) ∧
    (∀ e ∈ candidates, ∃ average ∈ averagePrice (history s w),
      e.2 = preference (history s w) e.1.category + recencyBonus s w e.1 + popularityBonus s w e.1 +
        priceBonus w average e.1.price) ∧
    (∀ average ∈ averagePrice (history s w), 0 ≤ average →
      (∀ e ∈ candidates, priceBonus w average e.1.price ∈ Set.Icc 0 w.price) ∧
      ∀ e ∈ candidates, ∀ f ∈ candidates, NoWorse s average e.1 f.1 → f.2 ≤ e.2) ∧
    (∀ average ∈ averagePrice (history s w), average < 0 → ∀ e ∈ candidates,
      priceBonus w average e.1.price =
        (1 + |e.1.price - average| / |average| / 2) * w.price) ∧
    ∀ t u : Instant, ¬ s.now.IsLeap → ¬ t.IsLeap → ¬ u.IsLeap →
      (s.now.nanosSince t ≤ s.now.nanosSince u ↔ u.ticks ≤ t.ticks) := by
  have hscale := scale_pos usable
  refine ⟨?_, ?_, ?_, ?_, ?_⟩
  · intro e _
    exact recencyBonus_mem hscale recency
  · intro e he
    exact exists_average_of_mem_candidates he
  · intro average haverage hsign
    refine ⟨fun e _ => priceBonus_mem hsign price, ?_⟩
    intro e he f hf h
    obtain ⟨a, ha, hscore⟩ := exists_average_of_mem_candidates he
    obtain ⟨b, hb, hscore'⟩ := exists_average_of_mem_candidates hf
    obtain rfl := Option.mem_unique haverage ha
    obtain rfl := Option.mem_unique haverage hb
    -- the preferences are equal, and each bonus is compared on its own
    rw [hscore, hscore', h.category]
    gcongr
    · exact recencyBonus_le hscale recency h.created
    · exact popularityBonus_le popularity h.likes
    · exact priceBonus_le hsign price h.price
  · intro average _ hsign e _
    exact priceBonus_of_neg hsign
  · intro t u hnow ht hu
    rw [Instant.nanosSince_eq hnow ht, Instant.nanosSince_eq hnow hu]
    omega

end Taste

namespace Shop

/-- A voucher of some value. -/
def voucher (id : ProductId) (value : ℚ) : Product ℚ :=
  ⟨id, "", "voucher", value, noon⟩

/-- A user likes a voucher. There is another one of its value, and one of three times its value. -/
def vouchers (value : ℚ) : Snapshot ℚ :=
  let like : Like := ⟨1, 1, noon⟩
  ⟨1, [like], [], [like], [voucher 1 value, voucher 2 value, voucher 3 (3 * value)], noon⟩

end Shop

namespace Taste

/-- A voucher of the same value scores no lower than one of three times the value. -/
theorem better_scores_higher_vouchers :
    Weights.exact.defect? = none ∧ 0 ≤ Weights.exact.recency ∧ 0 ≤ Weights.exact.popularity ∧
    0 ≤ Weights.exact.price ∧
    Strategy.contentBased.candidates (Shop.vouchers 100) .exact =
      [(Shop.voucher 2 100, 3 / 2), (Shop.voucher 3 300, 6 / 5)] ∧
    NoWorse (Shop.vouchers 100) 100 (Shop.voucher 2 100) (Shop.voucher 3 300) ∧
    (6 / 5 : ℚ) ≤ 3 / 2 := by
  have husable : Weights.exact.defect? = none := by decide +kernel
  have hrecency : 0 ≤ Weights.exact.recency := by decide +kernel
  have hpopularity : 0 ≤ Weights.exact.popularity := by decide +kernel
  have hprice : 0 ≤ Weights.exact.price := by decide +kernel
  have hcandidates : Strategy.contentBased.candidates (Shop.vouchers 100) .exact =
      [(Shop.voucher 2 100, 3 / 2), (Shop.voucher 3 300, 6 / 5)] := by decide +kernel
  have haverage : averagePrice (history (Shop.vouchers 100) .exact) = some 100 := by
    decide +kernel
  have hbetter : NoWorse (Shop.vouchers 100) 100 (Shop.voucher 2 100) (Shop.voucher 3 300) :=
    ⟨by decide +kernel, by decide +kernel, by decide +kernel, by decide +kernel⟩
  obtain ⟨-, -, hscores, -⟩ := better_scores_higher (Shop.vouchers 100) .exact husable hrecency
    hpopularity hprice
  rw [hcandidates] at hscores
  obtain ⟨-, hscores⟩ := hscores 100 haverage (by norm_num)
  exact ⟨husable, hrecency, hpopularity, hprice, hcandidates, hbetter,
    hscores (Shop.voucher 2 100, 3 / 2) (by simp) (Shop.voucher 3 300, 6 / 5) (by simp) hbetter⟩

/-- **At a negative average the closer price scores lower.** A voucher of minus a hundred scores
lower than one of minus three hundred, though it is just at the average, and the bonus for the price
of the other is above its weight. -/
theorem closer_scores_lower :
    Weights.exact.defect? = none ∧ 0 ≤ Weights.exact.recency ∧ 0 ≤ Weights.exact.popularity ∧
    0 ≤ Weights.exact.price ∧
    averagePrice (history (Shop.vouchers (-100)) .exact) = some (-100) ∧
    Strategy.contentBased.candidates (Shop.vouchers (-100)) .exact =
      [(Shop.voucher 2 (-100), 3 / 2), (Shop.voucher 3 (-300), 9 / 5)] ∧
    NoWorse (Shop.vouchers (-100)) (-100) (Shop.voucher 2 (-100)) (Shop.voucher 3 (-300)) ∧
    ¬ (9 / 5 : ℚ) ≤ 3 / 2 ∧
    ¬ priceBonus Weights.exact (-100) (-300) ≤ Weights.exact.price := by
  have hcloser : NoWorse (Shop.vouchers (-100)) (-100) (Shop.voucher 2 (-100))
      (Shop.voucher 3 (-300)) :=
    ⟨by decide +kernel, by decide +kernel, by decide +kernel, by decide +kernel⟩
  exact ⟨by decide +kernel, by decide +kernel, by decide +kernel, by decide +kernel,
    by decide +kernel, by decide +kernel, hcloser, by decide +kernel, by decide +kernel⟩

end Taste

end Recommender
