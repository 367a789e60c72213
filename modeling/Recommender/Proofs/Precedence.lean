import Recommender.Proofs.Choice

/-!
# The order of an answer

An answer lists better recommendations first, whatever the bits of their scores, and what its limit
cuts off is no better than what it keeps. Chance gives one score to all that it picks and orders
nothing.

* `Strategy.pairwise_ranking` : the ranking of a strategy other than chance is sorted.
* `Strategy.answer_append_drop` : an answer and what its limit cuts off make up the ranking.
* `recommend_ranked` : what this means for an answer.
-/

namespace Recommender

variable {α σ : Type} [Scalar α] [IndexSource σ] {s : Snapshot α} {w : Weights α} {source : σ}

/-! ### Sorted rankings -/

namespace Strategy

theorem pairwise_ranking [LawfulScalar α] {strategy : Strategy} (h : strategy ≠ random) :
    (strategy.ranking s w source).1.Pairwise (Ranking.before Product.id · · = true) := by
  cases strategy with
  | random => exact absurd rfl h
  | _ => exact Ranking.pairwise_before

theorem score_of_mem_ranking_random {e : Product α × α}
    (h : e ∈ (random.ranking s w source).1) : e.2 = w.randomScore := by
  obtain ⟨p, -, rfl⟩ := List.mem_map.1 h
  rfl

/-- An answer and what its limit cuts off make up the ranking. -/
theorem answer_append_drop (strategy : Strategy) (limit : Nat) :
    (strategy.answer s w limit source).1.map (·.entry) ++
      (strategy.ranking s w source).1.drop limit = (strategy.ranking s w source).1 := by
  have hentries : (strategy.answer s w limit source).1.map (·.entry) =
      (strategy.ranking s w source).1.take limit := by
    simp [answer, Function.comp_def]
  rw [hentries, List.take_append_drop]

variable [LawfulScalar α] {strategy : Strategy} {limit : Nat}

theorem pairwise_append_drop (h : strategy ≠ random) :
    ((strategy.answer s w limit source).1.map (·.entry) ++
      (strategy.ranking s w source).1.drop limit).Pairwise
        (Ranking.before Product.id · · = true) := by
  rw [answer_append_drop]
  exact pairwise_ranking h

/-- No recommendation of a strategy other than chance stands before a better one. -/
theorem pairwise_answer (h : strategy ≠ random) :
    (strategy.answer s w limit source).1.Pairwise
      (Ranking.before Product.id ·.entry ·.entry = true) :=
  List.pairwise_map.1 (List.pairwise_append.1 (pairwise_append_drop h)).1

/-- What a limit cuts off may not stand before what it keeps. -/
theorem before_of_mem_drop (h : strategy ≠ random) {r : Recommendation α} {e : Product α × α}
    (hr : r ∈ (strategy.answer s w limit source).1)
    (he : e ∈ (strategy.ranking s w source).1.drop limit) :
    Ranking.before Product.id r.entry e = true :=
  (List.pairwise_append.1 (pairwise_append_drop h)).2.2 r.entry (List.mem_map_of_mem hr) e he

end Strategy

/-! ### Ordered answers -/

variable {requested : Int64}

/-- Chance gives its fixed score to all that it picks. -/
theorem score_eq_of_random {r : Recommendation α} (hr : r ∈ (recommend s w requested source).1)
    (h : r.strategy = .random) : r.score = w.randomScore := by
  have hanswering := (mem_recommend hr).1
  rw [h] at hanswering
  rw [recommend_of_answering hanswering] at hr
  obtain ⟨e, he, rfl⟩ := List.mem_map.1 hr
  exact Strategy.score_of_mem_ranking_random (List.mem_of_mem_take he)

/-- **An answer lists better recommendations first.** Of two of them the former has the higher score
in the total order of floating point numbers, or both have the same bits and, unless chance has
picked them, the identifier of the former is not higher. What a limit cuts off from the candidates
of another strategy than chance is in that order after all that is kept. If the catalog repeats no
identifier, neither does an answer. -/
theorem recommend_ranked (s : Snapshot Binary64) (w : Weights Binary64) (requested : Int64)
    (source : σ) :
    let answer := (recommend s w requested source).1
    answer.Pairwise (fun a b => b.score.rank < a.score.rank ∨
      a.score = b.score ∧ (a.strategy ≠ .random → a.product.id ≤ b.product.id)) ∧
    (∀ r ∈ answer, r.strategy = .random → r.score = w.randomScore) ∧
    (∀ strategy ≠ Strategy.random, AnsweredBy answer strategy →
      ∃ dropped, (answer.map (·.entry) ++ dropped).Perm (strategy.candidates s w) ∧
        ∀ r ∈ answer, ∀ e ∈ dropped, e.2.rank < r.score.rank ∨
          e.2 = r.score ∧ r.product.id ≤ e.1.id) ∧
    ((s.catalog.map (·.id)).Nodup → (answer.map (·.product.id)).Nodup) := by
  have hbefore {a b : Product Binary64 × Binary64} (h : Ranking.before Product.id a b = true) :
      b.2.rank < a.2.rank ∨ a.2 = b.2 ∧ a.1.id ≤ b.1.id :=
    (Ranking.before_iff.1 h).imp_left Std.compare_eq_lt.1
  refine ⟨?_, fun r => score_eq_of_random, ?_, nodup_recommend⟩
  · cases h : answering? s w with
    | none => simp [recommend_of_none h]
    | some strategy =>
      by_cases hrandom : strategy = .random
      · -- all scores are the fixed one
        have hstrategy {r} (hr : r ∈ (recommend s w requested source).1) : r.strategy = .random :=
          (strategy_of_mem_recommend h hr).trans hrandom
        refine List.pairwise_of_forall_mem_list ?_
        intro a ha b hb
        refine .inr ⟨?_, fun hne => absurd (hstrategy ha) hne⟩
        rw [score_eq_of_random ha (hstrategy ha), score_eq_of_random hb (hstrategy hb)]
      · rw [recommend_of_answering h]
        refine (Strategy.pairwise_answer hrandom).imp ?_
        intro a b hab
        exact (hbefore hab).imp_right fun ⟨hscore, hid⟩ => ⟨hscore, fun _ => hid⟩
  · intro strategy hne hanswered
    rw [recommend_of_answering (answeredBy_iff.1 hanswered)]
    refine ⟨(strategy.ranking s w source).1.drop (effectiveLimit requested), ?_, ?_⟩
    · rw [Strategy.answer_append_drop]
      exact Strategy.ranking_perm strategy source
    · intro r hr e he
      have hre := hbefore (Strategy.before_of_mem_drop hne hr he)
      exact hre.imp_right fun ⟨hscore, hid⟩ => ⟨hscore.symm, hid⟩

/-- The shop after two users have liked a book each, and not the same one. -/
def Shop.strangers : Snapshot Binary64 :=
  { Shop.snapshot with allLikes := [⟨1, 1, Shop.noon⟩, ⟨2, 2, Shop.noon⟩] }

/-- Weights with which a like is worth infinitely much; no likes are then worth no number at all. -/
def Weights.boundless : Weights Binary64 :=
  { Weights.standard with popularity := Binary64.infinity }

/-- With boundless weights the shop keeps the liked book and cuts off the one that scores a NaN. -/
theorem recommend_ranked_boundless :
    let answer := (recommend Shop.strangers .boundless 1 (Generator.tape [])).1
    AnsweredBy answer .contentBased ∧
    (∃ dropped, (answer.map (·.entry) ++ dropped).Perm
        (Strategy.contentBased.candidates Shop.strangers .boundless) ∧
      ∀ r ∈ answer, ∀ e ∈ dropped, e.2.rank < r.score.rank ∨
        e.2 = r.score ∧ r.product.id ≤ e.1.id) ∧
    (answer.map (·.product.id)).Nodup := by
  obtain ⟨-, -, hdropped, hnodup⟩ :=
    recommend_ranked Shop.strangers .boundless 1 (Generator.tape [])
  have hanswering : answering? Shop.strangers .boundless = some .contentBased := by decide +kernel
  have hanswered : AnsweredBy (recommend Shop.strangers .boundless 1 (Generator.tape [])).1
      .contentBased := answeredBy_iff.2 hanswering
  exact ⟨hanswered, hdropped .contentBased (by decide) hanswered, hnodup (by decide)⟩

example : (Strategy.contentBased.candidates Shop.strangers .boundless).map (·.2) =
    [Binary64.infinity, Binary64.undefined] := by decide +kernel

end Recommender
