import Recommender.Service
import Recommender.Proofs.Answer

/-!
# Limits only truncate

A greater limit gives the same recommendations and possibly more after them: neither the choice of
the strategy, nor the order, nor what is drawn from the source of indices depends on the limit.

* `Strategy.answer_take` : a strategy's answer within a limit is the beginning of its answer within
  a greater one.
* `recommend_take` : the same of the answer to a user, and of the answer of a seeded service.
-/

namespace Recommender

variable {α σ : Type} [Scalar α] [IndexSource σ] {s : Snapshot α} {w : Weights α} {source : σ}

theorem Strategy.answer_take (strategy : Strategy) {k limit : Nat} (h : k ≤ limit) :
    strategy.answer s w k source =
      ((strategy.answer s w limit source).1.take k, (strategy.answer s w limit source).2) := by
  rw [answer, answer, ← List.map_take, List.take_take, Nat.min_eq_left h]

theorem recommend_eq_take {m n : Int64} (h : effectiveLimit m ≤ effectiveLimit n) :
    recommend s w m source =
      ((recommend s w n source).1.take (effectiveLimit m), (recommend s w n source).2) := by
  cases hs : answering? s w with
  | none => simp [recommend_of_none hs]
  | some strategy =>
    rw [recommend_of_answering hs, recommend_of_answering hs, Strategy.answer_take strategy h]

theorem Outcome.map_map {β γ δ : Type} (f : β → γ) (g : γ → δ) (o : Outcome β) :
    (o.map f).map g = o.map (g ∘ f) := by
  cases o <;> rfl

/-- **A limit only truncates.** Within a lesser limit the answer is the beginning of the answer
within a greater one, and leaves the same source of indices. The same holds of the answers of two
services of one seed and equal weights that fetch the same, whatever the chance outside; what they
do not fetch fails or stays silent within either limit. -/
theorem recommend_take (m n : Int64) (h : effectiveLimit m ≤ effectiveLimit n) :
    (∀ (s : Snapshot α) (w : Weights α) (source : σ),
      (recommend s w m source).1 = (recommend s w n source).1.take (effectiveLimit m) ∧
      (recommend s w m source).2 = (recommend s w n source).2) ∧
    ∀ (first second : Service α) (seed : UInt64) (user : UserId) (now : Instant)
      (entropy entropy' : Generator), first.weights = second.weights →
      first.seed = some seed → second.seed = some seed →
      first.fetch user now = second.fetch user now →
      first.recommendations user m now entropy =
        (second.recommendations user n now entropy').map (·.take (effectiveLimit m)) := by
  constructor
  · intro s w source
    rw [recommend_eq_take h]
    exact ⟨rfl, rfl⟩
  · intro first second seed user now entropy entropy' hweights hfirst hsecond hfetch
    -- a seed leaves no part to the chance outside
    have hgen : first.generator entropy = second.generator entropy' := by
      rw [Service.generator, Service.generator, hfirst, hsecond]
    rw [Service.recommendations, Service.recommendations, Outcome.map_map, hgen, hweights, hfetch]
    congr 1
    funext snapshot
    rw [Function.comp_apply, recommend_eq_take h]

/-- The busy shop with a seed, and with some orders. -/
def Shop.service (orders : List Order) : Service Binary64 :=
  ⟨.memory Shop.products Shop.busyLikes orders, .standard, Service.standardPageSize, some 7⟩

/-- In the busy shop there are three recommendations for the first user, of which a limit of two
keeps the first ones. An order of the second user is not fetched for the first one. -/
theorem recommend_take_shop :
    effectiveLimit 2 ≤ effectiveLimit 0 ∧
    (recommend Shop.busy .standard 0 (Generator.tape [])).1.length = 3 ∧
    (recommend Shop.busy .standard 2 (Generator.tape [])).1.length = 2 ∧
    (recommend Shop.busy .standard 2 (Generator.tape [])).1 =
      (recommend Shop.busy .standard 0 (Generator.tape [])).1.take (effectiveLimit 2) ∧
    (Shop.service []).recommendations 1 2 Shop.noon (.tape []) =
      ((Shop.service [⟨1, 2, [⟨3, 1⟩]⟩]).recommendations 1 0 Shop.noon (.tape [5])).map
        (·.take (effectiveLimit 2)) := by
  have hlimit : effectiveLimit 2 ≤ effectiveLimit 0 := by decide
  have hall : (recommend Shop.busy .standard 0 (Generator.tape [])).1.length = 3 := by
    rw [recommend_of_answering Shop.answering_busy, length_answer, Shop.candidates_busy]
    decide
  have hfetch : (Shop.service []).fetch 1 Shop.noon =
      (Shop.service [⟨1, 2, [⟨3, 1⟩]⟩]).fetch 1 Shop.noon := rfl
  obtain ⟨hanswer, hservice⟩ := recommend_take (α := Binary64) (σ := Generator) 2 0 hlimit
  obtain ⟨htake, -⟩ := hanswer Shop.busy .standard (.tape [])
  refine ⟨hlimit, hall, ?_, htake,
    hservice _ _ 7 1 Shop.noon (.tape []) (.tape [5]) rfl rfl rfl hfetch⟩
  rw [htake, List.length_take, hall]
  decide

end Recommender
