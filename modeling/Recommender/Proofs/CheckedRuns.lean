import Recommender.Proofs.Checked
import Recommender.Proofs.Conversion

/-!
# Runs without divisions

Sums of bookings and rankings divide by nothing, and so do the strategies that look at likes alone:
on checked scalars they do what they do on plain ones.

* `Tally.totals_number`, `Shortlist.ranked_number` : sums of bookings, and rankings.
* `Neighbours.shortlist_number`, `Popularity.shortlist_number` : what similar users like, and what
  many users like.
-/

namespace Recommender

open Checked (number)

variable {α : Type} [Scalar α]

/-! ### Sums and rankings -/

section

variable {κ : Type} [DecidableEq κ] (bookings : List (κ × α))

theorem Tally.total_number (key : κ) :
    total (bookings.map (Prod.map id number)) key = number (total bookings key) := by
  rw [total, total, List.filter_map, List.map_map, ← Checked.sum_number, List.map_map]
  rfl

theorem Tally.totals_number :
    totals (bookings.map (Prod.map id number)) = (totals bookings).map (Prod.map id number) := by
  have hkeys : (bookings.map (Prod.map id number)).map (·.1) = bookings.map (·.1) := by
    rw [List.map_map]
    rfl
  rw [totals, totals, hkeys, List.map_map]
  refine List.map_congr_left fun key _ => ?_
  rw [total_number]
  rfl

end

theorem Ranking.top_number {β γ : Type} {id : β → Int64} {id' : γ → Int64} (f : β → γ)
    (h : ∀ b, id' (f b) = id b) (limit : Nat) (entries : List (β × α)) :
    top id' limit (entries.map (Prod.map f number)) =
      (top id limit entries).map (Prod.map f number) := by
  -- a stable sort depends on nothing but the outcomes of comparisons
  have hbefore : ∀ a ∈ entries, ∀ b ∈ entries,
      before id a b = before id' (Prod.map f number a) (Prod.map f number b) := by
    intro a _ b _
    simp only [before, Prod.map_fst, Prod.map_snd, h, Checked.totalOrder_number]
  rw [top, top, ← List.map_mergeSort hbefore, List.map_take]

theorem Shortlist.ranked_number (candidates : List (Product α × α)) (limit : Nat) :
    ranked (candidates.map (Prod.map (Product.map number) number)) limit =
      (ranked candidates limit).map number := by
  rw [ranked, ranked, Ranking.top_number (Product.map number) (Product.id_map number), map]
  simp only [List.map_map, Function.comp_def, Prod.map_fst, Prod.map_snd]

/-! ### What similar users like -/

namespace Neighbours

variable (s : Snapshot α) (w : Weights α)

theorem similarities_number : similarities (s.map number) (w.map number) =
    (similarities s w).map (Prod.map id number) := by
  rw [similarities, similarities, ← Tally.totals_number, List.map_map]
  rfl

theorem chosen_number (similarities : List (UserId × α)) :
    chosen (w.map number) (similarities.map (Prod.map id number)) =
      (chosen w similarities).map (Prod.map id number) :=
  Ranking.top_number id (fun _ => rfl) w.maxSimilarUsers similarities

theorem votes_number (neighbours : List (UserId × α)) :
    votes (s.map number) (neighbours.map (Prod.map id number)) =
      (votes s neighbours).map (Prod.map id number) := by
  rw [votes, votes, ← Tally.totals_number, List.map_filterMap]
  simp only [Table.lookup_map, Option.map_map]
  rfl

theorem shortlist_number (limit : Nat) :
    shortlist (s.map number) (w.map number) limit = (shortlist s w limit).map number := by
  simp only [shortlist, similarities_number, chosen_number, List.isEmpty_map, votes_number,
    candidates_map, Shortlist.ranked_number, Snapshot.interacted_map]
  split_ifs <;> rfl

end Neighbours

/-! ### What many users like -/

namespace Popularity

variable (s : Snapshot α)

theorem candidates_number : candidates (s.map number) =
    (candidates s).map (Prod.map (Product.map number) number) := by
  rw [candidates, candidates, Snapshot.unseen_map, List.filter_map, List.map_map, List.map_map]
  rfl

theorem shortlist_number (limit : Nat) :
    shortlist (s.map number) limit = (shortlist s limit).map number := by
  simp only [shortlist, candidates_number, Shortlist.ranked_number, Snapshot.allLikes_map]
  split_ifs <;> rfl

end Popularity

end Recommender
