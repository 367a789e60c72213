import Recommender.Proofs.Answer
import Recommender.Proofs.Sorting
import Recommender.Proofs.TotalOrder

/-!
# The best of some candidates

A shortlist keeps the best of some candidates, on scores of any bits and with identifiers that may
repeat. It is the beginning of one ranking, which has no choice left, so it does not matter whether
candidates are ranked again, given in another order, or ranked in parts first.

* `Ranks` : a list ranks candidates; `ranks_iff` says that there is one such list.
* `Ranking.take_top`, `Ranking.top_top` : a lesser limit only truncates, and to rank again what is
  kept changes nothing.
* `Ranking.top_append` : the best of all are the best of the best of two parts.
* `Shortlist.ranked_canonical` : what this means for shortlists.
-/

namespace Recommender

/-! ### Rankings and their beginnings -/

namespace Ranking

variable {α β : Type} [Scalar α] {id : β → Int64} {entries : List (β × α)} {k n : Nat}

theorem take_top (h : k ≤ n) : (top id n entries).take k = top id k entries := by
  rw [top, top, List.take_take, Nat.min_eq_left h]

theorem length_top : (top id n entries).length = min n entries.length := by
  rw [top, List.length_take, List.length_mergeSort]

variable [LawfulScalar α]

/-- To rank again what a limit keeps changes nothing, if the other limit keeps it, too. -/
theorem top_top (h : (top id k entries).length ≤ n) :
    top id n (top id k entries) = top id k entries := by
  have hsorted : (top id k entries).Pairwise (before id · · = true) := pairwise_before.take
  rw [top, List.mergeSort_of_pairwise hsorted, List.take_of_length_le h]

theorem top_append (first second : List (β × α)) :
    top id k (top id k first ++ top id k second) = top id k (first ++ second) :=
  take_mergeSort_append before_trans before_total k first second

end Ranking

/-! ### The ranking of candidates -/

/-- A list ranks candidates: it holds all of them, those with the higher score first, of equal
scores those with the lower identifier, and what agrees in both in its given order. -/
structure Ranks (given ranking : List (Product Binary64 × Binary64)) : Prop where
  /-- The list holds the candidates. -/
  perm : ranking.Perm given
  /-- The better ones come first. -/
  ordered : ranking.Pairwise fun e f => f.2.Precedes e.2 ∨ e.2 = f.2 ∧ e.1.id ≤ f.1.id
  /-- Ties keep their order. -/
  stable : ∀ score id, ranking.filter (fun e => e.2 = score ∧ e.1.id = id) =
    given.filter fun e => e.2 = score ∧ e.1.id = id

variable {given ranking : List (Product Binary64 × Binary64)}

theorem before_iff_precedes {e f : Product Binary64 × Binary64} :
    Ranking.before Product.id e f = true ↔
      f.2.Precedes e.2 ∨ e.2 = f.2 ∧ e.1.id ≤ f.1.id := by
  rw [Ranking.before_iff, Binary64.precedes_iff]
  exact or_congr_left Std.compare_eq_lt

theorem tied_before_eq (a : Product Binary64 × Binary64) :
    tied (Ranking.before Product.id) a =
      fun e : Product Binary64 × Binary64 => decide (e.2 = a.2 ∧ e.1.id = a.1.id) := by
  funext e
  rw [Bool.eq_iff_iff, Ranking.tied_before_iff, decide_eq_true_iff, eq_comm (a := a.2),
    eq_comm (a := a.1.id)]

/-- There is one ranking of some candidates. -/
theorem ranks_iff :
    Ranks given ranking ↔ ranking = given.mergeSort (Ranking.before Product.id) := by
  constructor
  · rintro ⟨-, hordered, hstable⟩
    refine Ranking.sorts_iff.1 ⟨hordered.imp before_iff_precedes.2, fun a => ?_⟩
    rw [tied_before_eq]
    exact hstable a.2 a.1.id
  · rintro rfl
    obtain ⟨hordered, hstable⟩ := sorts_mergeSort Ranking.before_trans Ranking.before_total given
    refine ⟨List.mergeSort_perm given _, hordered.imp before_iff_precedes.1, fun score id => ?_⟩
    by_cases h : ∃ a : Product Binary64 × Binary64, a.2 = score ∧ a.1.id = id
    · obtain ⟨a, rfl, rfl⟩ := h
      rw [← tied_before_eq]
      exact hstable a
    · -- nothing is of this class, whatever the list
      have hnone (l : List (Product Binary64 × Binary64)) :
          l.filter (fun e => decide (e.2 = score ∧ e.1.id = id)) = [] :=
        List.filter_eq_nil_iff.2 fun e _ he => h ⟨e, of_decide_eq_true he⟩
      rw [hnone, hnone]

/-- Candidates with NaNs and zeros of both signs as scores, the last two at one place. -/
def Shop.contested : List (Product Binary64 × Binary64) :=
  [(product 3 "book", Binary64.undefined), (product 2 "book", -0.0),
    (product 5 "tool", Binary64.nan), (product 1 "book", 0.0), (product 4 "lamp", 0.0),
    (product 4 "tool", 0.0)]

namespace Shortlist

theorem entries_ranked {α : Type} [Scalar α] (candidates : List (Product α × α)) (limit : Nat) :
    (ranked candidates limit).entries = Ranking.top Product.id limit candidates :=
  entries_ofEntries _

/-- **A shortlist is the beginning of the one ranking of its candidates.** It has as many scores as
products. Within a limit that cuts nothing off, it is the list that ranks the candidates. A lesser
limit only truncates. To rank a shortlist again changes nothing, unless the limit cuts it off. If no
two candidates agree in identifier and in the bits of their scores, they may be given in any order.
And candidates may be ranked in two parts first: the best of the best of each are the best of
all. -/
theorem ranked_canonical :
    (∀ (candidates : List (Product Binary64 × Binary64)) (limit : Nat),
      (ranked candidates limit).products.length = min limit candidates.length ∧
      (ranked candidates limit).scores.length = min limit candidates.length) ∧
    (∀ (candidates : List (Product Binary64 × Binary64)) (limit : Nat),
      candidates.length ≤ limit →
      ∀ ranking, Ranks candidates ranking ↔ ranking = (ranked candidates limit).entries) ∧
    (∀ (candidates : List (Product Binary64 × Binary64)) (k n : Nat), k ≤ n →
      (ranked candidates k).products = (ranked candidates n).products.take k ∧
      (ranked candidates k).scores = (ranked candidates n).scores.take k) ∧
    (∀ (candidates : List (Product Binary64 × Binary64)) (k n : Nat),
      (ranked candidates k).products.length ≤ n →
      ranked (ranked candidates k).entries n = ranked candidates k) ∧
    (∀ candidates candidates' : List (Product Binary64 × Binary64),
      candidates.Perm candidates' → (candidates.map fun e => (e.2.bits, e.1.id)).Nodup →
      ∀ limit, ranked candidates limit = ranked candidates' limit) ∧
    ∀ (first second : List (Product Binary64 × Binary64)) (k : Nat),
      ranked ((ranked first k).entries ++ (ranked second k).entries) k =
        ranked (first ++ second) k := by
  refine ⟨?_, ?_, ?_, ?_, ?_, ?_⟩
  · intro candidates limit
    simp [ranked, Ranking.length_top]
  · intro candidates limit hlimit ranking
    rw [ranks_iff, entries_ranked, Ranking.top, List.take_of_length_le]
    rwa [List.length_mergeSort]
  · intro candidates k n h
    simp only [ranked, ← List.map_take, Ranking.take_top h, and_self]
  · intro candidates k n h
    have hkept : (Ranking.top Product.id k candidates).length ≤ n := by
      simpa [ranked] using h
    rw [entries_ranked, ranked, Ranking.top_top hkept, ranked]
  · intro candidates candidates' hperm distinct limit
    have hpairs : (candidates.map fun e => (e.2, e.1.id)).Nodup := by
      refine .of_map (fun pair => (pair.1.bits, pair.2)) ?_
      rwa [List.map_map]
    rw [ranked, Ranking.top, Ranking.mergeSort_eq_of_nodup hpairs hperm, ranked, Ranking.top]
  · intro first second k
    rw [entries_ranked, entries_ranked, ranked, Ranking.top_append, ranked]

open Shop in
/-- The NaN without the sign comes first and the one with it last, the zero with the sign behind the
others. The lamp and the tool with its identifier are tied and keep their order. Without this tool
it does not matter how the candidates are given. -/
theorem ranked_canonical_contested :
    contested.length ≤ 6 ∧
    [(product 5 "tool", Binary64.nan), (product 1 "book", 0.0), (product 4 "lamp", 0.0),
      (product 4 "tool", 0.0), (product 2 "book", -0.0), (product 3 "book", Binary64.undefined)] =
      (ranked contested 6).entries ∧
    (ranked contested 2).products = (ranked contested 6).products.take 2 ∧
    (ranked contested 4).products.length ≤ 6 ∧
    ranked (ranked contested 4).entries 6 = ranked contested 4 ∧
    (contested.dropLast.map fun e => (e.2.bits, e.1.id)).Nodup ∧
    ranked contested.dropLast 3 = ranked contested.dropLast.reverse 3 := by
  obtain ⟨hlength, hranks, htake, hagain, hperm, -⟩ := ranked_canonical
  have hfew : contested.length ≤ 6 := by decide
  have hkept : (ranked contested 4).products.length ≤ 6 := by
    rw [(hlength contested 4).1]
    decide
  have hdistinct : (contested.dropLast.map fun e => (e.2.bits, e.1.id)).Nodup := by decide +kernel
  refine ⟨hfew, (hranks contested 6 hfew _).1 ?_, (htake contested 2 6 (by decide)).1, hkept,
    hagain contested 4 6 hkept, hdistinct, hperm _ _ (List.reverse_perm _).symm hdistinct 3⟩
  exact ranks_iff.2 <| Ranking.sorts_iff.1 <|
    sorts_of_perm Ranking.before_trans (by decide +kernel) (by decide +kernel) (by decide +kernel)

end Shortlist

end Recommender
