import Recommender.Proofs.Ledger
import Recommender.Proofs.Votes

/-!
# The order of enumeration

Similarities and votes are kept in ledgers, which have no order. The neighbours are found by
enumerating the one, and the candidates by enumerating the other, and each time any order may come
up. Both lists are sorted by an order without ties before they are cut, so no answer shows it.

* `Neighbours.MayYield` : a shortlist that some orders of enumeration lead to.
* `Neighbours.mayYield_iff` : there is one such list.
* `Neighbours.shortlist_enumerated` : this holds for all floating point numbers, and every
  permutation of similarities and votes is an order that may come up.
-/

namespace Recommender

namespace Neighbours

variable {α : Type} [Scalar α]

/-- What is booked on the other users: the weight of each like on a product that the user knows. -/
def credits (s : Snapshot α) (w : Weights α) : List (UserId × α) :=
  (s.allLikes.filter fun l => l.user ≠ s.user ∧ l.product ∈ s.interacted).map fun l =>
    (l.user, w.coOccurrence)

theorem similarities_eq (s : Snapshot α) (w : Weights α) :
    similarities s w = Tally.totals (credits s w) := rfl

/-- A shortlist that the strategy may yield. The ledgers of credits and of ballots are enumerated in
whatever order. -/
inductive MayYield (s : Snapshot α) (w : Weights α) (limit : Nat) : Shortlist α → Prop
  /-- The user knows nothing. -/
  | nothing (unknown : s.interacted = []) : MayYield s w limit .empty
  /-- Nobody is chosen from the ledger of credits. -/
  | nobody {users : List (UserId × α)} (known : s.interacted ≠ [])
      (enumerates : Tally.Enumerates users (Tally.ledger (credits s w)))
      (unchosen : chosen w users = []) : MayYield s w limit .empty
  /-- Those who are chosen vote, and the best candidates of the ledger of ballots are kept. -/
  | somebody {users : List (UserId × α)} {products : List (ProductId × α)}
      (known : s.interacted ≠ [])
      (enumerates : Tally.Enumerates users (Tally.ledger (credits s w)))
      (elected : chosen w users ≠ [])
      (enumerates' : Tally.Enumerates products (Tally.ledger (ballots s (chosen w users)))) :
      MayYield s w limit (.ranked (candidates s products) limit)

variable [LawfulScalar α] {s : Snapshot α} {w : Weights α} {limit : Nat}

/-- No two users are tied, so a cut falls between the same ones in whatever order they are found. -/
theorem chosen_eq_of_enumerates {users : List (UserId × α)}
    (h : Tally.Enumerates users (Tally.ledger (credits s w))) :
    chosen w users = chosen w (similarities s w) := by
  have hperm : users.Perm (similarities s w) := Tally.enumerates_iff.1 h
  exact congrArg (List.take w.maxSimilarUsers) (Ranking.mergeSort_eq_of_perm h.nodup hperm)

/-- No two candidates are tied either. -/
theorem ranked_eq_of_enumerates {panel : List (UserId × α)} {products : List (ProductId × α)}
    (h : Tally.Enumerates products (Tally.ledger (ballots s panel))) :
    Shortlist.ranked (candidates s products) limit =
      Shortlist.ranked (candidates s (votes s panel)) limit := by
  have hperm : (candidates s products).Perm (candidates s (votes s panel)) :=
    (Tally.enumerates_iff.1 h).filterMap _
  have hids : ((candidates s products).map (·.1.id)).Nodup :=
    (hperm.map _).nodup_iff.2 nodup_candidates
  have hsorted := Ranking.mergeSort_eq_of_perm hids hperm
  simp only [Shortlist.ranked, Ranking.top, hsorted]

theorem mayYield_iff {list : Shortlist α} :
    MayYield s w limit list ↔ list = shortlist s w limit := by
  constructor
  · intro h
    cases h with
    | nothing unknown => simp [shortlist, unknown]
    | nobody known enumerates unchosen =>
      rw [chosen_eq_of_enumerates enumerates] at unchosen
      simp [shortlist, unchosen]
    | somebody known enumerates elected enumerates' =>
      rw [ranked_eq_of_enumerates enumerates', chosen_eq_of_enumerates enumerates, shortlist_eq]
  · rintro rfl
    have husers : Tally.Enumerates (similarities s w) (Tally.ledger (credits s w)) :=
      Tally.enumerates_iff.2 (.refl _)
    by_cases hknown : s.interacted = []
    · have hempty : shortlist s w limit = .empty := by simp [shortlist, hknown]
      rw [hempty]
      exact .nothing hknown
    · by_cases hchosen : chosen w (similarities s w) = []
      · have hempty : shortlist s w limit = .empty := by simp [shortlist, hchosen]
        rw [hempty]
        exact .nobody hknown husers hchosen
      · rw [shortlist_eq]
        exact .somebody hknown husers hchosen (Tally.enumerates_iff.2 (.refl _))

/-- **The order of enumeration does not show.** Whatever floating point numbers are booked, and
whatever a cut falls between, the strategy may yield one shortlist only. All permutations of the
similarities, and all of the votes of any panel, are orders that may come up. -/
theorem shortlist_enumerated (s : Snapshot Binary64) (w : Weights Binary64) :
    (∀ limit list, MayYield s w limit list ↔ list = shortlist s w limit) ∧
    (∀ users, Tally.Enumerates users (Tally.ledger (credits s w)) ↔
      users.Perm (similarities s w)) ∧
    ∀ panel products, Tally.Enumerates products (Tally.ledger (ballots s panel)) ↔
      products.Perm (votes s panel) :=
  ⟨fun _ _ => mayYield_iff, fun _ => Tally.enumerates_iff, fun _ _ => Tally.enumerates_iff⟩

end Neighbours

end Recommender
