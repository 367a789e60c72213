import Recommender.Proofs.Candidates

/-!
# Neighbours, declaratively

Who the neighbours of a user are and what they suggest, said without the bookkeeping of a strategy.

* `Neighbours.IsSimilar` : another user with a like on a product that the user knows.
* `Neighbours.similarity` : the weight of such likes, added up from zero.
* `Neighbours.IsNeighbour` : a similar user with fewer than `maxSimilarUsers` better ones.
* `Neighbours.mem_keys_chosen` : these are the users that the strategy asks.
* `Neighbours.ids_candidates_perm` : its candidates are the unseen products that they like, one for
  each identifier.
-/

namespace Recommender

namespace Neighbours

variable {α : Type}

/-! ### Similar users -/

section

variable (s : Snapshot α)

/-- Another user with a like on a product that the user knows. -/
def IsSimilar (v : UserId) : Prop :=
  v ≠ s.user ∧ ∃ l ∈ s.allLikes, l.user = v ∧ s.Knows l.product

instance : DecidablePred (IsSimilar s) := fun _ => inferInstanceAs (Decidable (_ ∧ _))

/-- The similar users, each once. -/
def similarUsers : List UserId :=
  (s.allLikes.map (·.user)).eraseDups.filter fun v => IsSimilar s v

/-- The likes of a user on products that the user who asks knows. -/
def sharedLikes (v : UserId) : Nat :=
  s.allLikes.countP fun l => l.user = v ∧ s.Knows l.product

variable {s}

theorem mem_similarUsers {v : UserId} : v ∈ similarUsers s ↔ IsSimilar s v := by
  simp only [similarUsers, List.mem_filter, List.mem_eraseDups, List.mem_map, decide_eq_true_eq]
  exact ⟨And.right, fun h => ⟨h.2.imp fun l hl => ⟨hl.1, hl.2.1⟩, h⟩⟩

theorem nodup_similarUsers : (similarUsers s).Nodup :=
  (nodup_eraseDups _).filter _

end

section

variable [Scalar α] (s : Snapshot α) (w : Weights α)

/-- The similarity of a user: the weight of a shared like, added to zero once for each of them. -/
def similarity (v : UserId) : α :=
  Scalar.sum (List.replicate (sharedLikes s v) w.coOccurrence)

/-- The user `u` stands before the user `v`: by a higher similarity, or at equal similarities by a
lower identifier. -/
def Ahead (u v : UserId) : Prop :=
  Scalar.totalOrder (similarity s w v) (similarity s w u) = .lt ∨
    Scalar.totalOrder (similarity s w v) (similarity s w u) = .eq ∧ u < v

instance (u v : UserId) : Decidable (Ahead s w u v) := inferInstanceAs (Decidable (_ ∨ _))

/-- A similar user before whom there are fewer similar users than the weights allow neighbours. -/
def IsNeighbour (v : UserId) : Prop :=
  IsSimilar s v ∧ (similarUsers s).countP (fun u => Ahead s w u v) < w.maxSimilarUsers

instance : DecidablePred (IsNeighbour s w) := fun _ => inferInstanceAs (Decidable (_ ∧ _))

/-- A product that a neighbour likes. -/
def Suggested (id : ProductId) : Prop :=
  ∃ l ∈ s.allLikes, l.product = id ∧ IsNeighbour s w l.user

instance : DecidablePred (Suggested s w) :=
  fun _ => inferInstanceAs (Decidable (∃ l ∈ s.allLikes, _))

end

variable [Scalar α] {s : Snapshot α} {w : Weights α}

/-! ### The bookkeeping of similarities -/

theorem mem_keys_similarities {v : UserId} :
    v ∈ (similarities s w).map (·.1) ↔ IsSimilar s v := by
  simp only [similarities, Tally.keys_totals, List.mem_eraseDups, List.map_map, List.mem_map,
    List.mem_filter, Function.comp_apply, Snapshot.mem_interacted, decide_eq_true_eq, IsSimilar]
  constructor
  · rintro ⟨l, ⟨hl, hne, hknown⟩, rfl⟩
    exact ⟨hne, l, hl, rfl, hknown⟩
  · rintro ⟨hne, l, hl, rfl, hknown⟩
    exact ⟨l, ⟨hl, hne, hknown⟩, rfl⟩

theorem nodup_keys_similarities : ((similarities s w).map (·.1)).Nodup :=
  Tally.nodup_keys_totals

theorem score_eq_similarity {e : UserId × α} (h : e ∈ similarities s w) :
    e.2 = similarity s w e.1 := by
  have hne : e.1 ≠ s.user := (mem_keys_similarities.1 (List.mem_map_of_mem h)).1
  rw [(Tally.mem_totals.1 h).2, Tally.total, Tally.amounts_const, List.countP_filter, similarity,
    sharedLikes]
  congr 2
  refine List.countP_congr fun l _ => ?_
  simp only [Snapshot.mem_interacted, Bool.and_eq_true, decide_eq_true_eq]
  constructor
  · rintro ⟨hl, -, hknown⟩
    exact ⟨hl, hknown⟩
  · rintro ⟨hl, hknown⟩
    exact ⟨hl, hl ▸ hne, hknown⟩

/-- The similarities are booked for the similar users, up to their order. -/
theorem similarities_perm :
    (similarities s w).Perm ((similarUsers s).map fun v => (v, similarity s w v)) := by
  have hscored : similarities s w =
      ((similarities s w).map (·.1)).map fun v => (v, similarity s w v) := by
    rw [List.map_map]
    refine (List.map_id _).symm.trans (List.map_congr_left ?_)
    intro e he
    exact Prod.ext rfl (score_eq_similarity he)
  have hkeys : ((similarities s w).map (·.1)).Perm (similarUsers s) :=
    (List.perm_ext_iff_of_nodup nodup_keys_similarities nodup_similarUsers).2 fun v => by
      rw [mem_keys_similarities, mem_similarUsers]
  rw [hscored]
  exact hkeys.map _

/-! ### The neighbours and their suggestions -/

theorem ahead_iff {u v : UserId} :
    Ranking.ahead id (u, similarity s w u) (v, similarity s w v) = true ↔ Ahead s w u v := by
  rw [Ranking.ahead, Ranking.order, Ordering.isLT_iff_eq_lt, Ordering.then_eq_lt,
    Std.compare_eq_lt, Ahead]
  rfl

variable [LawfulScalar α]

/-- The strategy asks just the neighbours. -/
theorem mem_keys_chosen {v : UserId} :
    v ∈ (chosen w (similarities s w)).map (·.1) ↔ IsNeighbour s w v := by
  have hcount (v : UserId) :
      (similarities s w).countP (Ranking.ahead id · (v, similarity s w v)) =
        (similarUsers s).countP (fun u => Ahead s w u v) := by
    rw [similarities_perm.countP_eq, List.countP_map]
    apply List.countP_congr
    intro u _
    rw [decide_eq_true_eq]
    exact ahead_iff
  rw [List.mem_map, IsNeighbour, ← mem_keys_similarities (w := w), List.mem_map]
  constructor
  · rintro ⟨e, he, rfl⟩
    obtain ⟨hmem, hlt⟩ := (Ranking.mem_top_iff nodup_keys_similarities).1 he
    refine ⟨⟨e, hmem, rfl⟩, ?_⟩
    rwa [← hcount, ← score_eq_similarity hmem]
  · rintro ⟨⟨e, hmem, rfl⟩, hlt⟩
    refine ⟨e, (Ranking.mem_top_iff nodup_keys_similarities).2 ⟨hmem, ?_⟩, rfl⟩
    rwa [← hcount, ← score_eq_similarity hmem] at hlt

/-- The candidates are the unseen products that neighbours like, one for each identifier. -/
theorem ids_candidates_perm :
    ((Strategy.collaborative.candidates s w).map (·.1.id)).Perm
      ((s.unseen.filter fun p => Suggested s w p.id).map (·.id)).eraseDups := by
  have hvotes : ((votes s (chosen w (similarities s w))).map (·.1)).Nodup := Tally.nodup_keys_totals
  rw [Strategy.candidates, ids_candidates]
  -- both lists hold an identifier at most once, so they agree if they hold the same ones
  rw [List.perm_ext_iff_of_nodup (hvotes.filter _) (nodup_eraseDups _)]
  intro id
  rw [List.mem_filter, mem_keys_votes, List.mem_eraseDups, List.mem_map, Snapshot.product?_isSome]
  simp only [mem_keys_chosen, List.mem_filter, Snapshot.mem_unseen, decide_eq_true_eq]
  constructor
  · rintro ⟨⟨hnew, hliked⟩, p, hp, rfl⟩
    exact ⟨p, ⟨⟨hp, hnew⟩, hliked⟩, rfl⟩
  · rintro ⟨p, ⟨⟨hp, hnew⟩, hliked⟩, rfl⟩
    exact ⟨⟨hnew, hliked⟩, p, hp, rfl⟩

end Neighbours

end Recommender
