import Recommender.Fallback
import Recommender.Proofs.Knowledge
import Recommender.Proofs.Ranking
import Recommender.Proofs.Shuffle
import Recommender.Proofs.Tally

/-!
# Candidates of the strategies

A strategy has candidates, which depend neither on a limit nor on chance, and puts them into an
order, in which chance may have a part. A limit only cuts that order.

* `Strategy.candidates` : the products that a strategy could pick, with scores.
* `Strategy.ranking` : all of them in the order of the strategy, and the source of indices after it.
* `Strategy.shortlist_eq` : every shortlist is the beginning of the ranking.
* `Strategy.ranking_perm` : the ranking is made of the candidates.
* `Strategy.candidates_contentBased_congr` and the like : all that a strategy knows of a snapshot.
* `Strategy.products_shortlist_perm` : within the size of the catalog nothing is cut off.
* `Strategy.mem_unseen_of_mem_candidates`, `Strategy.nodup_candidates` : candidates are unseen, and
  none has two scores if the catalog repeats no identifier.
-/

namespace Recommender

variable {α σ : Type} [Scalar α]

@[simp]
theorem Shortlist.ranked_nil (limit : Nat) : (.ranked [] limit : Shortlist α) = .empty := by
  simp [ranked, Ranking.top, empty]

/-! ### What similar users like -/

namespace Neighbours

variable {s : Snapshot α} {w : Weights α}

@[simp]
theorem votes_nil : votes s ([] : List (UserId × α)) = [] := by
  simp [votes, Tally.totals]

/-- A user who knows nothing is similar to nobody. -/
theorem similarities_of_interacted_nil (h : s.interacted = []) : similarities s w = [] := by
  simp [similarities, h, Tally.totals]

theorem shortlist_eq (limit : Nat) :
    shortlist s w limit = .ranked (candidates s (votes s (chosen w (similarities s w)))) limit := by
  have hnone : (.ranked (candidates s []) limit : Shortlist α) = .empty := by simp [candidates]
  simp only [shortlist]
  -- both early exits stand where nobody could vote
  split_ifs with hknown hchosen
  · have hnobody : chosen w (similarities s w) = [] := by
      rw [similarities_of_interacted_nil (List.isEmpty_iff.1 hknown)]
      simp [chosen, Ranking.top]
    rw [hnobody, votes_nil, hnone]
  · rw [List.isEmpty_iff.1 hchosen, votes_nil, hnone]
  · rfl

theorem mem_keys_votes {neighbours : List (UserId × α)} {id : ProductId} :
    id ∈ (votes s neighbours).map (·.1) ↔
      ¬ s.Knows id ∧ ∃ l ∈ s.allLikes, l.product = id ∧ l.user ∈ neighbours.map (·.1) := by
  have found (user : UserId) :
      user ∈ neighbours.map (·.1) ↔ ∃ x, neighbours.lookup user = some x := by
    rw [← Option.isSome_iff_exists, List.lookup_isSome_iff, List.mem_map]
    exact exists_congr fun e => and_congr_right fun _ => by rw [beq_iff_eq, eq_comm]
  simp only [votes, Tally.keys_totals, List.mem_eraseDups, List.map_filterMap, List.mem_filterMap,
    List.mem_filter, Snapshot.mem_interacted, decide_eq_true_eq, Option.map_map,
    Option.map_eq_some_iff, Function.comp_apply, found]
  constructor
  · rintro ⟨l, ⟨hl, hnew⟩, x, hx, rfl⟩
    exact ⟨hnew, l, hl, rfl, x, hx⟩
  · rintro ⟨hnew, l, hl, rfl, x, hx⟩
    exact ⟨l, ⟨hl, hnew⟩, x, hx, rfl⟩

omit [Scalar α] in
/-- A candidate is the entry that stands for what was voted for, with the votes. -/
theorem mem_candidates_iff {votes : List (ProductId × α)} {e : Product α × α} :
    e ∈ candidates s votes ↔ s.Stands e.1 ∧ (e.1.id, e.2) ∈ votes := by
  rw [candidates, List.mem_filterMap]
  constructor
  · rintro ⟨v, hv, he⟩
    obtain ⟨p, hp, rfl⟩ := Option.map_eq_some_iff.1 he
    obtain ⟨hstands, hid⟩ := Snapshot.product?_eq_some_iff_stands.1 hp
    exact ⟨hstands, hid ▸ hv⟩
  · rintro ⟨hstands, hv⟩
    exact ⟨_, hv, by simp [Snapshot.product?_eq_some_iff_stands.2 ⟨hstands, rfl⟩]⟩

omit [Scalar α] in
/-- The candidates are the entries of the catalog for what was voted for. -/
theorem products_candidates (votes : List (ProductId × α)) :
    (candidates s votes).map (·.1) = (votes.map (·.1)).filterMap s.product? := by
  rw [candidates, List.map_filterMap, List.filterMap_map]
  simp [Function.comp_def]

omit [Scalar α] in
/-- The candidates carry the identifiers that were voted for, as far as the catalog has them. -/
theorem ids_candidates (votes : List (ProductId × α)) :
    (candidates s votes).map (·.1.id) =
      (votes.map (·.1)).filter fun id => (s.product? id).isSome := by
  induction votes with
  | nil => rfl
  | cons v votes ih =>
    cases h : s.product? v.1 with
    | none => simpa [candidates, h] using ih
    | some p => simpa [candidates, h, (Snapshot.product?_eq_some h).2] using ih

/-- Votes are collected by identifier, so no candidate repeats one, even if the catalog does. -/
theorem nodup_candidates {neighbours : List (UserId × α)} :
    ((candidates s (votes s neighbours)).map (·.1.id)).Nodup := by
  rw [ids_candidates]
  exact Tally.nodup_keys_totals.filter _

theorem mem_unseen_of_mem_candidates {neighbours : List (UserId × α)} {e : Product α × α}
    (h : e ∈ candidates s (votes s neighbours)) : e.1 ∈ s.unseen := by
  obtain ⟨hstands, hvotes⟩ := mem_candidates_iff.1 h
  obtain ⟨hnew, -⟩ := mem_keys_votes.1 (List.mem_map_of_mem hvotes)
  exact Snapshot.mem_unseen.2 ⟨hstands.mem, hnew⟩

end Neighbours

/-! ### What resembles the user's taste, and what many users like -/

theorem Taste.products_candidates {s : Snapshot α} {w : Weights α} :
    (candidates s w).map (·.1) =
      s.unseen.filter fun p => ¬ preference (history s w) p.category ≤ Scalar.ofNat 0 := by
  rw [candidates, List.map_filterMap, ← List.filterMap_eq_filter]
  refine List.filterMap_congr fun p _ => ?_
  by_cases h : preference (history s w) p.category ≤ Scalar.ofNat 0 <;> simp [h, Option.guard]

theorem Popularity.products_candidates {s : Snapshot α} :
    (candidates s).map (·.1) = s.unseen.filter fun p => 0 < s.likeCount p.id := by
  simp [candidates, Function.comp_def]

/-! ### The candidates of a strategy -/

namespace Strategy

/-- The products that a strategy could pick, with their scores. -/
def candidates (s : Snapshot α) (w : Weights α) : Strategy → List (Product α × α)
  | collaborative =>
    Neighbours.candidates s (Neighbours.votes s (Neighbours.chosen w (Neighbours.similarities s w)))
  | contentBased => if (Taste.history s w).isEmpty then [] else Taste.candidates s w
  | popularity => Popularity.candidates s
  | random => s.unseen.map (·, w.randomScore)

/-- The candidates in the order of the strategy, and the source of indices after it. -/
def ranking [IndexSource σ] (strategy : Strategy) (s : Snapshot α) (w : Weights α) (source : σ) :
    List (Product α × α) × σ :=
  match strategy with
  | random =>
    let (shuffled, source) := shuffle s.unseen source
    (shuffled.map (·, w.randomScore), source)
  | other => ((other.candidates s w).mergeSort (Ranking.before Product.id), source)

variable {s : Snapshot α} {w : Weights α}

/-- The candidates that are read off the catalog keep its order. -/
theorem products_candidates_sublist {strategy : Strategy} (h : strategy ≠ collaborative) :
    ((strategy.candidates s w).map (·.1)).Sublist s.unseen := by
  cases strategy with
  | collaborative => exact absurd rfl h
  | contentBased =>
    simp only [candidates]
    split_ifs
    · exact List.nil_sublist _
    · rw [Taste.products_candidates]
      exact List.filter_sublist
  | popularity =>
    simp only [candidates]
    rw [Popularity.products_candidates]
    exact List.filter_sublist
  | random => simp [candidates, Function.comp_def]

/-- Taste knows a snapshot by its unseen products with their likes, the time, and what it makes of
the history: the preferences and the average price. -/
theorem candidates_contentBased_congr {t : Snapshot α} (hunseen : s.unseen = t.unseen)
    (hnow : s.now = t.now) (hlikes : ∀ p ∈ s.unseen, s.likeCount p.id = t.likeCount p.id)
    (hempty : (Taste.history s w).isEmpty = (Taste.history t w).isEmpty)
    (haverage : Taste.averagePrice (Taste.history s w) = Taste.averagePrice (Taste.history t w))
    (hpreference : ∀ category, Taste.preference (Taste.history s w) category =
      Taste.preference (Taste.history t w) category) :
    contentBased.candidates s w = contentBased.candidates t w := by
  have hcandidates : Taste.candidates s w = Taste.candidates t w := by
    simp only [Taste.candidates, ← hunseen, haverage, hpreference]
    refine List.filterMap_congr fun p hp => ?_
    simp only [Taste.score, Taste.recencyBonus, Taste.popularityBonus, hnow, hlikes p hp]
  simp only [candidates, hcandidates, hempty]

/-- Popularity knows a snapshot by its unseen products with their likes. -/
theorem candidates_popularity_congr {t : Snapshot α} (hunseen : s.unseen = t.unseen)
    (hlikes : ∀ p ∈ s.unseen, s.likeCount p.id = t.likeCount p.id) :
    popularity.candidates s w = popularity.candidates t w := by
  have hliked : (s.unseen.filter fun p => 0 < s.likeCount p.id) =
      s.unseen.filter fun p => 0 < t.likeCount p.id :=
    List.filter_congr fun p hp => by rw [hlikes p hp]
  rw [candidates, candidates, Popularity.candidates, Popularity.candidates, ← hunseen, ← hliked]
  refine List.map_congr_left fun p hp => ?_
  rw [hlikes p (List.mem_filter.1 hp).1]

/-- Chance knows a snapshot by its unseen products. -/
theorem candidates_random_congr {t : Snapshot α} (hunseen : s.unseen = t.unseen) :
    random.candidates s w = random.candidates t w := by
  rw [candidates, candidates, hunseen]

theorem mem_unseen_of_mem_candidates {strategy : Strategy} {e : Product α × α}
    (he : e ∈ strategy.candidates s w) : e.1 ∈ s.unseen := by
  by_cases h : strategy = collaborative
  · subst h
    exact Neighbours.mem_unseen_of_mem_candidates he
  · exact (products_candidates_sublist h).subset (List.mem_map_of_mem he)

/-- If the catalog repeats no identifier, no strategy repeats one. -/
theorem nodup_candidates (distinct : (s.catalog.map (·.id)).Nodup) (strategy : Strategy) :
    ((strategy.candidates s w).map (·.1.id)).Nodup := by
  by_cases h : strategy = collaborative
  · subst h
    exact Neighbours.nodup_candidates
  · have ids := ((products_candidates_sublist (w := w) h).trans s.unseen_sublist).map (·.id)
    rw [List.map_map] at ids
    exact ids.nodup distinct

/-- No strategy has more candidates than the catalog has entries. -/
theorem length_candidates_le (strategy : Strategy) :
    (strategy.candidates s w).length ≤ s.catalog.length := by
  by_cases h : strategy = collaborative
  · subst h
    -- the catalog may repeat identifiers, but the candidates do not
    have hnodup : ((collaborative.candidates s w).map (·.1.id)).Nodup := Neighbours.nodup_candidates
    have hsubset : (collaborative.candidates s w).map (·.1.id) ⊆ s.catalog.map (·.id) := by
      intro id hid
      obtain ⟨e, he, rfl⟩ := List.mem_map.1 hid
      exact List.mem_map_of_mem (Snapshot.mem_unseen.1 (mem_unseen_of_mem_candidates he)).1
    simpa using (List.subperm_of_subset hnodup hsubset).length_le
  · simpa using ((products_candidates_sublist (w := w) h).trans s.unseen_sublist).length_le

/-! ### The ranking of a strategy -/

variable [IndexSource σ] {strategy : Strategy} {source : σ}

theorem ranking_perm (strategy : Strategy) (source : σ) :
    (strategy.ranking s w source).1.Perm (strategy.candidates s w) := by
  cases strategy with
  | random => exact (shuffle_perm s.unseen source).map _
  | _ => exact List.mergeSort_perm ..

theorem ranking_of_candidates_nil (h : strategy.candidates s w = []) :
    strategy.ranking s w source = ([], source) := by
  cases strategy with
  | random =>
    have : s.unseen = [] := by simpa [candidates] using h
    simp [ranking, this]
  | _ => simp [ranking, h]

/-- The ranking of a strategy is made of its candidates; chance shuffles what is unseen instead. -/
theorem ranking_congr {t : Snapshot α} (hunseen : s.unseen = t.unseen)
    (hcandidates : strategy.candidates s w = strategy.candidates t w) :
    strategy.ranking s w source = strategy.ranking t w source := by
  cases strategy with
  | random => simp only [ranking, hunseen]
  | _ => simp only [ranking, hcandidates]

end Strategy

theorem Taste.shortlist_eq {s : Snapshot α} {w : Weights α} (limit : Nat) :
    shortlist s w limit = .ranked (Strategy.contentBased.candidates s w) limit := by
  rw [shortlist, Strategy.candidates]
  split_ifs
  · rw [Shortlist.ranked_nil]
  · rfl

/-- The shortlist of entries. -/
def Shortlist.ofEntries (entries : List (Product α × α)) : Shortlist α :=
  ⟨entries.map (·.1), entries.map (·.2)⟩

/-- The products of a shortlist with their scores. -/
def Shortlist.entries (list : Shortlist α) : List (Product α × α) :=
  list.products.zip list.scores

omit [Scalar α] in
@[simp]
theorem Shortlist.entries_ofEntries (entries : List (Product α × α)) :
    (ofEntries entries).entries = entries := by
  simp [Shortlist.entries, ofEntries, List.zip_map']

/-- A shortlist is the beginning of the ranking, so a limit changes neither the order nor the source
of indices that is left. -/
theorem Strategy.shortlist_eq [IndexSource σ] (strategy : Strategy) (s : Snapshot α) (w : Weights α)
    (limit : Nat) (source : σ) :
    strategy.shortlist s w limit source =
      (.ofEntries ((strategy.ranking s w source).1.take limit),
        (strategy.ranking s w source).2) := by
  cases strategy with
  | collaborative =>
    rw [shortlist, Neighbours.shortlist_eq]
    rfl
  | contentBased =>
    rw [shortlist, Taste.shortlist_eq]
    rfl
  | popularity =>
    simp only [shortlist, Popularity.shortlist, ranking, candidates]
    split_ifs with h
    · -- without likes no product has any, so the early exit loses no candidate
      have hnone : Popularity.candidates s = [] := by
        simp [Popularity.candidates, Snapshot.likeCount, List.isEmpty_iff.1 h]
      simp [hnone, Shortlist.ofEntries, Shortlist.empty]
    · rfl
  | random =>
    simp only [shortlist, Chance.shortlist, ranking, Shortlist.ofEntries, List.map_map,
      ← List.map_take, Function.comp_def, List.map_id', List.map_const']

/-- A shortlist within the size of the catalog or more holds all candidates. -/
theorem Strategy.products_shortlist_perm [IndexSource σ] (strategy : Strategy) {s : Snapshot α}
    {w : Weights α} {limit : Nat} (h : s.catalog.length ≤ limit) (source : σ) :
    (strategy.shortlist s w limit source).1.products.Perm
      ((strategy.candidates s w).map (·.1)) := by
  have hperm := strategy.ranking_perm (s := s) (w := w) source
  have hlength : (strategy.ranking s w source).1.length ≤ limit := by
    rw [hperm.length_eq]
    exact Nat.le_trans strategy.length_candidates_le h
  rw [shortlist_eq, List.take_of_length_le hlength]
  exact hperm.map _

end Recommender
