import Recommender.Snapshot
import Recommender.Table
import Recommender.Proofs.Tally

/-!
# What a user knows

The snapshot's lists are read in one declarative way here, whatever their order, and however often
they repeat a row.

* `ascendingIds_congr` : identifiers in ascending order depend only on which ones there are.
* `Snapshot.Knows` : the user liked the product, by either list of likes, or bought it.
* `Snapshot.mem_interacted` : the set that strategies exclude holds just what is known.
* `Snapshot.unseen_eq` : the unseen entries of the catalog, in its order.
* `Snapshot.product?_isSome` : an identifier stands for an entry if the catalog has one.
* `Snapshot.product?_eq_some_iff_stands` : of several entries it stands for the last one.
* `Snapshot.product?_eq_some_iff` : without repeated identifiers, each stands for its own entry.
* `Snapshot.lookup_index` : entries are found by identifier as they are looked up.
* `Snapshot.lookup_likeCounts` : counters of 32 bits count likes exactly, unless there are too many.
-/

namespace Recommender

theorem mem_ascendingIds {ids : List Int64} {id : Int64} : id ∈ ascendingIds ids ↔ id ∈ ids := by
  rw [ascendingIds, List.mem_mergeSort, List.mem_eraseDups]

theorem nodup_ascendingIds (ids : List Int64) : (ascendingIds ids).Nodup :=
  (List.mergeSort_perm ..).nodup_iff.2 (nodup_eraseDups ids)

theorem pairwise_ascendingIds (ids : List Int64) : (ascendingIds ids).Pairwise (· ≤ ·) := by
  have sorted : (ascendingIds ids).Pairwise (fun a b => decide (a ≤ b) = true) := by
    refine List.pairwise_mergeSort (fun a b c hab hbc => ?_) (fun a b => ?_) _
    · exact decide_eq_true (Int64.le_trans (of_decide_eq_true hab) (of_decide_eq_true hbc))
    · simpa using Int64.le_total a b
  exact sorted.imp of_decide_eq_true

/-- Identifiers in ascending order depend only on which ones there are. -/
theorem ascendingIds_congr {ids ids' : List Int64} (h : ∀ id, id ∈ ids ↔ id ∈ ids') :
    ascendingIds ids = ascendingIds ids' := by
  have hperm : (ascendingIds ids).Perm (ascendingIds ids') := by
    rw [List.perm_ext_iff_of_nodup (nodup_ascendingIds ids) (nodup_ascendingIds ids')]
    intro id
    rw [mem_ascendingIds, mem_ascendingIds, h]
  exact hperm.eq_of_pairwise (fun _ _ _ _ => Int64.le_antisymm) (pairwise_ascendingIds ids)
    (pairwise_ascendingIds ids')

namespace Snapshot

variable {α : Type} (s : Snapshot α)

/-- The user liked or bought the product. Rows of other users do not count. -/
def Knows (id : ProductId) : Prop :=
  (∃ l ∈ s.userLikes ++ s.allLikes, l.user = s.user ∧ l.product = id) ∨
    ∃ o ∈ s.userOrders, o.user = s.user ∧ ∃ i ∈ o.items, i.product = id

instance : DecidablePred s.Knows := fun _ => inferInstanceAs (Decidable (_ ∨ _))

/-- An entry of the catalog stands for its identifier: no later entry has the same one. -/
def Stands (p : Product α) : Prop :=
  ∃ before after, s.catalog = before ++ p :: after ∧ ∀ q ∈ after, q.id ≠ p.id

variable {s}

theorem mem_liked {id : ProductId} :
    id ∈ s.liked ↔ ∃ l ∈ s.userLikes ++ s.allLikes, l.user = s.user ∧ l.product = id := by
  rw [liked, List.mem_eraseDups, List.mem_map]
  simp only [List.mem_filter, decide_eq_true_eq, and_assoc]

theorem mem_purchased {id : ProductId} :
    id ∈ s.purchased ↔ ∃ o ∈ s.userOrders, o.user = s.user ∧ ∃ i ∈ o.items, i.product = id := by
  simp [purchased, Order.products, and_assoc]

theorem mem_interacted {id : ProductId} : id ∈ s.interacted ↔ s.Knows id := by
  rw [interacted, mem_ascendingIds, List.mem_append, mem_liked, mem_purchased, Knows]

theorem unseen_eq : s.unseen = s.catalog.filter fun p => ¬ s.Knows p.id := by
  simp only [unseen, mem_interacted]

theorem mem_unseen {p : Product α} : p ∈ s.unseen ↔ p ∈ s.catalog ∧ ¬ s.Knows p.id := by
  simp [unseen_eq]

theorem unseen_sublist : s.unseen.Sublist s.catalog := by
  rw [unseen_eq]
  exact List.filter_sublist

theorem unseen_eq_nil_iff : s.unseen = [] ↔ ∀ p ∈ s.catalog, s.Knows p.id := by
  simp [unseen_eq]

/-! ### Entries of the catalog -/

theorem product?_eq_some {id : ProductId} {p : Product α} (h : s.product? id = some p) :
    p ∈ s.catalog ∧ p.id = id := by
  rw [product?, List.findRev?_eq_find?_reverse] at h
  exact ⟨List.mem_reverse.1 (List.mem_of_find?_eq_some h),
    by simpa using List.find?_some h⟩

theorem Stands.mem {p : Product α} (h : s.Stands p) : p ∈ s.catalog := by
  obtain ⟨before, after, hcatalog, -⟩ := h
  simp [hcatalog]

theorem product?_isSome {id : ProductId} : (s.product? id).isSome ↔ ∃ p ∈ s.catalog, p.id = id := by
  simp [product?]

/-- An identifier is looked up from the end of the catalog. -/
theorem product?_eq_some_iff_stands {id : ProductId} {p : Product α} :
    s.product? id = some p ↔ s.Stands p ∧ p.id = id := by
  rw [product?, List.findRev?_eq_find?_reverse, List.find?_eq_some_iff_append, decide_eq_true_eq,
    and_comm]
  refine and_congr_left ?_
  rintro rfl
  constructor
  · rintro ⟨after, before, hcatalog, hlast⟩
    refine ⟨before.reverse, after.reverse, ?_, fun q hq => ?_⟩
    · simpa using congrArg List.reverse hcatalog
    · simpa using hlast q (List.mem_reverse.1 hq)
  · rintro ⟨before, after, hcatalog, hlast⟩
    refine ⟨after.reverse, before.reverse, ?_, fun q hq => ?_⟩
    · simp [hcatalog]
    · simpa using hlast q (List.mem_reverse.1 hq)

/-- If the catalog repeats no identifier, an entry is found by its own. -/
theorem product?_eq_some_iff (distinct : (s.catalog.map (·.id)).Nodup) {id : ProductId}
    {p : Product α} : s.product? id = some p ↔ p ∈ s.catalog ∧ p.id = id := by
  refine ⟨product?_eq_some, ?_⟩
  rintro ⟨hp, rfl⟩
  obtain ⟨q, hq⟩ := Option.isSome_iff_exists.1 (product?_isSome.2 ⟨p, hp, rfl⟩)
  obtain ⟨hmem, hid⟩ := product?_eq_some hq
  rw [hq, List.inj_on_of_nodup_map distinct hmem hp hid]

/-- What is listed by identifier is what an identifier stands for. -/
theorem lookup_index (s : Snapshot α) (id : ProductId) : s.index.lookup id = s.product? id := by
  rw [index, Table.lookup_filterMap]
  split_ifs with hlisted
  · rfl
  · -- an identifier that is not listed stands for nothing
    rw [mem_ascendingIds, List.mem_map, ← product?_isSome, Option.not_isSome_iff_eq_none] at hlisted
    exact hlisted.symm

/-! ### Numbers of likes -/

/-- A counter that starts low enough counts exactly. -/
theorem toNat_foldl_count (likes : List Like) (id : ProductId) (start : UInt32)
    (h : start.toNat + likes.length < UInt32.size) :
    (likes.foldl (fun count l => if l.product = id then count + 1 else count) start).toNat =
      start.toNat + likes.countP fun l => l.product = id := by
  induction likes generalizing start with
  | nil => rfl
  | cons l likes ih =>
    rw [List.length_cons] at h
    rw [List.foldl_cons, List.countP_cons]
    by_cases hl : l.product = id
    · have hstep : (start + 1).toNat = start.toNat + 1 := by
        rw [UInt32.toNat_add]
        exact Nat.mod_eq_of_lt (show start.toNat + 1 < UInt32.size by omega)
      rw [if_pos hl, ih (start + 1) (by omega), hstep]
      simp [hl]
      omega
    · rw [if_neg hl, ih start (by omega)]
      simp [hl]

theorem toNat_likeCounter (few : s.allLikes.length < UInt32.size) (id : ProductId) :
    (s.likeCounter id).toNat = s.likeCount id := by
  have hcount := toNat_foldl_count s.allLikes id 0 (by simpa using few)
  rwa [UInt32.toNat_zero, Nat.zero_add] at hcount

/-- With fewer likes than 32 bits can tell apart, counters hold their numbers, and what is not
listed has none. -/
theorem lookup_likeCounts (few : s.allLikes.length < UInt32.size) (id : ProductId) :
    (s.likeCounts.lookup id).getD 0 = s.likeCount id := by
  have hlookup : s.likeCounts.lookup id = if id ∈ ascendingIds (s.allLikes.map (·.product)) then
      some (s.likeCounter id).toNat else none := by
    rw [← Table.lookup_filterMap (fun id => some (s.likeCounter id).toNat)]
    simp [likeCounts]
  rw [hlookup]
  split_ifs with hlisted
  · exact toNat_likeCounter few id
  · rw [mem_ascendingIds, List.mem_map] at hlisted
    exact (List.countP_eq_zero.2 fun l hl hid => hlisted ⟨l, hl, of_decide_eq_true hid⟩).symm

end Snapshot

end Recommender
