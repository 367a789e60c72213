import Recommender.Scalar
import Recommender.Binary64
import Recommender.Proofs.Sorting
import Mathlib.Data.List.Nodup

/-!
# The theory of rankings

* `LawfulScalar` : the laws of the order of rankings; floating point numbers obey them on all bit
  patterns.
* `Ranking.order` : compares two entries, the better one first. It is a total order up to entries
  that agree in score and identifier.
* `Ranking.mem_top_iff` : which entries are kept, by counting the better ones.
* `Ranking.IsRanking` : a list ranks what a predicate holds of; `Ranking.isRanking_iff` says that
  without repeated identifiers there is one such list.
* `Ranking.mergeSort_eq_of_nodup` : if no two entries agree in score and identifier, the ranking
  does not depend on the order in which they are given.
* `Ranking.sorts_iff` : with repeated identifiers, the ranking is the stable sorting.
-/

namespace Recommender

/-- The laws of scalars that rankings and conditions rely on: the order of rankings is total, equal
only on equal scalars, and zero is not above itself. -/
class LawfulScalar (α : Type) [Scalar α] : Prop where
  /-- The order of rankings is a total order. -/
  trans_totalOrder : Std.TransCmp (Scalar.totalOrder : α → α → Ordering)
  /-- Only equal scalars have one place in it. -/
  lawfulEq_totalOrder : Std.LawfulEqCmp (Scalar.totalOrder : α → α → Ordering)
  /-- Zero is at most zero. -/
  zero_le_zero : (Scalar.ofNat 0 : α) ≤ Scalar.ofNat 0

attribute [instance] LawfulScalar.trans_totalOrder LawfulScalar.lawfulEq_totalOrder

namespace Binary64

theorem rank_inj {x y : Binary64} (h : x.rank = y.rank) : x = y := by
  obtain ⟨x⟩ := x
  obtain ⟨y⟩ := y
  have hx := x.toNat_lt
  have hy := y.toNat_lt
  have : x.toNat = y.toNat := by
    simp only [rank, isNegative, magnitude, decide_eq_true_eq] at h
    unfold signBit at h
    -- ranks are negative just where the sign is set, so equal ranks have equal signs
    split_ifs at h <;> omega
  rw [UInt64.toNat_inj.1 this]

instance : LawfulScalar Binary64 where
  trans_totalOrder := inferInstanceAs (Std.TransCmp (compareOn rank))
  lawfulEq_totalOrder :=
    { compare_self := fun {x} => Int.instLawfulEqOrd.compare_self (a := x.rank)
      eq_of_compare := fun {x y} h => rank_inj (Std.LawfulEqOrd.eq_of_compare h) }
  zero_le_zero := by decide

end Binary64

namespace Ranking

variable {α β : Type} [Scalar α] {id : β → Int64} {entries : List (β × α)} {limit : Nat}

/-- The order of two entries in a ranking: the higher score first, then the lower identifier. -/
def order (id : β → Int64) (a b : β × α) : Ordering :=
  (Scalar.totalOrder b.2 a.2).then (compare (id a.1) (id b.1))

/-- Whether the entry `a` is better than the entry `b`. -/
def ahead (id : β → Int64) (a b : β × α) : Bool :=
  (order id a b).isLT

theorem before_eq (id : β → Int64) (a b : β × α) : before id a b = (order id a b).isLE := rfl

/-! ### Positions in a ranking -/

variable [LawfulScalar α]

instance : Std.TransCmp (fun a b : β × α => Scalar.totalOrder b.2 a.2) where
  eq_swap := Std.OrientedCmp.eq_swap
  isLE_trans hab hbc := Std.TransCmp.isLE_trans hbc hab

instance : Std.TransCmp (order id : β × α → β × α → Ordering) :=
  inferInstanceAs <| Std.TransCmp <|
    compareLex (fun a b : β × α => Scalar.totalOrder b.2 a.2) (compareOn fun a : β × α => id a.1)

/-- Two entries have one place in the ranking only if they agree in score and identifier. -/
theorem order_eq_iff {a b : β × α} : order id a b = .eq ↔ a.2 = b.2 ∧ id a.1 = id b.1 := by
  rw [order, Ordering.then_eq_eq, Std.LawfulEqCmp.compare_eq_iff_eq,
    Std.LawfulEqCmp.compare_eq_iff_eq, eq_comm]

/-- Entries with one place in a ranking are those that agree in score and identifier. -/
theorem tied_before_iff {a b : β × α} :
    tied (before id) a b = true ↔ a.2 = b.2 ∧ id a.1 = id b.1 := by
  rw [tied, Bool.and_eq_true, before_eq, before_eq, ← order_eq_iff]
  constructor
  · rintro ⟨hab, hba⟩
    exact Std.OrientedCmp.isLE_antisymm hab hba
  · intro h
    have h' : order id b a = .eq := Std.OrientedCmp.eq_symm h
    rw [h, h']
    exact ⟨rfl, rfl⟩

theorem ahead_asymm {a b : β × α} (h : ahead id a b = true) : ahead id b a = false := by
  rw [ahead, Ordering.isLT_iff_eq_lt] at h
  rw [ahead, Std.OrientedCmp.gt_of_lt h, Ordering.isLT_gt]

theorem before_trans (a b c : β × α) (hab : before id a b = true) (hbc : before id b c = true) :
    before id a c = true := by
  rw [before_eq] at *
  exact Std.TransCmp.isLE_trans hab hbc

theorem before_total (a b : β × α) : (before id a b || before id b a) = true := by
  have hswap : order id b a = (order id a b).swap := Std.OrientedCmp.eq_swap
  rw [before_eq, before_eq, hswap]
  cases order id a b <;> rfl

theorem pairwise_before : (entries.mergeSort (before id)).Pairwise (before id · · = true) :=
  List.pairwise_mergeSort before_trans before_total entries

/-- A ranking is the stable sorting of its entries. -/
theorem sorts_iff {ranking : List (β × α)} :
    Sorts (before id) entries ranking ↔ ranking = entries.mergeSort (before id) :=
  Recommender.sorts_iff before_trans before_total

/-- Entries with distinct identifiers are ranked without ties. -/
theorem pairwise_ahead (distinct : (entries.map fun e => id e.1).Nodup) :
    (entries.mergeSort (before id)).Pairwise (ahead id · · = true) := by
  have sorted := (List.mergeSort_perm entries (before id)).map (fun e => id e.1)
  have ids := List.pairwise_map.1 (sorted.nodup_iff.2 distinct)
  refine (pairwise_before.and ids).imp fun {a b} ⟨hle, hne⟩ => ?_
  cases h : order id a b with
  | lt => simp [ahead, h]
  | eq =>
    -- a tie would mean that the identifiers are the same
    exact absurd (order_eq_iff.1 h).2 hne
  | gt => simp [before_eq, h] at hle

/-- An entry may stand before another one by a higher score, or at the same score by an identifier
that is not higher. -/
theorem before_iff {a b : β × α} :
    before id a b = true ↔ Scalar.totalOrder b.2 a.2 = .lt ∨ a.2 = b.2 ∧ id a.1 ≤ id b.1 := by
  rw [before_eq, order, Ordering.isLE_then_iff_or, Std.isLE_compare,
    Std.LawfulEqCmp.compare_eq_iff_eq, @eq_comm _ b.2]

/-- In a list that is strictly sorted by `r`, what stands among the first `k` is what has fewer than
`k` elements before it. -/
theorem mem_take_iff_countP {γ : Type} {r : γ → γ → Bool}
    (asymm : ∀ {a b}, r a b = true → r b a = false) {l : List γ}
    (sorted : l.Pairwise (r · · = true)) {x : γ} {k : Nat} :
    x ∈ l.take k ↔ x ∈ l ∧ l.countP (r · x) < k := by
  have irrefl : r x x = false := by
    by_contra h
    exact h (asymm (by simpa using h))
  induction l generalizing k with
  | nil => simp
  | cons a l ih =>
    obtain ⟨ha, hl⟩ := List.pairwise_cons.1 sorted
    cases k with
    | zero => simp
    | succ k =>
      have ih : x ∈ l.take k ↔ x ∈ l ∧ l.countP (r · x) < k := ih hl
      rw [List.take_succ_cons, List.mem_cons, List.mem_cons, ih, List.countP_cons]
      by_cases hx : x = a
      · -- nothing stands before the first element
        subst hx
        have : l.countP (r · x) = 0 := List.countP_eq_zero.2 fun b hb => by simp [asymm (ha b hb)]
        simp [this, irrefl]
      · simp only [hx, false_or]
        refine and_congr_right fun hmem => ?_
        rw [if_pos (ha x hmem), Nat.add_lt_add_iff_right]

/-- Among entries with distinct identifiers, those with fewer than `limit` better ones are kept. -/
theorem mem_top_iff (distinct : (entries.map fun e => id e.1).Nodup) {e : β × α} :
    e ∈ top id limit entries ↔ e ∈ entries ∧ entries.countP (ahead id · e) < limit := by
  rw [top, mem_take_iff_countP ahead_asymm (pairwise_ahead distinct), List.mem_mergeSort,
    (List.mergeSort_perm entries (before id)).countP_eq]

/-! ### The ranking of what a predicate holds of -/

/-- A list ranks what a predicate holds of: it has each of these entries, the better ones first. -/
structure IsRanking (id : β → Int64) (P : β × α → Prop) (ranking : List (β × α)) : Prop where
  /-- The entries are those that the predicate holds of. -/
  mem_iff : ∀ e, e ∈ ranking ↔ P e
  /-- An entry stands behind all better ones, and none stands twice. -/
  pairwise : ranking.Pairwise (ahead id · · = true)

/-- If no two entries have one identifier, there is one ranking of them. -/
theorem isRanking_iff {P : β × α → Prop} {ranking : List (β × α)}
    (distinct : (entries.map fun e => id e.1).Nodup) (h : ∀ e, e ∈ entries ↔ P e) :
    IsRanking id P ranking ↔ ranking = entries.mergeSort (before id) := by
  constructor
  · rintro ⟨hmem, hahead⟩
    have hranking : ranking.Nodup := by
      refine hahead.imp fun {a b} hab => ?_
      rintro rfl
      simp [ahead_asymm hab] at hab
    have hperm : ranking.Perm (entries.mergeSort (before id)) := by
      refine .trans ?_ (List.mergeSort_perm entries (before id)).symm
      rw [List.perm_ext_iff_of_nodup hranking (List.Nodup.of_map _ distinct)]
      intro e
      rw [hmem, h]
    refine hperm.eq_of_pairwise ?_ hahead (pairwise_ahead distinct)
    intro a b _ _ hab hba
    simp [ahead_asymm hab] at hba
  · rintro rfl
    exact ⟨fun e => List.mem_mergeSort.trans (h e), pairwise_ahead distinct⟩

/-- Entries that differ in score or identifier have one ranking, however they are given. -/
theorem mergeSort_eq_of_nodup {entries' : List (β × α)}
    (distinct : (entries.map fun e => (e.2, id e.1)).Nodup) (h : entries.Perm entries') :
    entries.mergeSort (before id) = entries'.mergeSort (before id) := by
  refine mergeSort_eq_of_antisymm before_trans before_total h fun a ha b hb hab hba => ?_
  obtain ⟨hscore, hid⟩ := tied_before_iff.1 (Bool.and_eq_true_iff.2 ⟨hab, hba⟩)
  exact List.inj_on_of_nodup_map distinct ha hb (Prod.ext hscore hid)

/-- Entries with distinct identifiers have one ranking, in whatever order they are given. -/
theorem mergeSort_eq_of_perm {entries' : List (β × α)}
    (distinct : (entries.map fun e => id e.1).Nodup) (h : entries.Perm entries') :
    entries.mergeSort (before id) = entries'.mergeSort (before id) := by
  refine mergeSort_eq_of_nodup (.of_map Prod.snd ?_) h
  rwa [List.map_map]

end Ranking

end Recommender
