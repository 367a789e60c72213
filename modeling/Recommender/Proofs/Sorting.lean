import Mathlib.Data.List.Basic

/-!
# Stable sorting

A comparison may tie elements that differ. A stable sorting leaves these in their given order, and
this is all that it leaves to the order in which a list is given.

A list may be sorted in parts, and the sorted parts merged. Ties keep their order, since a merge
takes from its first list what is tied. Of the result only the beginning may matter, and that
depends on the beginnings of the parts alone.

* `Sorts` : a list is the stable sorting of another one.
* `sorts_iff` : every list has just one, and this is what sorting by merging comes to.
* `sorts_of_perm` : whether a list is one can be decided.
* `filter_mergeSort` : of some elements, it is the stable sorting of these.
* `mergeSort_eq_of_antisymm` : where only equal elements are tied, the given order has no part.
* `take_merge` : the beginning of a merge.
* `filter_merge` : what is tied comes from the first list, then from the second.
* `mergeSort_append` : sorting by parts.
* `take_mergeSort_append` : the first elements of a list are among the first ones of its parts.
-/

namespace Recommender

variable {γ : Type} {le : γ → γ → Bool} {given sorted sorted' : List γ}

/-- Whether a comparison lets two elements stand in either order. -/
def tied (le : γ → γ → Bool) (a b : γ) : Bool :=
  le a b && le b a

/-- A list is the stable sorting of another one: it is in order, and of each class of ties it holds
the same elements in the same order. -/
structure Sorts (le : γ → γ → Bool) (given sorted : List γ) : Prop where
  /-- No element stands behind one that has to come later. -/
  pairwise : sorted.Pairwise (le · · = true)
  /-- Ties keep their order. -/
  stable : ∀ a, sorted.filter (tied le a) = given.filter (tied le a)

/-- Lists in order that hold the same of each class of ties are equal. -/
theorem eq_of_filter_tied (refl : ∀ a, le a a = true) (h : sorted.Pairwise (le · · = true))
    (h' : sorted'.Pairwise (le · · = true))
    (hsame : ∀ a, sorted.filter (tied le a) = sorted'.filter (tied le a)) : sorted = sorted' := by
  have hmem (a : γ) : a ∈ sorted ↔ a ∈ sorted' := by
    simpa [tied, refl a] using congrArg (a ∈ ·) (hsame a)
  induction sorted generalizing sorted' with
  | nil => exact (List.eq_nil_iff_forall_not_mem.2 fun a ha => by simpa using (hmem a).2 ha).symm
  | cons a rest ih =>
    cases sorted' with
    | nil => simpa using (hmem a).1 List.mem_cons_self
    | cons a' rest' =>
      obtain ⟨hfirst, hrest⟩ := List.pairwise_cons.1 h
      obtain ⟨hfirst', hrest'⟩ := List.pairwise_cons.1 h'
      have hle : le a a' = true := by
        rcases List.mem_cons.1 ((hmem a').2 List.mem_cons_self) with rfl | ha'
        · exact refl a'
        · exact hfirst a' ha'
      have hle' : le a' a = true := by
        rcases List.mem_cons.1 ((hmem a).1 List.mem_cons_self) with rfl | ha
        · exact refl a
        · exact hfirst' a ha
      -- the first elements are tied, and of their class both lists hold the same one first
      obtain rfl : a = a' := by
        have hclass := hsame a
        simp only [List.filter_cons, tied, refl a, hle, hle', Bool.and_self, if_true] at hclass
        exact (List.cons.inj hclass).1
      have htails (b : γ) : rest.filter (tied le b) = rest'.filter (tied le b) := by
        have hclass := hsame b
        rw [List.filter_cons, List.filter_cons] at hclass
        split_ifs at hclass
        · exact (List.cons.inj hclass).2
        · exact hclass
      rw [ih hrest hrest' htails fun b => by
        simpa [tied, refl b] using congrArg (b ∈ ·) (htails b)]

section

variable (trans : ∀ a b c, le a b = true → le b c = true → le a c = true)
  (total : ∀ a b, (le a b || le b a) = true)

include trans total

omit total in
/-- What is tied to one of two ties is tied to the other. -/
theorem tied_congr {a b : γ} (h : tied le a b = true) : tied le a = tied le b := by
  rw [tied, Bool.and_eq_true] at h
  obtain ⟨hab, hba⟩ := h
  funext c
  rw [Bool.eq_iff_iff, tied, tied, Bool.and_eq_true, Bool.and_eq_true]
  exact ⟨fun ⟨hac, hca⟩ => ⟨trans b a c hba hac, trans c a b hca hab⟩,
    fun ⟨hbc, hcb⟩ => ⟨trans a b c hab hbc, trans c b a hcb hba⟩⟩

theorem sorts_mergeSort (given : List γ) : Sorts le given (given.mergeSort le) := by
  refine ⟨List.pairwise_mergeSort trans total given, fun a => ?_⟩
  -- a class of ties is in order as it is given, so it is left as it is
  have hclass : (given.filter (tied le a)).Pairwise (le · · = true) := by
    refine List.pairwise_of_forall_mem_list fun b hb c hc => ?_
    have hb := (List.mem_filter.1 hb).2
    have hc := (List.mem_filter.1 hc).2
    rw [tied, Bool.and_eq_true] at hb hc
    exact trans b a c hb.2 hc.1
  have hsub : (given.filter (tied le a)).Sublist (given.mergeSort le) :=
    List.sublist_mergeSort trans total hclass List.filter_sublist
  have hkept := hsub.filter (tied le a)
  rw [List.filter_filter] at hkept
  simp only [Bool.and_self] at hkept
  have hlength := ((List.mergeSort_perm given le).filter (tied le a)).length_eq
  exact (hkept.eq_of_length hlength.symm).symm

omit total in
/-- Ties keep their order if those of each given element do. -/
theorem sorts_of_perm (h : sorted.Perm given) (hpairwise : sorted.Pairwise (le · · = true))
    (hstable : ∀ a ∈ given, sorted.filter (tied le a) = given.filter (tied le a)) :
    Sorts le given sorted := by
  refine ⟨hpairwise, fun a => ?_⟩
  by_cases hclass : ∃ b ∈ given, tied le a b = true
  · obtain ⟨b, hb, hab⟩ := hclass
    rw [tied_congr trans hab]
    exact hstable b hb
  · -- nothing is of this class
    have hnone : ∀ b ∈ given, ¬ tied le a b = true := fun b hb hab => hclass ⟨b, hb, hab⟩
    rw [List.filter_eq_nil_iff.2 hnone,
      List.filter_eq_nil_iff.2 fun b hb => hnone b (h.mem_iff.1 hb)]

/-- A list has one stable sorting. -/
theorem sorts_iff : Sorts le given sorted ↔ sorted = given.mergeSort le := by
  have hmerge := sorts_mergeSort trans total given
  constructor
  · rintro ⟨hpairwise, hstable⟩
    refine eq_of_filter_tied (fun a => by simpa using total a a) hpairwise hmerge.pairwise ?_
    intro a
    rw [hstable, hmerge.stable]
  · rintro rfl
    exact hmerge

/-- Sorting what a predicate leaves is leaving it of what is sorted. -/
theorem filter_mergeSort (p : γ → Bool) :
    (given.mergeSort le).filter p = (given.filter p).mergeSort le := by
  have hmerge := sorts_mergeSort trans total given
  refine (sorts_iff trans total).1 ⟨hmerge.pairwise.filter p, fun a => ?_⟩
  rw [List.filter_comm, hmerge.stable, List.filter_comm]

/-- Where only equal elements are tied, a list is sorted alike in whatever order it is given. -/
theorem mergeSort_eq_of_antisymm {given' : List γ} (h : given.Perm given')
    (antisymm : ∀ a ∈ given, ∀ b ∈ given, le a b = true → le b a = true → a = b) :
    given.mergeSort le = given'.mergeSort le := by
  have hperm : (given.mergeSort le).Perm (given'.mergeSort le) :=
    (List.mergeSort_perm given le).trans (h.trans (List.mergeSort_perm given' le).symm)
  refine hperm.eq_of_pairwise ?_ (List.pairwise_mergeSort trans total given)
    (List.pairwise_mergeSort trans total given')
  intro a b ha hb
  exact antisymm a (List.mem_mergeSort.1 ha) b (h.mem_iff.2 (List.mem_mergeSort.1 hb))

end

/-! ### Sorting in parts -/

variable {first second : List γ}

/-- A merge begins with what the beginnings of the lists begin with when they are merged. -/
theorem take_merge {k m n : Nat} (hm : k ≤ m) (hn : k ≤ n) (first second : List γ) :
    ((first.take m).merge (second.take n) le).take k = (first.merge second le).take k := by
  induction k generalizing m n first second with
  | zero => rfl
  | succ k ih =>
    obtain ⟨m, rfl⟩ := Nat.exists_eq_succ_of_ne_zero (Nat.ne_zero_of_lt hm)
    obtain ⟨n, rfl⟩ := Nat.exists_eq_succ_of_ne_zero (Nat.ne_zero_of_lt hn)
    cases first with
    | nil => rw [List.take_nil, List.nil_merge, List.nil_merge, List.take_take, Nat.min_eq_left hn]
    | cons x first =>
      cases second with
      | nil =>
        rw [List.take_nil, List.merge_right, List.merge_right, List.take_take, Nat.min_eq_left hm]
      | cons y second =>
        have hm' := Nat.le_of_succ_le_succ hm
        have hn' := Nat.le_of_succ_le_succ hn
        rw [List.take_succ_cons, List.take_succ_cons, List.cons_merge_cons, List.cons_merge_cons]
        -- one list loses its first element, and the other one is cut as before
        split_ifs
        · exact congrArg (x :: ·) (ih hm' (Nat.le_succ_of_le hn') first (y :: second))
        · exact congrArg (y :: ·) (ih (Nat.le_succ_of_le hm') hn' (x :: first) second)

section

variable (trans : ∀ a b c, le a b = true → le b c = true → le a c = true)
  (total : ∀ a b, (le a b || le b a) = true)

include trans total

/-- Of each class of ties a merge takes what is in the first list, then what is in the second. -/
theorem filter_merge (hfirst : first.Pairwise (le · · = true))
    (hsecond : second.Pairwise (le · · = true)) (c : γ) :
    (first.merge second le).filter (tied le c) =
      first.filter (tied le c) ++ second.filter (tied le c) := by
  fun_induction List.merge first second le with
  | case1 second => rfl
  | case2 first => simp
  | case3 x first y second hle ih =>
    rw [List.filter_cons, ih hfirst.tail hsecond, List.filter_cons (x := x)]
    split_ifs <;> rfl
  | case4 x first y second hlt ih =>
    rw [List.filter_cons, ih hfirst hsecond.tail, List.filter_cons (x := y)]
    split_ifs with hy
    · -- all of the first list has to come later than what is taken here
      have hnone : (x :: first).filter (tied le c) = [] := by
        refine List.filter_eq_nil_iff.2 fun z hz hzc => hlt ?_
        rw [tied, Bool.and_eq_true] at hy hzc
        have hxz : le x z = true := by
          rcases List.mem_cons.1 hz with rfl | hz
          · simpa using total z z
          · exact List.rel_of_pairwise_cons hfirst hz
        exact trans _ _ _ (trans _ _ _ hxz hzc.2) hy.1
      rw [hnone]
      rfl
    · rfl

/-- A list is sorted by sorting its parts and merging them. -/
theorem mergeSort_append (first second : List γ) :
    (first ++ second).mergeSort le = (first.mergeSort le).merge (second.mergeSort le) le := by
  have hfirst := sorts_mergeSort trans total first
  have hsecond := sorts_mergeSort trans total second
  refine ((sorts_iff trans total).1 ⟨?_, fun c => ?_⟩).symm
  · exact List.pairwise_merge trans total _ _ hfirst.pairwise hsecond.pairwise
  · rw [filter_merge trans total hfirst.pairwise hsecond.pairwise, hfirst.stable, hsecond.stable,
      List.filter_append]

/-- The first elements of a sorted list are the first ones of what its parts begin with. -/
theorem take_mergeSort_append (k : Nat) (first second : List γ) :
    (((first.mergeSort le).take k ++ (second.mergeSort le).take k).mergeSort le).take k =
      ((first ++ second).mergeSort le).take k := by
  have hfirst := (List.pairwise_mergeSort trans total first).take (i := k)
  have hsecond := (List.pairwise_mergeSort trans total second).take (i := k)
  rw [mergeSort_append trans total, mergeSort_append trans total,
    List.mergeSort_of_pairwise hfirst, List.mergeSort_of_pairwise hsecond,
    take_merge (Nat.le_refl k) (Nat.le_refl k)]

end

end Recommender
