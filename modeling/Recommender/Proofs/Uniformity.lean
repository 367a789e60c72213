import Recommender.Proofs.Answer
import Mathlib.Data.List.FinRange
import Mathlib.Data.List.Permutation
import Mathlib.Data.List.ProdSigma

/-!
# Chance is uniform

A shuffle draws one index for each place but the first. A `Script` is a source that gives out a
fixed sequence of indices; of the sequences that a shuffle can draw, no two lead to the same order,
and there are as many as orders. So every order comes from one sequence, and every beginning of an
order from as many as there are orders of the rest.

* `scripts` : all sequences of indices for a shuffle, one for each order (`length_scripts`).
* `exists_script` : what any source draws is one of them.
* `map_shuffle_scripts_perm` : the shuffles by all scripts are all orders, each once.
* `countP_permutations` : how many orders have a given beginning.
* `Chance.picks` : the places of the picked products among those that the user does not know.
* `Chance.shortlist_uniform` : each choice of places comes from equally many scripts.
-/

namespace Recommender

open scoped Nat

/-! ### Scripts -/

/-- A source that gives out given indices, and zeros after them. -/
structure Script where
  /-- The indices, the first one to be drawn first. -/
  indices : List Nat
deriving DecidableEq

instance : IndexSource Script where
  draw largest script :=
    match script.indices with
    | [] => (0, ⟨[]⟩)
    | index :: rest => (.ofNat (largest + 1) index, ⟨rest⟩)

/-- The scripts for a shuffle of the places up to `last`. -/
def scripts : (last : Nat) → List Script
  | 0 => [⟨[]⟩]
  | last + 1 => (List.range (last + 2) ×ˢ scripts last).map fun e => ⟨e.1 :: e.2.indices⟩

theorem mem_scripts_succ {last : Nat} {script : Script} :
    script ∈ scripts (last + 1) ↔
      ∃ index ≤ last + 1, ∃ rest ∈ scripts last, script = ⟨index :: rest.indices⟩ := by
  simp only [scripts, List.mem_map, Prod.exists, List.mem_product, List.mem_range,
    Nat.lt_succ_iff, and_assoc, exists_and_left, eq_comm]

/-- A script has an index for each draw, and none above the largest one that can be drawn. -/
theorem mem_scripts {last : Nat} {script : Script} :
    script ∈ scripts last ↔
      List.Forall₂ (· ≤ ·) script.indices (List.range' 1 last).reverse := by
  induction last generalizing script with
  | zero =>
    obtain ⟨indices⟩ := script
    simp [scripts]
  | succ last ih =>
    rw [mem_scripts_succ, reverse_range'_succ]
    constructor
    · rintro ⟨index, hindex, rest, hrest, rfl⟩
      exact .cons hindex (ih.1 hrest)
    · intro h
      obtain ⟨indices⟩ := script
      cases h with
      | @cons index _ rest _ hindex hrest => exact ⟨index, hindex, ⟨rest⟩, ih.2 hrest, rfl⟩

theorem length_scripts (last : Nat) : (scripts last).length = (last + 1)! := by
  induction last with
  | zero => rfl
  | succ last ih => rw [scripts, List.length_map, List.length_product, List.length_range, ih,
    ← Nat.factorial_succ]

/-- There are as many scripts as orders of all places. -/
theorem length_scripts_pred (m : Nat) : (scripts (m - 1)).length = m ! := by
  cases m with
  | zero => rfl
  | succ last => exact length_scripts last

theorem nodup_scripts (last : Nat) : (scripts last).Nodup := by
  induction last with
  | zero => exact List.nodup_singleton _
  | succ last ih =>
    refine (List.nodup_range.product ih).map fun a b h => ?_
    obtain ⟨index, ⟨rest⟩⟩ := a
    obtain ⟨index', ⟨rest'⟩⟩ := b
    simpa using h

/-! ### Every order comes from one script -/

section

variable {β : Type}

theorem shuffleUpTo_script {last index : Nat} (h : index ≤ last + 1) (xs : Array β)
    (rest : List Nat) :
    (shuffleUpTo (last + 1) xs (⟨index :: rest⟩ : Script)).1 =
      (shuffleUpTo last (xs.swapIfInBounds (last + 1) index) (⟨rest⟩ : Script)).1 := by
  have hindex : index % (last + 2) = index := Nat.mod_eq_of_lt (by omega)
  simp [shuffleUpTo, IndexSource.draw, Fin.ofNat, hindex]

/-- Whatever a source draws, some script has drawn before. -/
theorem exists_script {σ : Type} [IndexSource σ] (last : Nat) (source : σ) :
    ∃ script ∈ scripts last, ∀ xs : Array β,
      (shuffleUpTo last xs source).1 = (shuffleUpTo last xs script).1 := by
  induction last generalizing source with
  | zero => exact ⟨⟨[]⟩, by simp [scripts], fun xs => rfl⟩
  | succ last ih =>
    obtain ⟨rest, hrest, hsame⟩ := ih (IndexSource.draw (last + 1) source).2
    have hindex := Nat.le_of_lt_succ (IndexSource.draw (last + 1) source).1.isLt
    refine ⟨⟨(IndexSource.draw (last + 1) source).1 :: rest.indices⟩,
      mem_scripts_succ.2 ⟨_, hindex, rest, hrest, rfl⟩, fun xs => ?_⟩
    rw [shuffleUpTo_script hindex]
    exact hsame _

/-- The index drawn first can be read off a shuffle: what stood there stands last. -/
theorem getElem?_shuffleUpTo_script {last index : Nat} (h : index ≤ last + 1) {xs : Array β}
    (hsize : last + 1 < xs.size) (rest : List Nat) :
    (shuffleUpTo (last + 1) xs (⟨index :: rest⟩ : Script)).1[last + 1]? = xs[index]? := by
  rw [shuffleUpTo_script h, getElem?_shuffleUpTo (Nat.lt_succ_self last),
    Array.swapIfInBounds_def, dif_pos hsize, dif_pos (by omega), Array.getElem?_swap]
  by_cases hlast : index = last + 1
  · simp [hlast]
  · rw [if_neg hlast, if_pos rfl, Array.getElem?_eq_getElem]

/-- Different scripts shuffle an array without repetitions differently. -/
theorem shuffleUpTo_script_inj {last : Nat} {a b : Script} (ha : a ∈ scripts last)
    (hb : b ∈ scripts last) {xs : Array β} (distinct : xs.toList.Nodup) (hsize : last < xs.size)
    (h : (shuffleUpTo last xs a).1 = (shuffleUpTo last xs b).1) : a = b := by
  induction last generalizing a b xs with
  | zero =>
    simp only [scripts, List.mem_singleton] at ha hb
    rw [ha, hb]
  | succ last ih =>
    obtain ⟨i, hi, a, ha', rfl⟩ := mem_scripts_succ.1 ha
    obtain ⟨j, hj, b, hb', rfl⟩ := mem_scripts_succ.1 hb
    have hfirst : xs[i]? = xs[j]? := by
      rw [← getElem?_shuffleUpTo_script hi hsize, h, getElem?_shuffleUpTo_script hj hsize]
    obtain rfl : i = j := by
      rw [← Array.getElem?_toList, ← Array.getElem?_toList] at hfirst
      exact (List.getElem?_inj (by simp; omega) distinct).1 hfirst
    -- after the same first swap, the rests of the scripts shuffle what is left
    rw [shuffleUpTo_script hi, shuffleUpTo_script hi] at h
    have hperm := swapIfInBounds_perm xs (last + 1) i
    have hsize' : last < (xs.swapIfInBounds (last + 1) i).size := by
      rw [Array.size_swapIfInBounds]
      omega
    rw [ih ha' hb' (hperm.toList.nodup_iff.2 distinct) hsize' h]

variable {xs : List β}

/-- The shuffles of a list without repetitions by all scripts are its orders, each once. -/
theorem map_shuffle_scripts_perm (distinct : xs.Nodup) :
    ((scripts (xs.length - 1)).map fun script => (shuffle xs script).1).Perm xs.permutations := by
  rcases eq_or_ne xs [] with rfl | hne
  · simp [scripts]
  have hpos := List.length_pos_of_ne_nil hne
  have hinj : ((scripts (xs.length - 1)).map fun script => (shuffle xs script).1).Nodup := by
    refine List.Nodup.map_on (fun a ha b hb h => ?_) (nodup_scripts _)
    have hsize : xs.length - 1 < xs.toArray.size := by
      rw [List.size_toArray]
      omega
    exact shuffleUpTo_script_inj ha hb distinct hsize (Array.toList_inj.1 h)
  have hsubset : (scripts (xs.length - 1)).map (fun script => (shuffle xs script).1) ⊆
      xs.permutations := by
    intro order horder
    obtain ⟨script, -, rfl⟩ := List.mem_map.1 horder
    exact List.mem_permutations.2 (shuffle_perm xs script)
  refine (List.subperm_of_subset hinj hsubset).perm_of_length_le ?_
  rw [List.length_map, length_scripts_pred, List.length_permutations]

section

variable [DecidableEq β] {chosen : List β} (distinct : xs.Nodup) (hchosen : chosen.Nodup)
  (hsub : chosen ⊆ xs)

include distinct hchosen hsub

theorem append_filter_perm : (chosen ++ xs.filter (· ∉ chosen)).Perm xs := by
  have hnodup : (chosen ++ xs.filter (· ∉ chosen)).Nodup :=
    hchosen.append (distinct.filter _) fun a ha hrest => by
      simpa [ha] using (List.mem_filter.1 hrest).2
  refine (List.perm_ext_iff_of_nodup hnodup distinct).2 fun a => ?_
  by_cases ha : a ∈ chosen
  · simp [ha, hsub ha]
  · simp [ha]

/-- An order with a given beginning is this beginning and then any order of the rest. -/
theorem filter_permutations_perm :
    (xs.permutations.filter fun order => order.take chosen.length = chosen).Perm
      ((xs.filter (· ∉ chosen)).permutations.map (chosen ++ ·)) := by
  have hsplit := append_filter_perm distinct hchosen hsub
  refine (List.perm_ext_iff_of_nodup ((List.nodup_permutations _ distinct).filter _) ?_).2 ?_
  · exact (List.nodup_permutations _ (distinct.filter _)).map (List.append_right_injective chosen)
  · intro order
    simp only [List.mem_filter, List.mem_permutations, decide_eq_true_eq, List.mem_map]
    constructor
    · rintro ⟨horder, hbegin⟩
      have hwhole : chosen ++ order.drop chosen.length = order := by
        conv_rhs => rw [← List.take_append_drop chosen.length order, hbegin]
      refine ⟨order.drop chosen.length, ?_, hwhole⟩
      rw [← List.perm_append_left_iff chosen, hwhole]
      exact horder.trans hsplit.symm
    · rintro ⟨order, horder, rfl⟩
      exact ⟨(horder.append_left chosen).trans hsplit, List.take_left' rfl⟩

/-- The orders with a given beginning are as many as the orders of the rest. -/
theorem countP_permutations :
    xs.permutations.countP (fun order => order.take chosen.length = chosen) =
      (xs.length - chosen.length)! := by
  have hlength : (xs.filter (· ∉ chosen)).length = xs.length - chosen.length := by
    rw [← (append_filter_perm distinct hchosen hsub).length_eq, List.length_append]
    omega
  rw [List.countP_eq_length_filter, (filter_permutations_perm distinct hchosen hsub).length_eq,
    List.length_map, List.length_permutations, hlength]

end

end

/-! ### What chance picks -/

namespace Chance

variable {α σ : Type} [IndexSource σ] {s : Snapshot α} {w : Weights α} {m limit : Nat} {source : σ}

/-- The first places of a shuffle of `m` places. -/
def picks (m limit : Nat) (source : σ) : List (Fin m) :=
  (shuffle (List.finRange m) source).1.take limit

theorem nodup_picks : (picks m limit source).Nodup :=
  ((shuffle_perm (List.finRange m) source).nodup_iff.2 (List.nodup_finRange m)).take

theorem length_picks : (picks m limit source).length = min limit m := by
  rw [picks, List.length_take, (shuffle_perm (List.finRange m) source).length_eq,
    List.length_finRange]

/-- The products on the shortlist are those at the places that are picked. -/
theorem shortlist_eq_picks :
    (shortlist s w limit source).1 =
      ⟨(picks s.unseen.length limit source).map s.unseen.get,
        List.replicate (min limit s.unseen.length) w.randomScore⟩ := by
  have hmoved := shuffle_map s.unseen.get (List.finRange s.unseen.length) source
  rw [List.map_get_finRange] at hmoved
  simp only [shortlist, hmoved, ← List.map_take]
  rw [List.length_map, ← picks, length_picks]

/-- Within a limit that is large enough, all are picked. -/
theorem products_shortlist_perm (h : s.unseen.length ≤ limit) :
    (shortlist s w limit source).1.products.Perm s.unseen := by
  have hlength : (shuffle s.unseen source).1.length ≤ limit := by
    rwa [(shuffle_perm s.unseen source).length_eq]
  simp only [shortlist, List.take_of_length_le hlength]
  exact shuffle_perm s.unseen source

/-- What any source picks is picked by a script. -/
theorem exists_script_picks (source : σ) :
    ∃ script ∈ scripts (m - 1), picks m limit source = picks m limit script := by
  obtain ⟨script, hscript, hsame⟩ := exists_script (β := Fin m) (m - 1) source
  refine ⟨script, hscript, ?_⟩
  simp only [picks, shuffle, List.length_finRange, hsame]

/-- As many scripts pick the chosen places as there are orders of the others. -/
theorem countP_picks {chosen : List (Fin m)} (hchosen : chosen.Nodup)
    (hlength : chosen.length = min limit m) :
    (scripts (m - 1)).countP (fun script => picks m limit script = chosen) =
      (m - chosen.length)! := by
  have hscripts := map_shuffle_scripts_perm (List.nodup_finRange m)
  have horders := countP_permutations (List.nodup_finRange m) hchosen
    fun place _ => List.mem_finRange place
  rw [List.length_finRange] at hscripts horders
  rw [← horders, ← hscripts.countP_eq, List.countP_map]
  refine List.countP_congr fun script _ => ?_
  have htake : picks m limit script =
      (shuffle (List.finRange m) script).1.take chosen.length := by
    rw [picks, List.take_eq_take_min, (shuffle_perm (List.finRange m) script).length_eq,
      List.length_finRange, hlength]
  simp [htake]

/-- **Chance picks uniformly, without putting back.** Of `m` products that the user does not know, a
source picks those at `min limit m` different places, all of them within a great enough limit, and
each has the fixed score. A source picks like one of the `m !` scripts, which have an index for each
draw and none above the largest one that can be drawn; and the places in a given order are picked by
as many scripts as there are orders of the others. -/
theorem shortlist_uniform (s : Snapshot α) (w : Weights α) (limit : Nat) :
    let m := s.unseen.length
    let k := min limit m
    s.unseen = (s.catalog.filter fun p => ¬ s.Knows p.id) ∧
    (∀ {σ : Type} [IndexSource σ] (source : σ),
      (picks m limit source).Nodup ∧ (picks m limit source).length = k ∧
      (shortlist s w limit source).1 =
        ⟨(picks m limit source).map s.unseen.get, List.replicate k w.randomScore⟩ ∧
      (m ≤ limit → (shortlist s w limit source).1.products.Perm s.unseen) ∧
      ∃ script ∈ scripts (m - 1), picks m limit source = picks m limit script) ∧
    (scripts (m - 1)).length = m ! ∧ (scripts (m - 1)).Nodup ∧
    (∀ script, script ∈ scripts (m - 1) ↔
      List.Forall₂ (· ≤ ·) script.indices (List.range' 1 (m - 1)).reverse) ∧
    ∀ chosen : List (Fin m), chosen.Nodup → chosen.length = k →
      (scripts (m - 1)).countP (fun script => picks m limit script = chosen) = (m - k)! := by
  intro m k
  refine ⟨Snapshot.unseen_eq, ?_, length_scripts_pred m, nodup_scripts _, fun _ => mem_scripts, ?_⟩
  · intro σ _ source
    exact ⟨nodup_picks, length_picks, shortlist_eq_picks, products_shortlist_perm,
      exists_script_picks source⟩
  · intro chosen hchosen hlength
    rw [countP_picks hchosen hlength, hlength]

/-- Of four products in the shop that a user does not know, two of the 24 scripts pick the third and
the first one. -/
theorem shortlist_uniform_shop :
    Shop.snapshot.unseen.length = 4 ∧
    (scripts (Shop.snapshot.unseen.length - 1)).length = 24 ∧
    (scripts (Shop.snapshot.unseen.length - 1)).countP
      (fun script => picks Shop.snapshot.unseen.length 2 script =
        [⟨2, by decide +kernel⟩, ⟨0, by decide +kernel⟩]) = 2 := by
  have hlength : Shop.snapshot.unseen.length = 4 := by decide +kernel
  obtain ⟨-, -, hscripts, -, -, hcount⟩ := shortlist_uniform Shop.snapshot .standard 2
  have hcount := hcount [⟨2, by decide +kernel⟩, ⟨0, by decide +kernel⟩] (by simp)
    (by simp [hlength])
  refine ⟨hlength, hscripts.trans ?_, hcount.trans ?_⟩
  · rw [hlength]
    rfl
  · rw [hlength]
    rfl

end Chance

end Recommender
