import Recommender.Scalar
import Mathlib.Data.List.Induction
import Mathlib.Data.List.Perm.Basic
import Mathlib.Data.List.Nodup

/-!
# The theory of tallies

* `Tally.mem_totals` : the entries of a tally are the booked keys, each with its sum.
* `Tally.nodup_keys_totals` : no key has two entries.
* `Tally.amounts_const` : where one amount is booked over and over, a sum depends on the number of
  bookings only.
* `Tally.totals_perm` : if the order of addition does not matter, neither does that of bookings.
* `Tally.filter_totals` : the sums of some keys do not depend on what is booked on others.
-/

namespace Recommender

theorem nodup_eraseDups {κ : Type} [BEq κ] [LawfulBEq κ] (l : List κ) : l.eraseDups.Nodup := by
  match l with
  | [] => simp
  | a :: l =>
    have : (l.filter fun b => !b == a).length < l.length + 1 :=
      Nat.lt_succ_of_le (List.length_filter_le _ l)
    rw [List.eraseDups_cons, List.nodup_cons]
    exact ⟨by simp, nodup_eraseDups _⟩
termination_by l.length

theorem eraseDups_perm {κ : Type} [BEq κ] [LawfulBEq κ] {l l' : List κ} (h : l.Perm l') :
    l.eraseDups.Perm l'.eraseDups :=
  (List.perm_ext_iff_of_nodup (nodup_eraseDups l) (nodup_eraseDups l')).2 fun a => by
    rw [List.mem_eraseDups, List.mem_eraseDups, h.mem_iff]

theorem filter_eraseDups {κ : Type} [BEq κ] [LawfulBEq κ] (p : κ → Bool) (l : List κ) :
    l.eraseDups.filter p = (l.filter p).eraseDups := by
  match l with
  | [] => simp
  | a :: l =>
    have : (l.filter fun b => !b == a).length < l.length + 1 :=
      Nat.lt_succ_of_le (List.length_filter_le _ l)
    rw [List.eraseDups_cons, List.filter_cons, filter_eraseDups p, List.filter_filter,
      List.filter_cons]
    split_ifs with ha
    · rw [List.eraseDups_cons, List.filter_filter]
      simp only [Bool.and_comm]
    · -- what equals the first element is dropped by the filter already
      congr 1
      apply List.filter_congr
      intro b _
      by_cases hb : b = a
      · simp [hb, ha]
      · simp [hb]
termination_by l.length

/-- What occurred before adds nothing. -/
theorem eraseDups_append_of_subset {κ : Type} [BEq κ] [LawfulBEq κ] {l l' : List κ} (h : l' ⊆ l) :
    (l ++ l').eraseDups = l.eraseDups := by
  have hnone : l'.removeAll l = [] := by
    refine List.filter_eq_nil_iff.2 fun a ha => ?_
    simp [h ha]
  rw [List.eraseDups_append, hnone, List.eraseDups_nil, List.append_nil]

theorem eraseDups_append_cons_of_mem {κ : Type} [BEq κ] [LawfulBEq κ] {l l' : List κ} {a : κ}
    (h : a ∈ l) : (l ++ a :: l').eraseDups = (l ++ l').eraseDups := by
  have hdropped : (a :: l').removeAll l = l'.removeAll l := by
    rw [List.cons_removeAll]
    simp [h]
  rw [List.eraseDups_append, List.eraseDups_append, hdropped]

/-- Where repetitions are erased, what is left stands in the order of the first occurrences. -/
theorem pairwise_idxOf_eraseDups {κ : Type} [BEq κ] [LawfulBEq κ] (l : List κ) :
    l.eraseDups.Pairwise fun a b => l.idxOf a < l.idxOf b := by
  induction l using List.reverseRecOn with
  | nil => simp
  | append_singleton l x ih =>
    have hkept : l.eraseDups.Pairwise fun a b => (l ++ [x]).idxOf a < (l ++ [x]).idxOf b := by
      refine ih.imp_of_mem fun {a b} ha hb hab => ?_
      rwa [List.idxOf_append_of_mem (List.mem_eraseDups.1 ha),
        List.idxOf_append_of_mem (List.mem_eraseDups.1 hb)]
    rw [List.eraseDups_append]
    by_cases hx : x ∈ l
    · simpa [List.removeAll, hx] using hkept
    · have hnew : ([x].removeAll l).eraseDups = [x] := by
        simp [List.removeAll, hx, List.eraseDups_cons]
      rw [hnew, List.pairwise_append]
      refine ⟨hkept, List.pairwise_singleton _ _, fun a ha b hb => ?_⟩
      have ha := List.mem_eraseDups.1 ha
      obtain rfl := List.mem_singleton.1 hb
      rw [List.idxOf_append_of_mem ha, List.idxOf_append_of_notMem hx]
      have := List.idxOf_lt_length_of_mem ha
      omega

namespace Tally

variable {α κ β : Type} [DecidableEq κ]

theorem amounts_const (xs : List β) (key : β → κ) (amount : α) (k : κ) :
    ((xs.map fun x => (key x, amount)).filter (·.1 = k)).map (·.2) =
      List.replicate (xs.countP (key · = k)) amount := by
  induction xs with
  | nil => rfl
  | cons x xs ih =>
    by_cases h : key x = k
    · simpa [h, List.replicate_succ] using ih
    · simpa [h] using ih

variable [Scalar α] {bookings : List (κ × α)}

theorem keys_totals : (totals bookings).map (·.1) = (bookings.map (·.1)).eraseDups := by
  simp [totals, Function.comp_def]

theorem nodup_keys_totals : ((totals bookings).map (·.1)).Nodup := by
  rw [keys_totals]
  exact nodup_eraseDups _

theorem mem_totals {e : κ × α} :
    e ∈ totals bookings ↔ e.1 ∈ bookings.map (·.1) ∧ e.2 = total bookings e.1 := by
  simp only [totals, List.mem_map (l := List.eraseDups _), List.mem_eraseDups]
  constructor
  · rintro ⟨key, hkey, rfl⟩
    exact ⟨hkey, rfl⟩
  · rintro ⟨hkey, hsum⟩
    exact ⟨e.1, hkey, by rw [← hsum]⟩

/-- What is booked on some keys has no part in the sums of the others. -/
theorem filter_totals (p : κ → Bool) :
    (totals bookings).filter (p ·.1) = totals (bookings.filter (p ·.1)) := by
  have hkeys : (bookings.filter (p ·.1)).map (·.1) = (bookings.map (·.1)).filter p := by
    rw [List.filter_map]
    rfl
  rw [totals, totals, List.filter_map, hkeys, ← filter_eraseDups]
  apply List.map_congr_left
  intro key hkey
  have hp : p key = true := (List.mem_filter.1 hkey).2
  rw [total, total, List.filter_filter]
  congr 3
  apply List.filter_congr
  intro b _
  by_cases hb : b.1 = key
  · simp [hb, hp]
  · simp [hb]

end Tally

/-! ### Addition in any order -/

section

variable {α κ : Type} [Scalar α] [Std.Commutative fun a b : α => a + b]
  [Std.Associative fun a b : α => a + b]

theorem Scalar.sum_perm {xs ys : List α} (h : xs.Perm ys) : Scalar.sum xs = Scalar.sum ys :=
  h.foldl_eq _

/-- Where the order of addition does not matter, neither does that of bookings. -/
theorem Tally.totals_perm [DecidableEq κ] {bookings bookings' : List (κ × α)}
    (h : bookings.Perm bookings') : (totals bookings).Perm (totals bookings') := by
  have htotal (key : κ) : total bookings key = total bookings' key :=
    Scalar.sum_perm ((h.filter _).map _)
  simp only [totals, htotal]
  exact (eraseDups_perm (h.map _)).map _

end

end Recommender
