import Recommender.Proofs.Tally
import Mathlib.Logic.Function.Basic

/-!
# Ledgers

A tally can be kept while amounts are booked: a ledger holds what stands under each key so far, and
each booking changes one entry. A ledger has no order of its own; a list of its entries may have
any.

* `Tally.ledger` : the ledger that some bookings lead to.
* `Tally.records_ledger` : under each booked key stands its total, and nothing under others.
* `Tally.Enumerates` : a list holds the entries of a ledger, in whatever order.
* `Tally.enumerates_iff` : these lists are the permutations of the totals.
-/

namespace Recommender

namespace Tally

variable {α κ : Type} [Scalar α] [DecidableEq κ]

/-! ### Booking -/

/-- The ledger after one more booking: its amount is added to what stands under its key, or to zero
if nothing does. -/
def book (ledger : κ → Option α) (booking : κ × α) : κ → Option α :=
  Function.update ledger booking.1
    (some ((ledger booking.1).getD (Scalar.ofNat 0) + booking.2))

/-- The ledger that some bookings lead to, one after the other. -/
def ledger (bookings : List (κ × α)) : κ → Option α :=
  bookings.foldl book fun _ => none

/-- What stands in a ledger are the totals of some bookings. -/
def Records (ledger : κ → Option α) (bookings : List (κ × α)) : Prop :=
  ∀ key, ledger key = if key ∈ bookings.map (·.1) then some (total bookings key) else none

variable {bookings : List (κ × α)} {booking : κ × α} {key : κ}

theorem total_of_not_mem (h : key ∉ bookings.map (·.1)) : total bookings key = Scalar.ofNat 0 := by
  have hnone : bookings.filter (·.1 = key) = [] := by
    refine List.filter_eq_nil_iff.2 fun b hb hkey => h ?_
    exact List.mem_map.2 ⟨b, hb, of_decide_eq_true hkey⟩
  rw [total, hnone]
  rfl

theorem total_append_of_eq (h : booking.1 = key) :
    total (bookings ++ [booking]) key = total bookings key + booking.2 := by
  simp [total, Scalar.sum, h]

theorem total_append_of_ne (h : booking.1 ≠ key) :
    total (bookings ++ [booking]) key = total bookings key := by
  simp [total, h]

/-- One booking keeps a ledger right. -/
theorem Records.book {l : κ → Option α} (h : Records l bookings) (booking : κ × α) :
    Records (book l booking) (bookings ++ [booking]) := by
  intro key
  rw [Tally.book, List.map_append, List.map_singleton]
  by_cases hkey : booking.1 = key
  · -- a key without an entry has the total zero so far
    have hentry : (l key).getD (Scalar.ofNat 0) = total bookings key := by
      rw [h key]
      split_ifs with hmem
      · rfl
      · exact (total_of_not_mem hmem).symm
    subst hkey
    rw [Function.update_self, hentry, total_append_of_eq rfl]
    simp
  · rw [Function.update_of_ne (Ne.symm hkey), h key, total_append_of_ne hkey]
    simp only [List.mem_append, List.mem_singleton, Ne.symm hkey, or_false]

theorem records_ledger (bookings : List (κ × α)) : Records (ledger bookings) bookings := by
  induction bookings using List.reverseRecOn with
  | nil =>
    intro key
    simp [ledger]
  | append_singleton bookings booking ih =>
    rw [ledger, List.foldl_append]
    exact ih.book booking

/-! ### Enumerating -/

/-- A list holds the entries of a ledger, each key once, in whatever order. -/
structure Enumerates (entries : List (κ × α)) (ledger : κ → Option α) : Prop where
  /-- No key has two entries. -/
  nodup : (entries.map (·.1)).Nodup
  /-- An entry has the amount that stands under its key. -/
  mem_iff : ∀ e, e ∈ entries ↔ ledger e.1 = some e.2

theorem ledger_eq_some_iff {e : κ × α} : ledger bookings e.1 = some e.2 ↔ e ∈ totals bookings := by
  rw [records_ledger bookings e.1, mem_totals]
  split_ifs with h
  · rw [Option.some.injEq, and_iff_right h, eq_comm]
  · simp [h]

/-- The entries of a ledger are the totals, in whatever order. -/
theorem enumerates_iff {entries : List (κ × α)} :
    Enumerates entries (ledger bookings) ↔ entries.Perm (totals bookings) := by
  constructor
  · rintro ⟨hnodup, hmem⟩
    rw [List.perm_ext_iff_of_nodup (.of_map _ hnodup) (.of_map _ nodup_keys_totals)]
    intro e
    rw [hmem, ledger_eq_some_iff]
  · intro h
    refine ⟨(h.map _).nodup_iff.2 nodup_keys_totals, fun e => ?_⟩
    rw [h.mem_iff, ledger_eq_some_iff]

end Tally

end Recommender
