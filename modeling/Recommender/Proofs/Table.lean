import Recommender.Table
import Mathlib.Data.List.Sort
import Mathlib.Data.List.Nodup
import Mathlib.Data.List.Induction

/-!
# What a table holds

A table is what stands under its keys: tables with the same value under each key are equal.

* `Table.mem_entries_iff` : an entry is a key and what is found under it.
* `Table.eq_of_get?_eq` : tables in which the same is found are equal.
* `Table.filter_keys_congr` : tables with the same keys of some kind have them in the same order.
* `Table.get?_ofList` : what is found after insertions is what was inserted last.
* `Table.ofList_perm`, `Table.ofList_entries` : entries with different keys may be inserted in any
  order, and make up the table.
* `Table.filter` : the part of a table that stands under some keys.
-/

namespace Recommender

namespace Table

variable {β : Type} {t t' : Table β} {key : Int64} {value : β}

/-- What is found among entries with different keys is what stands among them. -/
theorem lookup_eq_some_iff {entries : List (Int64 × β)} (h : (entries.map (·.1)).Nodup) :
    entries.lookup key = some value ↔ (key, value) ∈ entries := by
  induction entries with
  | nil => simp
  | cons e rest ih =>
    obtain ⟨hfirst, hrest⟩ := List.nodup_cons.1 h
    rw [List.mem_cons, lookup_cons_eq, Prod.ext_iff]
    by_cases h : key = e.1
    · subst h
      -- the key of the first entry occurs in no other
      have hnot : (e.1, value) ∉ rest := fun hmem => hfirst (List.mem_map.2 ⟨_, hmem, rfl⟩)
      simp [hnot, eq_comm]
    · rw [if_neg h, ih hrest]
      exact (or_iff_right fun heq => h heq.1).symm

theorem nodup_keys (t : Table β) : t.keys.Nodup :=
  (List.pairwise_map.2 t.ascending).imp Int64.ne_of_lt

theorem mem_entries_iff : (key, value) ∈ t.entries ↔ t.get? key = some value :=
  (lookup_eq_some_iff t.nodup_keys).symm

theorem mem_keys_iff : key ∈ t.keys ↔ (t.get? key).isSome := by
  rw [Option.isSome_iff_exists, keys, List.mem_map]
  constructor
  · rintro ⟨e, he, rfl⟩
    exact ⟨e.2, mem_entries_iff.1 he⟩
  · rintro ⟨value, hvalue⟩
    exact ⟨(key, value), mem_entries_iff.2 hvalue, rfl⟩

theorem pairwise_keys (t : Table β) : t.keys.Pairwise (· < ·) :=
  List.pairwise_map.2 t.ascending

/-- What is found under the keys makes up the table. -/
theorem eq_of_get?_eq (h : ∀ key, t.get? key = t'.get? key) : t = t' := by
  have hperm : t.entries.Perm t'.entries := by
    refine (List.perm_ext_iff_of_nodup t.nodup_keys.of_map t'.nodup_keys.of_map).2 fun e => ?_
    rw [mem_entries_iff, mem_entries_iff, h]
  have hentries : t.entries = t'.entries :=
    hperm.eq_of_pairwise (fun _ _ _ _ hlt hgt => absurd hgt (Int64.lt_asymm hlt))
      t.ascending t'.ascending
  obtain ⟨entries, ascending⟩ := t
  obtain ⟨entries', ascending'⟩ := t'
  obtain rfl : entries = entries' := hentries
  rfl

/-- Tables with the same keys of some kind have them in the same order. -/
theorem filter_keys_congr {p q : Int64 → Bool}
    (h : ∀ key, key ∈ t.keys.filter p ↔ key ∈ t'.keys.filter q) :
    t.keys.filter p = t'.keys.filter q :=
  List.Pairwise.eq_of_mem_iff (r := (· < ·)) (t.pairwise_keys.filter _)
    (t'.pairwise_keys.filter _) h

/-! ### Entries in any order -/

/-- What is found after insertions is what was inserted last. -/
theorem get?_ofList (entries : List (Int64 × β)) :
    (ofList entries).get? key = entries.reverse.lookup key := by
  induction entries using List.reverseRecOn with
  | nil => rfl
  | append_singleton entries e ih =>
    rw [ofList, List.foldl_append, List.foldl_cons, List.foldl_nil, ← ofList, get?_insert, ih,
      List.reverse_append, List.reverse_singleton, List.singleton_append, lookup_cons_eq]

theorem get?_ofList_eq_some_iff {entries : List (Int64 × β)} (h : (entries.map (·.1)).Nodup) :
    (ofList entries).get? key = some value ↔ (key, value) ∈ entries := by
  have hreverse : (entries.reverse.map (·.1)).Nodup := by
    rwa [List.map_reverse, List.nodup_reverse]
  rw [get?_ofList, lookup_eq_some_iff hreverse, List.mem_reverse]

/-- Entries with different keys may be inserted in any order. -/
theorem ofList_perm {entries entries' : List (Int64 × β)} (h : entries.Perm entries')
    (hnodup : (entries.map (·.1)).Nodup) : ofList entries = ofList entries' := by
  have hnodup' : (entries'.map (·.1)).Nodup := (h.map _).nodup_iff.1 hnodup
  refine eq_of_get?_eq fun key => Option.ext fun value => ?_
  rw [get?_ofList_eq_some_iff hnodup, get?_ofList_eq_some_iff hnodup', h.mem_iff]

/-- A table is made up of its entries. -/
theorem ofList_entries (t : Table β) : ofList t.entries = t := by
  refine eq_of_get?_eq fun key => Option.ext fun value => ?_
  rw [get?_ofList_eq_some_iff t.nodup_keys, mem_entries_iff]

/-! ### Parts of a table -/

/-- The part of a table that stands under some keys. -/
def filter (t : Table β) (keep : Int64 → Bool) : Table β where
  entries := t.entries.filter fun e => keep e.1
  ascending := t.ascending.filter _

theorem get?_filter (keep : Int64 → Bool) :
    (t.filter keep).get? key = if keep key then t.get? key else none := by
  refine Option.ext fun value => ?_
  rw [← mem_entries_iff, filter, List.mem_filter, mem_entries_iff]
  by_cases h : keep key
  · simp [h]
  · simp [h]

end Table

end Recommender
