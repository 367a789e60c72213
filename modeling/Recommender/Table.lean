/-!
# Tables

Finite maps from 64-bit identifiers, kept as the list of their entries in ascending order of key.
A finite map has one such list, so two tables are equal when they hold the same entries.

* `Table.get?` : the value under a key.
* `Table.insert` : a table with one value set; a value that stood under the key is replaced.
* `Table.get?_insert` : what is found after an insertion.
-/

namespace Recommender

/-- A finite map from identifiers. -/
structure Table (β : Type) where
  /-- The keys with their values. -/
  entries : List (Int64 × β)
  /-- Keys ascend, so none repeats. -/
  ascending : entries.Pairwise (fun a b => a.1 < b.1)
deriving DecidableEq

namespace Table

variable {β : Type}

/-- Puts a value at its place among ascending entries. -/
def place (key : Int64) (value : β) : List (Int64 × β) → List (Int64 × β)
  | [] => [(key, value)]
  | entry :: rest =>
    if key < entry.1 then (key, value) :: entry :: rest
    else if key = entry.1 then (key, value) :: rest
    else entry :: place key value rest

theorem lt_of_mem_place {key bound : Int64} {value : β} {entries : List (Int64 × β)}
    {e : Int64 × β} (he : e ∈ place key value entries) (hk : bound < key)
    (hb : ∀ e ∈ entries, bound < e.1) : bound < e.1 := by
  induction entries with
  | nil => simp_all [place]
  | cons x rest ih =>
    simp only [place] at he
    split at he
    · simp only [List.mem_cons] at he
      rcases he with rfl | h
      · exact hk
      · exact hb e (by simpa using h)
    · split at he
      · simp only [List.mem_cons] at he
        rcases he with rfl | h
        · exact hk
        · exact hb e (by simp [h])
      · simp only [List.mem_cons] at he
        rcases he with rfl | h
        · exact hb e (by simp)
        · exact ih h (fun e h => hb e (by simp [h]))

theorem place_ascending (key : Int64) (value : β) {entries : List (Int64 × β)}
    (h : entries.Pairwise (fun a b => a.1 < b.1)) :
    (place key value entries).Pairwise (fun a b => a.1 < b.1) := by
  induction entries with
  | nil => simp [place]
  | cons x rest ih =>
    obtain ⟨hx, hrest⟩ := List.pairwise_cons.1 h
    simp only [place]
    split
    · next hlt =>
      refine List.pairwise_cons.2 ⟨fun e he => ?_, h⟩
      rcases List.mem_cons.1 he with rfl | he
      · exact hlt
      · exact Int64.lt_trans hlt (hx e he)
    · split
      · next heq =>
        subst heq
        exact List.pairwise_cons.2 ⟨hx, hrest⟩
      · next hlt hne =>
        have hgt : x.1 < key := by
          rcases Int64.lt_or_lt_of_ne hne with h | h
          · exact absurd h hlt
          · exact h
        exact List.pairwise_cons.2 ⟨fun e he => lt_of_mem_place he hgt hx, ih hrest⟩

/-- The table without entries. -/
def empty : Table β :=
  ⟨[], .nil⟩

/-- The value under a key. -/
def get? (t : Table β) (key : Int64) : Option β :=
  t.entries.lookup key

/-- The table with the value set under the key. -/
def insert (t : Table β) (key : Int64) (value : β) : Table β :=
  ⟨place key value t.entries, place_ascending key value t.ascending⟩

/-- The table of a list of entries, inserted one after the other. -/
def ofList (entries : List (Int64 × β)) : Table β :=
  entries.foldl (fun t e => t.insert e.1 e.2) empty

/-- The keys in ascending order. -/
def keys (t : Table β) : List Int64 :=
  t.entries.map (·.1)

/-! ### What is found in a table -/

@[simp]
theorem get?_empty (key : Int64) : (empty : Table β).get? key = none := rfl

theorem lookup_cons_eq (key : Int64) (e : Int64 × β) (entries : List (Int64 × β)) :
    (e :: entries).lookup key = if key = e.1 then some e.2 else entries.lookup key := by
  rw [List.lookup_cons]
  by_cases h : key = e.1
  · simp [h]
  · simp [h, beq_false_of_ne h]

theorem lookup_map {γ : Type} (f : β → γ) (entries : List (Int64 × β)) (key : Int64) :
    (entries.map (Prod.map id f)).lookup key = (entries.lookup key).map f := by
  induction entries with
  | nil => rfl
  | cons e rest ih =>
    rw [List.map_cons, lookup_cons_eq, lookup_cons_eq, ih, apply_ite (Option.map f)]
    rfl

/-- What is listed by keys is found by them. -/
theorem lookup_filterMap (f : Int64 → Option β) (keys : List Int64) (key : Int64) :
    (keys.filterMap fun k => (f k).map (k, ·)).lookup key = if key ∈ keys then f key else none := by
  induction keys with
  | nil => rfl
  | cons k keys ih =>
    by_cases h : key = k
    · subst h
      cases hf : f key with
      | none => simp [hf, ih]
      | some value => simp [hf]
    · cases hf : f k with
      | none => simp [hf, ih, h]
      | some value => simp [hf, lookup_cons_eq, ih, h]

theorem lookup_place (key other : Int64) (value : β) (entries : List (Int64 × β)) :
    (place key value entries).lookup other =
      if other = key then some value else entries.lookup other := by
  induction entries with
  | nil => simp [place, lookup_cons_eq]
  | cons x rest ih =>
    simp only [place]
    split
    · exact lookup_cons_eq ..
    · split
      · next heq => simp only [lookup_cons_eq, heq]; split <;> rfl
      · next hne =>
        simp only [lookup_cons_eq, ih]
        by_cases hx : other = x.1
        · simp [hx, Ne.symm hne]
        · simp [hx]

theorem get?_insert (t : Table β) (key other : Int64) (value : β) :
    (t.insert key value).get? other = if other = key then some value else t.get? other :=
  lookup_place key other value t.entries

end Table

end Recommender
