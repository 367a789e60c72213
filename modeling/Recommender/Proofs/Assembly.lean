import Recommender.Catalog
import Mathlib.Data.List.Induction
import Mathlib.Data.List.Nodup
import Mathlib.Logic.Function.Basic

/-!
# Orders and the rows they are kept in

A store keeps an order as a head and its lines as rows of another list, each with the identifier of
its order. Reading brings both together again.

* `Interleaves` : a list is made up of others, each of which keeps its order.
* `Order.head`, `Order.lines` : the rows that an order is kept in.
* `Order.getElem?_assemble` : what is made of a head, among all others.
* `Order.lines_assemble_perm` : the lines of known orders are kept, each once, and no others.
* `Order.collect_filed` : lines may be filed by order in a map and taken out of it.
* `Order.assemble_restores` : what is kept in rows is read back, however the lines are mixed.
-/

namespace Recommender

/-! ### Interleavings -/

/-- A list is made up of some others: as long as one of these is not used up, its first element may
be the next. -/
inductive Interleaves {γ : Type} : List (List γ) → List γ → Prop
  /-- All lists are used up. -/
  | done {lists : List (List γ)} (h : ∀ l ∈ lists, l = []) : Interleaves lists []
  /-- The next element is the first of the list at place `k`. -/
  | next {lists : List (List γ)} {first : γ} {rest mixed : List γ} (k : Nat)
      (hk : lists[k]? = some (first :: rest)) (h : Interleaves (lists.set k rest) mixed) :
      Interleaves lists (first :: mixed)

namespace Interleaves

variable {γ : Type} {lists : List (List γ)} {mixed own : List γ}

/-- A predicate that tells one list from all others picks it out of an interleaving. -/
theorem filter_eq (h : Interleaves lists mixed) {p : γ → Bool} {i : Nat}
    (hi : lists[i]? = some own) (hown : ∀ x ∈ own, p x = true)
    (hothers : ∀ (j : Nat) l, lists[j]? = some l → j ≠ i → ∀ x ∈ l, p x = false) :
    mixed.filter p = own := by
  induction h generalizing own with
  | done hnil => exact (hnil own (List.mem_of_getElem? hi)).symm
  | @next lists first rest mixed k hk _ ih =>
    have hlength : k < lists.length := (List.getElem?_eq_some_iff.1 hk).1
    have hset : (lists.set k rest)[k]? = some rest := List.getElem?_set_self hlength
    by_cases hki : k = i
    · subst hki
      obtain rfl : first :: rest = own := Option.some.inj (hk.symm.trans hi)
      have hrest : mixed.filter p = rest := by
        refine ih hset (fun x hx => hown x (List.mem_cons_of_mem _ hx)) fun j l hj hne => ?_
        exact hothers j l (by rwa [List.getElem?_set_ne hne.symm] at hj) hne
      rw [List.filter_cons_of_pos (hown first List.mem_cons_self), hrest]
    · have hfirst : p first = false := hothers k _ hk hki first List.mem_cons_self
      rw [List.filter_cons_of_neg (by simp [hfirst])]
      refine ih (by rwa [List.getElem?_set_ne hki]) hown fun j l hj hne => ?_
      by_cases hjk : j = k
      · subst hjk
        obtain rfl : rest = l := Option.some.inj (hset.symm.trans hj)
        exact fun x hx => hothers j _ hk hne x (List.mem_cons_of_mem _ hx)
      · exact hothers j l (by rwa [List.getElem?_set_ne (Ne.symm hjk)] at hj) hne

theorem cons_nil (h : Interleaves lists mixed) : Interleaves ([] :: lists) mixed := by
  induction h with
  | done hnil => exact .done (by simpa using hnil)
  | next k hk _ ih => exact .next (k + 1) hk ih

theorem append (h : Interleaves lists mixed) (l : List γ) :
    Interleaves (l :: lists) (l ++ mixed) := by
  induction l with
  | nil => exact h.cons_nil
  | cons x l ih => exact .next 0 rfl ih

/-- Lists one behind the other are an interleaving, too. -/
theorem flatten (lists : List (List γ)) : Interleaves lists lists.flatten := by
  induction lists with
  | nil => exact .done (by simp)
  | cons l lists ih => exact ih.append l

end Interleaves

namespace Order

/-! ### Rows -/

/-- The row that says whose an order is. -/
def head (order : Order) : OrderId × UserId :=
  (order.id, order.user)

/-- The rows of the lines of an order. -/
def lines (order : Order) : List (OrderId × OrderItem) :=
  order.items.map (order.id, ·)

variable {heads : List (OrderId × UserId)} {rows : List (OrderId × OrderItem)}

theorem lines_of_filter (id : OrderId) (user : UserId) :
    lines ⟨id, user, (rows.filter (·.1 = id)).map (·.2)⟩ = rows.filter (·.1 = id) := by
  rw [lines, List.map_map]
  refine (List.map_congr_left fun row hrow => ?_).trans (List.map_id _)
  have hid : row.1 = id := of_decide_eq_true (List.mem_filter.1 hrow).2
  rw [Function.comp_apply, ← hid]
  rfl

/-- Rows without those of one order have all rows of another. -/
theorem filter_of_ne {id other : OrderId} (h : other ≠ id) :
    (rows.filter (·.1 ≠ id)).filter (·.1 = other) = rows.filter (·.1 = other) := by
  rw [List.filter_filter]
  refine List.filter_congr fun row _ => ?_
  by_cases hrow : row.1 = other
  · simp [hrow, h]
  · simp [hrow]

theorem filter_of_eq (id : OrderId) : (rows.filter (·.1 ≠ id)).filter (·.1 = id) = [] := by
  simp [List.filter_filter]

/-- What is made of a head: the rows of its order in their order if no earlier head has taken them,
and no rows otherwise. -/
theorem getElem?_assemble (i : Nat) : (assemble heads rows)[i]? = heads[i]?.map fun head =>
    ⟨head.1, head.2, if head.1 ∈ (heads.take i).map (·.1) then []
      else (rows.filter (·.1 = head.1)).map (·.2)⟩ := by
  induction heads generalizing rows i with
  | nil => rfl
  | cons first heads ih =>
    obtain ⟨id, user⟩ := first
    cases i with
    | zero => simp [assemble]
    | succ i =>
      rw [assemble, List.getElem?_cons_succ, List.getElem?_cons_succ, ih]
      refine Option.map_congr fun head _ => ?_
      rw [List.take_succ_cons, List.map_cons]
      by_cases hid : head.1 = id
      · -- the first head has left no row of this order
        rw [hid, filter_of_eq]
        simp
      · rw [filter_of_ne hid]
        simp [hid]

/-- There is one order for each head, in the order of heads. -/
theorem map_head_assemble : (assemble heads rows).map head = heads := by
  refine List.ext_getElem? fun i => ?_
  rw [List.getElem?_map, getElem?_assemble, Option.map_map]
  exact congrFun Option.map_id _

/-- Of distinct heads each has all rows of its order. -/
theorem assemble_of_nodup (distinct : (heads.map (·.1)).Nodup) :
    assemble heads rows =
      heads.map fun head => ⟨head.1, head.2, (rows.filter (·.1 = head.1)).map (·.2)⟩ := by
  induction heads generalizing rows with
  | nil => rfl
  | cons first heads ih =>
    obtain ⟨id, user⟩ := first
    obtain ⟨hfirst, hrest⟩ := List.nodup_cons.1 distinct
    rw [assemble, ih hrest, List.map_cons]
    congr 1
    refine List.map_congr_left fun head hhead => ?_
    have hne : head.1 ≠ id := fun heq => hfirst (List.mem_map.2 ⟨head, hhead, heq⟩)
    rw [filter_of_ne hne]

/-- The rows of orders that have a head appear once each among the orders, and no others do. -/
theorem lines_assemble_perm :
    ((assemble heads rows).flatMap lines).Perm
      (rows.filter fun row => row.1 ∈ heads.map (·.1)) := by
  induction heads generalizing rows with
  | nil => simp [assemble]
  | cons first heads ih =>
    obtain ⟨id, user⟩ := first
    have htaken : (rows.filter fun row => row.1 ∈ id :: heads.map (·.1)).filter (·.1 = id) =
        rows.filter (·.1 = id) := by
      rw [List.filter_filter]
      refine List.filter_congr fun row _ => ?_
      by_cases h : row.1 = id <;> simp [h]
    have hleft : (rows.filter fun row => row.1 ∈ id :: heads.map (·.1)).filter
          (fun row => !decide (row.1 = id)) =
        (rows.filter (·.1 ≠ id)).filter fun row => row.1 ∈ heads.map (·.1) := by
      rw [List.filter_filter, List.filter_filter]
      refine List.filter_congr fun row _ => ?_
      by_cases h : row.1 = id <;> simp [h]
    have hsplit := List.filter_append_perm (fun row => decide (row.1 = id))
      (rows.filter fun row => row.1 ∈ id :: heads.map (·.1))
    rw [htaken, hleft] at hsplit
    rw [assemble, List.flatMap_cons, lines_of_filter]
    exact (List.Perm.append_left _ ih).trans hsplit

/-- The rows of an order, mixed with those of others, are picked out by its identifier. -/
theorem filter_of_interleaves {orders : List Order} {others : List (OrderId × OrderItem)}
    (distinct : (orders.map (·.id)).Nodup) (hothers : ∀ row ∈ others, row.1 ∉ orders.map (·.id))
    (hmixed : Interleaves (others :: orders.map lines) rows) {order : Order} (h : order ∈ orders) :
    rows.filter (·.1 = order.id) = order.lines := by
  obtain ⟨i, hi, rfl⟩ := List.getElem_of_mem h
  refine hmixed.filter_eq (i := i + 1) (by simp [hi]) ?_ fun j l hj hne => ?_
  · simp [lines]
  · cases j with
    | zero =>
      obtain rfl : others = l := by simpa using hj
      intro row hrow
      exact decide_eq_false fun heq => hothers row hrow (heq ▸ List.mem_map_of_mem h)
    | succ j =>
      simp only [List.getElem?_cons_succ, List.getElem?_map, Option.map_eq_some_iff] at hj
      obtain ⟨other, hother, rfl⟩ := hj
      obtain ⟨hj, rfl⟩ := List.getElem?_eq_some_iff.1 hother
      have hid : orders[j].id ≠ orders[i].id := by
        intro heq
        have hsame : (orders.map (·.id))[j]? = (orders.map (·.id))[i]? := by
          simp [hj, hi, heq]
        have hji : j = i := (List.getElem?_inj (by simpa using hj) distinct).1 hsame
        omega
      simp [lines, hid]

/-! ### Filing by order -/

/-- The files after one more row: its line goes into the file of its order, which is opened if there
is none. -/
def file (files : OrderId → Option (List OrderItem)) (row : OrderId × OrderItem) :
    OrderId → Option (List OrderItem) :=
  Function.update files row.1 (some ((files row.1).getD [] ++ [row.2]))

/-- The files of some rows. -/
def filed (rows : List (OrderId × OrderItem)) : OrderId → Option (List OrderItem) :=
  rows.foldl file fun _ => none

/-- The orders of some heads; each takes its file out. -/
def collect : List (OrderId × UserId) → (OrderId → Option (List OrderItem)) → List Order
  | [], _ => []
  | (id, user) :: heads, files =>
    ⟨id, user, (files id).getD []⟩ :: collect heads (Function.update files id none)

theorem getD_filed (id : OrderId) :
    (filed rows id).getD [] = (rows.filter (·.1 = id)).map (·.2) := by
  induction rows using List.reverseRecOn with
  | nil => rfl
  | append_singleton rows row ih =>
    rw [filed, List.foldl_append, List.foldl_cons, List.foldl_nil, ← filed, file,
      List.filter_append, List.map_append, ← ih]
    by_cases hid : row.1 = id
    · subst hid
      simp
    · rw [Function.update_of_ne (Ne.symm hid)]
      simp [hid]

/-- Orders may be made from files: a file that was taken out leaves no line behind. -/
theorem collect_of_getD {files : OrderId → Option (List OrderItem)}
    (h : ∀ id, (files id).getD [] = (rows.filter (·.1 = id)).map (·.2)) :
    collect heads files = assemble heads rows := by
  induction heads generalizing rows files with
  | nil => rfl
  | cons first heads ih =>
    obtain ⟨id, user⟩ := first
    rw [collect, assemble, h id, ih fun other => ?_]
    by_cases hid : other = id
    · rw [hid, Function.update_self, filter_of_eq]
      rfl
    · rw [Function.update_of_ne hid, h other, filter_of_ne hid]

theorem collect_filed : collect heads (filed rows) = assemble heads rows :=
  collect_of_getD getD_filed

/-! ### Reading back -/

/-- **What is kept in rows is read back.** From the heads and the lines of orders with distinct
identifiers come these very orders, however their lines are mixed with each other and with lines of
further orders. In general there is one order for each head; the first head of an identifier has its
rows in their order, and a later one has none; so the rows of orders that have a head appear once
each, and no others do. Filing the lines by order in a map, out of which each head takes its own,
comes to the same. -/
theorem assemble_restores :
    (∀ (orders : List Order) (others rows : List (OrderId × OrderItem)),
      (orders.map (·.id)).Nodup → (∀ row ∈ others, row.1 ∉ orders.map (·.id)) →
      Interleaves (others :: orders.map lines) rows →
      assemble (orders.map head) rows = orders) ∧
    (∀ orders : List Order, (orders.map (·.id)).Nodup →
      assemble (orders.map head) (orders.flatMap lines) = orders) ∧
    (∀ heads rows,
      (assemble heads rows).map head = heads ∧
      (∀ (i : Nat) head, heads[i]? = some head → (assemble heads rows)[i]? = some
        ⟨head.1, head.2, if head.1 ∈ (heads.take i).map (·.1) then []
          else (rows.filter (·.1 = head.1)).map (·.2)⟩) ∧
      ((assemble heads rows).flatMap lines).Perm
        (rows.filter fun row => row.1 ∈ heads.map (·.1))) ∧
    ∀ heads rows, collect heads (filed rows) = assemble heads rows := by
  have hrestores (orders : List Order) (others rows : List (OrderId × OrderItem))
      (distinct : (orders.map (·.id)).Nodup) (hothers : ∀ row ∈ others, row.1 ∉ orders.map (·.id))
      (hmixed : Interleaves (others :: orders.map lines) rows) :
      assemble (orders.map head) rows = orders := by
    have hids : (orders.map head).map (·.1) = orders.map (·.id) := by
      rw [List.map_map]
      rfl
    rw [assemble_of_nodup (hids ▸ distinct), List.map_map]
    refine (List.map_congr_left fun order horder => ?_).trans (List.map_id _)
    have hitems : (rows.filter (·.1 = order.id)).map (·.2) = order.items := by
      simp [filter_of_interleaves distinct hothers hmixed horder, lines, Function.comp_def]
    rw [Function.comp_apply, head, hitems]
    rfl
  refine ⟨hrestores, fun orders distinct => ?_, fun heads rows => ?_, fun _ _ => collect_filed⟩
  · refine hrestores orders [] _ distinct (by simp) ?_
    rw [List.flatMap_def]
    exact (Interleaves.flatten _).cons_nil
  · refine ⟨map_head_assemble, fun i head hhead => ?_, lines_assemble_perm⟩
    rw [getElem?_assemble, hhead, Option.map_some]

/-- Two orders of two lines each, among whose rows is one of a third order. -/
theorem assemble_restores_mixed :
    let orders : List Order := [⟨10, 1, [⟨1, 1⟩, ⟨4, 2⟩]⟩, ⟨11, 1, [⟨3, 1⟩, ⟨2, 5⟩]⟩]
    let others : List (OrderId × OrderItem) := [(12, ⟨9, 1⟩)]
    let rows : List (OrderId × OrderItem) :=
      [(11, ⟨3, 1⟩), (10, ⟨1, 1⟩), (12, ⟨9, 1⟩), (11, ⟨2, 5⟩), (10, ⟨4, 2⟩)]
    (orders.map (·.id)).Nodup ∧ (∀ row ∈ others, row.1 ∉ orders.map (·.id)) ∧
    Interleaves (others :: orders.map lines) rows ∧
    assemble [(10, 1), (11, 1)] rows = orders ∧
    ((assemble [(10, 1), (10, 2)] rows).flatMap lines).Perm
      [(10, ⟨1, 1⟩), (10, ⟨4, 2⟩)] := by
  intro orders others rows
  obtain ⟨hrestores, -, hgeneral, -⟩ := assemble_restores
  have distinct : (orders.map (·.id)).Nodup := by decide
  have hothers : ∀ row ∈ others, row.1 ∉ orders.map (·.id) := by decide
  have hmixed : Interleaves (others :: orders.map lines) rows :=
    .next 2 rfl <| .next 1 rfl <| .next 0 rfl <| .next 2 rfl <| .next 1 rfl <| .done (by decide)
  obtain ⟨-, -, hperm⟩ := hgeneral [(10, 1), (10, 2)] rows
  exact ⟨distinct, hothers, hmixed, hrestores orders others rows distinct hothers hmixed, hperm⟩

end Order

end Recommender
