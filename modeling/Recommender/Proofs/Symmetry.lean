import Recommender.Proofs.Cosine
import Recommender.Proofs.Evidence
import Recommender.Proofs.Multiplication
import Recommender.Proofs.Exact

/-!
# Similarity is symmetric

Two users are compared by what they gave to the products that both rated. The ratings are found by
walking through one row and looking into the other, but which row is walked through does not show:
the products are the same, and ascending order leaves one way to list them.

* `Ratings.SharedVectors` : the vectors that two users are compared by.
* `Ratings.SharedVectors.unique`, `Ratings.sharedVectors_common` : there is one pair of them, which
  the walk finds.
* `Ratings.similarity_of_sharedVectors` : the metric is asked for this pair only.
* `Cosine.cosine_comm_of_entries` : the cosine of floating point vectors does not depend on their
  order, bit for bit, unless two NaNs stand at one place.
* `Ratings.similarity_symmetric` : so similarity by the cosine, and by any symmetric metric, is
  symmetric.
-/

namespace Recommender

namespace Ratings

variable {α : Type} {r : Ratings α} {u v : UserId} {a b a' b' : List α}

/-! ### The vectors that users are compared by -/

/-- What two users gave to the products that both rated, in ascending order of product. -/
def SharedVectors (r : Ratings α) (u v : UserId) (a b : List α) : Prop :=
  ∃ products : List ProductId,
    products.Pairwise (· < ·) ∧
    (∀ product, product ∈ products ↔
      (r.rating? u product).isSome ∧ (r.rating? v product).isSome) ∧
    products.map (r.rating? u) = a.map some ∧ products.map (r.rating? v) = b.map some

namespace SharedVectors

theorem symm (h : r.SharedVectors u v a b) : r.SharedVectors v u b a := by
  obtain ⟨products, hascending, hmem, ha, hb⟩ := h
  exact ⟨products, hascending, fun product => (hmem product).trans and_comm, hb, ha⟩

theorem length_eq (h : r.SharedVectors u v a b) : a.length = b.length := by
  obtain ⟨products, -, -, ha, hb⟩ := h
  have hlength := congrArg List.length ha
  have hlength' := congrArg List.length hb
  simp only [List.length_map] at hlength hlength'
  exact hlength.symm.trans hlength'

/-- Ascending order leaves one way to list the products. -/
theorem unique (h : r.SharedVectors u v a b) (h' : r.SharedVectors u v a' b') :
    a = a' ∧ b = b' := by
  obtain ⟨products, hascending, hmem, ha, hb⟩ := h
  obtain ⟨products', hascending', hmem', ha', hb'⟩ := h'
  obtain rfl : products = products' := List.Pairwise.eq_of_mem_iff (r := (· < ·)) hascending
    hascending' fun product => (hmem product).trans (hmem' product).symm
  have hsome := List.map_injective_iff.2 (Option.some_injective α)
  exact ⟨hsome (ha.symm.trans ha'), hsome (hb.symm.trans hb')⟩

/-- Entries at one place were given to one product. -/
theorem exists_product (h : r.SharedVectors u v a b) {p : α × α} (hp : p ∈ a.zip b) :
    ∃ product, r.rating? u product = some p.1 ∧ r.rating? v product = some p.2 := by
  obtain ⟨products, -, -, ha, hb⟩ := h
  have hpairs : (some p.1, some p.2) ∈ (a.map some).zip (b.map some) := by
    rw [List.zip_map]
    exact List.mem_map_of_mem hp
  rw [← ha, ← hb, List.zip_map', List.mem_map] at hpairs
  obtain ⟨product, -, hproduct⟩ := hpairs
  exact ⟨product, Prod.mk.inj hproduct⟩

end SharedVectors

/-- The products of one user that the other rated, too. -/
def sharedProducts (r : Ratings α) (u v : UserId) : List ProductId :=
  (r.row u).keys.filter fun product => (r.rating? v product).isSome

/-- The walk through the row of one user finds what both gave to these products. -/
theorem map_some_common :
    (common (r.row u) (r.row v)).map (Prod.map some some) =
      (r.sharedProducts u v).map fun product => (r.rating? u product, r.rating? v product) := by
  rw [common, sharedProducts, Table.keys, ← List.filterMap_eq_filter, List.map_filterMap,
    List.map_filterMap, List.filterMap_map]
  refine List.filterMap_congr fun e he => ?_
  have hown : r.rating? u e.1 = some e.2 := Table.mem_entries_iff.1 he
  have hother : r.rating? v e.1 = (r.row v).get? e.1 := rfl
  cases h : (r.row v).get? e.1 with
  | none => simp [Option.guard, hother, h]
  | some rating => simp [Option.guard, hown, hother, h]

theorem sharedVectors_common :
    r.SharedVectors u v ((common (r.row u) (r.row v)).map (·.1))
      ((common (r.row u) (r.row v)).map (·.2)) := by
  have hfirst := congrArg (List.map Prod.fst) (map_some_common (r := r) (u := u) (v := v))
  have hsecond := congrArg (List.map Prod.snd) (map_some_common (r := r) (u := u) (v := v))
  simp only [List.map_map, Function.comp_def, Prod.map_fst, Prod.map_snd] at hfirst hsecond
  refine ⟨r.sharedProducts u v, (r.row u).pairwise_keys.filter _, fun product => ?_, ?_, ?_⟩
  · rw [sharedProducts, List.mem_filter, Table.mem_keys_iff]
    rfl
  · rw [List.map_map]
    exact hfirst.symm
  · rw [List.map_map]
    exact hsecond.symm

theorem exists_sharedVectors (r : Ratings α) (u v : UserId) : ∃ a b, r.SharedVectors u v a b :=
  ⟨_, _, sharedVectors_common⟩

variable [Scalar α] {metric metric' : Metric α}

/-- The metric is asked for the shared vectors only, if they have entries. -/
theorem similarity_of_sharedVectors (h : r.SharedVectors u v a b) :
    r.similarity metric u v = if a = [] then Scalar.ofNat 0 else metric a b := by
  obtain ⟨rfl, rfl⟩ := h.unique sharedVectors_common
  rw [similarity_eq]
  simp only [List.map_eq_nil_iff]

/-- What a metric says of other vectors has no part in a similarity. -/
theorem similarity_congr
    (h : ∀ a b, r.SharedVectors u v a b → a ≠ [] → metric a b = metric' a b) :
    r.similarity metric u v = r.similarity metric' u v := by
  obtain ⟨a, b, hshared⟩ := r.exists_sharedVectors u v
  rw [similarity_of_sharedVectors hshared, similarity_of_sharedVectors hshared]
  split_ifs with hnil
  · rfl
  · exact h a b hshared hnil

theorem similarity_comm (h : ∀ a b, r.SharedVectors u v a b → metric a b = metric b a) :
    r.similarity metric u v = r.similarity metric v u := by
  obtain ⟨a, b, hshared⟩ := r.exists_sharedVectors u v
  have hnil : a = [] ↔ b = [] := by
    rw [← List.length_eq_zero_iff, ← List.length_eq_zero_iff, hshared.length_eq]
  rw [similarity_of_sharedVectors hshared, similarity_of_sharedVectors hshared.symm,
    h a b hshared]
  simp only [hnil]

end Ratings

/-! ### Cosines of floating point vectors -/

namespace Cosine

open Binary64

variable {a b : List Binary64}

/-- One NaN makes a scalar product a NaN. -/
theorem isNaN_dot (h : a.length = b.length)
    (hnan : (∃ x ∈ a, x.isNaN) ∨ ∃ y ∈ b, y.isNaN) : (dot a b).isNaN := by
  obtain ⟨i, hi, hi', hnan⟩ : ∃ (i : Nat) (hi : i < a.length) (hi' : i < b.length),
      a[i].isNaN ∨ b[i].isNaN := by
    rcases hnan with ⟨x, hx, hnan⟩ | ⟨y, hy, hnan⟩
    · obtain ⟨i, hi, rfl⟩ := List.getElem_of_mem hx
      exact ⟨i, hi, h ▸ hi, .inl hnan⟩
    · obtain ⟨i, hi, rfl⟩ := List.getElem_of_mem hy
      exact ⟨i, h ▸ hi, hi, .inr hnan⟩
  refine isNaN_sum ⟨a[i] * b[i], ?_, isNaN_lift₂ hnan⟩
  exact List.mem_iff_getElem.2 ⟨i, by simpa using ⟨hi, hi'⟩, List.getElem_zipWith⟩

/-- If there is a NaN among the entries, the cosine passes on the NaN of the scalar product. -/
theorem cosine_of_isNaN (h : a.length = b.length)
    (hnan : (∃ x ∈ a, x.isNaN) ∨ ∃ y ∈ b, y.isNaN) : cosine a b = (dot a b).quiet := by
  have hroots : (magnitudes a b).isNaN := by
    refine isNaN_lift₂ (hnan.imp ?_ ?_)
    · exact fun ha => isNaN_sqrt (isNaN_dot rfl (.inl ha))
    · exact fun hb => isNaN_sqrt (isNaN_dot rfl (.inl hb))
  have hentries : a ≠ [] := by
    rintro rfl
    obtain rfl := List.length_eq_zero_iff.1 h.symm
    simp at hnan
  rw [cosine, if_neg (not_or.2 ⟨not_not.2 h, hentries⟩)]
  show (if magnitudes a b == Scalar.ofNat 0 then _ else _) = _
  rw [beq_of_isNaN hroots]
  exact lift₂_of_isNaN_left (isNaN_dot h hnan)

theorem settled_dot (ha : ∀ x ∈ a, Settled x) (hb : ∀ y ∈ b, Settled y) : Settled (dot a b) := by
  refine settled_sum fun product hproduct => ?_
  rw [← List.map_uncurry_zip_eq_zipWith, List.mem_map] at hproduct
  obtain ⟨p, hp, rfl⟩ := hproduct
  obtain ⟨hx, hy⟩ := List.of_mem_zip hp
  exact settled_lift₂ (ha p.1 hx) (hb p.2 hy)

/-- If entries at one place may be multiplied in either order, vectors may be compared in either
order, bit for bit. -/
theorem cosine_comm_of_entries (entries : ∀ p ∈ a.zip b, p.1 * p.2 = p.2 * p.1) :
    cosine a b = cosine b a := by
  by_cases h : a.length = b.length
  · by_cases hnan : (∃ x ∈ a, x.isNaN) ∨ ∃ y ∈ b, y.isNaN
    · -- the roots may be different NaNs, but a scalar product that is a NaN hides them
      rw [cosine_of_isNaN h hnan, cosine_of_isNaN h.symm hnan.symm, dot_comm entries]
    · -- from numbers alone there comes one NaN at most
      obtain ⟨ha, hb⟩ := not_or.1 hnan
      have hsettled : ∀ x ∈ a, Settled x := fun x hx hxn => absurd ⟨x, hx, hxn⟩ ha
      have hsettled' : ∀ y ∈ b, Settled y := fun y hy hyn => absurd ⟨y, hy, hyn⟩ hb
      refine cosine_comm entries (mul_comm_of_settled ?_ ?_)
      · exact settled_sqrt (settled_dot hsettled hsettled)
      · exact settled_sqrt (settled_dot hsettled' hsettled')
  · exact cosine_comm_of_length_ne h

/-- In either order a cosine has the same bits, or is a NaN. -/
theorem cosine_comm_or_isNaN (a b : List Binary64) :
    cosine a b = cosine b a ∨ (cosine a b).isNaN ∧ (cosine b a).isNaN := by
  by_cases entries : ∀ p ∈ a.zip b, p.1 * p.2 = p.2 * p.1
  · exact .inl (cosine_comm_of_entries entries)
  · simp only [not_forall] at entries
    obtain ⟨p, hp, hne⟩ := entries
    obtain ⟨hx, hy⟩ := List.of_mem_zip hp
    have hxn : p.1.isNaN := by
      by_contra hxn
      exact hne (mul_comm_iff.2 fun hnan => absurd hnan hxn)
    by_cases h : a.length = b.length
    · refine .inr ⟨?_, ?_⟩
      · rw [cosine_of_isNaN h (.inl ⟨_, hx, hxn⟩)]
        exact isNaN_quiet (isNaN_dot h (.inl ⟨_, hx, hxn⟩))
      · rw [cosine_of_isNaN h.symm (.inr ⟨_, hx, hxn⟩)]
        exact isNaN_quiet (isNaN_dot h.symm (.inr ⟨_, hx, hxn⟩))
    · exact .inl (cosine_comm_of_length_ne h)

end Cosine

namespace Ratings

/-- **Two users are as alike as the other way round.** A similarity asks its metric for one pair of
vectors at most: for what both users gave to the products that both rated, in ascending order of
product, if there is such a product. So the vectors have entries, as many the one as the other, and
the cosine comes to be asked only where it does not look at the shape of its vectors. By a symmetric
metric, similarity is symmetric. The cosine is symmetric on all vectors if multiplication is. On
floating point numbers, bit for bit, it is enough that the entries at each place may be multiplied
in either order, which may fail for two NaNs only; also then the cosines are NaNs. -/
theorem similarity_symmetric {α : Type} [RootedScalar α] :
    (∀ (r : Ratings α) (u v : UserId), ∃ a b, r.SharedVectors u v a b ∧ a.length = b.length ∧
      ∀ metric, r.similarity metric u v = if a = [] then Scalar.ofNat 0 else metric a b) ∧
    (∀ (r : Ratings α) (u v : UserId) (metric metric' : Metric α),
      (∀ a b, r.SharedVectors u v a b → a ≠ [] → b ≠ [] → a.length = b.length →
        metric a b = metric' a b) →
      r.similarity metric u v = r.similarity metric' u v) ∧
    (∀ (r : Ratings α) (u v : UserId), r.similarity cosine u v =
      r.similarity (fun a b => Cosine.quotient (Cosine.accumulate a b)) u v) ∧
    (∀ metric : Metric α, (∀ a b, metric a b = metric b a) →
      ∀ (r : Ratings α) (u v : UserId), r.similarity metric u v = r.similarity metric v u) ∧
    ((∀ x y : α, x * y = y * x) → ∀ a b : List α, cosine a b = cosine b a) ∧
    (∀ a b : List Binary64, (∀ p ∈ a.zip b, p.1 * p.2 = p.2 * p.1) →
      cosine a b = cosine b a) ∧
    (∀ x y : Binary64, x * y = y * x ↔ (x.isNaN → y.isNaN → x.quiet = y.quiet)) ∧
    (∀ a b : List Binary64,
      cosine a b = cosine b a ∨ (cosine a b).isNaN ∧ (cosine b a).isNaN) ∧
    ∀ (r : Ratings Binary64) (u v : UserId),
      (∀ product x y, r.rating? u product = some x → r.rating? v product = some y →
        x.isNaN → y.isNaN → x.quiet = y.quiet) →
      r.similarity cosine u v = r.similarity cosine v u := by
  refine ⟨?_, ?_, ?_, ?_, ?_, ?_, ?_, ?_, ?_⟩
  · intro r u v
    obtain ⟨a, b, hshared⟩ := r.exists_sharedVectors u v
    exact ⟨a, b, hshared, hshared.length_eq, fun _ => similarity_of_sharedVectors hshared⟩
  · intro r u v metric metric' h
    refine similarity_congr fun a b hshared hentries => ?_
    have hentries' : b ≠ [] := by
      rintro rfl
      exact hentries (List.length_eq_zero_iff.1 hshared.length_eq)
    exact h a b hshared hentries hentries' hshared.length_eq
  · intro r u v
    exact similarity_congr fun a b hshared hentries =>
      Cosine.cosine_eq_quotient hshared.length_eq hentries
  · intro metric symmetric r u v
    exact similarity_comm fun a b _ => symmetric a b
  · intro hmul a b
    exact Cosine.cosine_comm (fun p _ => hmul p.1 p.2) (hmul _ _)
  · intro a b
    exact Cosine.cosine_comm_of_entries
  · intro x y
    exact Binary64.mul_comm_iff
  · exact Cosine.cosine_comm_or_isNaN
  · intro r u v h
    refine similarity_comm fun a b hshared => Cosine.cosine_comm_of_entries fun p hp => ?_
    obtain ⟨product, hx, hy⟩ := hshared.exists_product hp
    exact Binary64.mul_comm_iff.2 (h product p.1 p.2 hx hy)

open Shop in
/-- The first two customers of the shop both rated products 1 and 3, and are as alike as the other
way round: by a metric that refuses vectors of different lengths, by the number of products, by the
cosine, and by the cosine of exact numbers. A NaN beside a number does no harm. -/
theorem similarity_symmetric_shop :
    (∃ a b, (ratings Binary64).SharedVectors 1 2 a b ∧ a.length = b.length ∧
      ∀ metric, (ratings Binary64).similarity metric 1 2 =
        if a = [] then Scalar.ofNat 0 else metric a b) ∧
    (ratings Binary64).similarity cosine 1 2 =
      (ratings Binary64).similarity (fun a b =>
        if a.length = b.length then cosine a b else Binary64.undefined) 1 2 ∧
    (ratings Binary64).similarity (fun a b => Scalar.ofNat (a.length + b.length)) 1 2 =
      (ratings Binary64).similarity (fun a b => Scalar.ofNat (a.length + b.length)) 2 1 ∧
    (ratings Binary64).similarity cosine 1 2 = (ratings Binary64).similarity cosine 2 1 ∧
    cosine [Binary64.nan] [Scalar.ofNat 1] = cosine [Scalar.ofNat 1] [Binary64.nan] ∧
    cosine [(5 : ℝ), 2] [4, 5] = cosine [4, 5] [5, 2] := by
  obtain ⟨hshared, hcongr, -, hmetric, -, hentries, hmul, -, hcosine⟩ :=
    similarity_symmetric (α := Binary64)
  obtain ⟨-, -, -, -, hexact, -, -, -, -⟩ := similarity_symmetric (α := ℝ)
  have hnumbers : ∀ e ∈ ((ratings Binary64).row 1).entries, ¬ e.2.isNaN := by decide +kernel
  refine ⟨hshared _ 1 2, hcongr _ 1 2 _ _ ?_, hmetric _ ?_ _ 1 2, hcosine _ 1 2 ?_,
    hentries _ _ ?_, hexact mul_comm _ _⟩
  · intro a b _ _ _ hlength
    rw [if_pos hlength]
  · intro a b
    rw [Nat.add_comm]
  · intro product x y hx _ hxn
    exact absurd hxn (hnumbers (product, x) (Table.mem_entries_iff.2 hx))
  · intro p hp
    obtain rfl := List.mem_singleton.1 hp
    exact (hmul _ _).2 fun _ hnan => absurd hnan (by decide)

/-- Which of two NaNs a cosine is depends on their order. -/
example : cosine [Binary64.nan] [Binary64.undefined] ≠
    cosine [Binary64.undefined] [Binary64.nan] := by decide +kernel

end Ratings

end Recommender
