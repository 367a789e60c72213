import Recommender.Service
import Recommender.Proofs.Answer
import Recommender.Proofs.Sorting

/-!
# Shelved products

A source over lists keeps its products on a shelf, in ascending order, and a service reads the first
page of it. Of what the lists hold, this leaves open neither the order in which products were given,
nor anything behind that page, nor what others have bought.

* `Source.Shelves` : a list is the shelf of some products.
* `Source.shelves_iff` : products have one shelf, and this is what a source keeps.
* `Service.memory` : a service over lists.
* `Service.fetch_memory` : what it fetches.
* `recommendations_memory` : what its answers depend on.
-/

namespace Recommender

variable {α : Type}

namespace Source

variable {products products' shelf : List (Product α)}

/-! ### Shelves -/

/-- A list is the shelf of some products: it is ascending, and products of one identifier stand in
it as they were given. -/
structure Shelves (products shelf : List (Product α)) : Prop where
  /-- Identifiers ascend. -/
  ascending : shelf.Pairwise (·.id ≤ ·.id)
  /-- Of each identifier, the shelf holds the same products in the same order. -/
  stable : ∀ id, shelf.filter (·.id = id) = products.filter (·.id = id)

theorem le_id_trans (a b c : Product α) (hab : decide (a.id ≤ b.id) = true)
    (hbc : decide (b.id ≤ c.id) = true) : decide (a.id ≤ c.id) = true :=
  decide_eq_true (Int64.le_trans (of_decide_eq_true hab) (of_decide_eq_true hbc))

theorem le_id_total (a b : Product α) : (decide (a.id ≤ b.id) || decide (b.id ≤ a.id)) = true := by
  simpa using Int64.le_total a.id b.id

theorem shelved_perm (products : List (Product α)) : (shelved products).Perm products :=
  List.mergeSort_perm ..

/-- An ascending list is its own shelf. -/
theorem shelved_of_pairwise (h : products.Pairwise (·.id ≤ ·.id)) : shelved products = products :=
  List.mergeSort_of_pairwise (h.imp decide_eq_true)

theorem tied_le_id (a b : Product α) :
    tied (fun a b : Product α => decide (a.id ≤ b.id)) a b = decide (b.id = a.id) := by
  rw [tied, Bool.eq_iff_iff, Bool.and_eq_true, decide_eq_true_eq, decide_eq_true_eq,
    decide_eq_true_eq]
  constructor
  · rintro ⟨hab, hba⟩
    exact Int64.le_antisymm hba hab
  · intro h
    exact ⟨h ▸ Int64.le_refl _, h ▸ Int64.le_refl _⟩

/-- A shelf is a stable sorting by identifiers. -/
theorem shelves_iff_sorts :
    Shelves products shelf ↔ Sorts (fun a b => decide (a.id ≤ b.id)) products shelf := by
  constructor
  · rintro ⟨hascending, hstable⟩
    refine ⟨hascending.imp decide_eq_true, fun a => ?_⟩
    rw [funext (tied_le_id a)]
    exact hstable a.id
  · rintro ⟨hpairwise, hstable⟩
    refine ⟨hpairwise.imp of_decide_eq_true, fun id => ?_⟩
    by_cases h : ∃ a : Product α, a.id = id
    · obtain ⟨a, rfl⟩ := h
      rw [← funext (tied_le_id a)]
      exact hstable a
    · -- no product has the identifier, whatever the list
      have hnone (l : List (Product α)) : l.filter (·.id = id) = [] :=
        List.filter_eq_nil_iff.2 fun a _ ha => h ⟨a, of_decide_eq_true ha⟩
      rw [hnone, hnone]

/-- Products have one shelf. -/
theorem shelves_iff : Shelves products shelf ↔ shelf = shelved products := by
  rw [shelves_iff_sorts, sorts_iff le_id_trans le_id_total, shelved]

/-- Without repeated identifiers, the order in which products are given leaves no trace. -/
theorem shelved_eq_of_perm (distinct : (products.map (·.id)).Nodup)
    (perm : products.Perm products') : shelved products = shelved products' := by
  refine mergeSort_eq_of_antisymm le_id_trans le_id_total perm fun a ha b hb hab hba => ?_
  have hid : a.id = b.id := Int64.le_antisymm (of_decide_eq_true hab) (of_decide_eq_true hba)
  exact List.inj_on_of_nodup_map distinct ha hb hid

/-! ### The first page -/

/-- The first page is the beginning of the shelf. -/
theorem pageOf_one (products : List (Product α)) (size : UInt32) :
    pageOf products 1 size = products.take size.toNat := by
  simp [pageOf, offset]

theorem checkPage_zero {β : Type} (data : Outcome β) : checkPage 1 0 data = .failed
    (.invalidInput "page and page size must be at least 1 (got page 1, size 0)") := by
  have htext : "page and page size must be at least 1 (got page " ++ toString (1 : UInt32).toNat
      ++ ", size " ++ toString (0 : UInt32).toNat ++ ")" =
        "page and page size must be at least 1 (got page 1, size 0)" := by decide +kernel
  rw [checkPage, if_pos (.inr rfl), htext]

end Source

open Source

namespace Service

/-- Services of equal weights and one seed that fetch the same answer the same. -/
theorem recommendations_congr [Scalar α] {first second : Service α} {user : UserId}
    {requested : Int64} {now : Instant} {entropy : Generator}
    (hweights : first.weights = second.weights) (hseed : first.seed = second.seed)
    (hfetch : first.fetch user now = second.fetch user now) :
    first.recommendations user requested now entropy =
      second.recommendations user requested now entropy := by
  rw [recommendations, recommendations, generator, generator, hfetch, hweights, hseed]

/-- A service over lists. -/
def memory (products : List (Product α)) (likes : List Like) (orders : List Order) (w : Weights α)
    (pageSize : UInt32) (seed : Option UInt64) : Service α :=
  ⟨.memory products likes orders, w, pageSize, seed⟩

variable {products : List (Product α)} {likes : List Like} {orders : List Order} {w : Weights α}
  {pageSize : UInt32} {seed : Option UInt64} {user : UserId} {now : Instant}

/-- A service over lists fetches the rows of the user, all likes and the beginning of the shelf. -/
theorem fetch_memory (h : pageSize ≠ 0) :
    (memory products likes orders w pageSize seed).fetch user now = .answered
      { user, now
        userLikes := likes.filter (·.user = user)
        userOrders := orders.filter (·.user = user)
        allLikes := likes
        catalog := (shelved products).take pageSize.toNat } := by
  have hpage : (Source.memory products likes orders).catalogPage 1 pageSize =
      .answered ((shelved products).take pageSize.toNat, (shelved products).length) := by
    simp [Source.memory, checkPage, pageOf_one, h]
  simp only [fetch, memory, hpage]
  rfl

/-- A page of no products is refused before anything is looked up in it. -/
theorem fetch_memory_zero :
    (memory products likes orders w 0 seed).fetch user now = .failed
      (.invalidInput "page and page size must be at least 1 (got page 1, size 0)") := by
  simp only [fetch, memory, Source.memory, checkPage_zero]
  rfl

end Service

/-- **What the answers of a service over lists depend on.** If products repeat no identifier, they
may be given in any order. Of their shelf only the beginning that makes a page has a part in an
answer, as if there were no other products; so all pages that hold everything give one answer. What
others have bought has no part in it. Every request for pages of no products fails. -/
theorem recommendations_memory [Scalar α] (likes : List Like) (w : Weights α) (seed : Option UInt64)
    (user : UserId) (requested : Int64) (now : Instant) (entropy : Generator) :
    let answer (products : List (Product α)) (orders : List Order) (pageSize : UInt32) :=
      (Service.memory products likes orders w pageSize seed).recommendations user requested now
        entropy
    (∀ products products' orders pageSize, (products.map (·.id)).Nodup → products.Perm products' →
      answer products orders pageSize = answer products' orders pageSize) ∧
    (∀ products shelf orders pageSize, Shelves products shelf → pageSize ≠ 0 →
      answer products orders pageSize = answer (shelf.take pageSize.toNat) orders pageSize) ∧
    (∀ products orders pageSize pageSize', pageSize ≠ 0 → pageSize' ≠ 0 →
      products.length ≤ pageSize.toNat → products.length ≤ pageSize'.toNat →
      answer products orders pageSize = answer products orders pageSize') ∧
    (∀ products orders orders' pageSize,
      orders.filter (·.user = user) = orders'.filter (·.user = user) →
      answer products orders pageSize = answer products orders' pageSize) ∧
    ∀ products orders, answer products orders 0 = .failed
      (.invalidInput "page and page size must be at least 1 (got page 1, size 0)") := by
  refine ⟨?_, ?_, ?_, ?_, ?_⟩
  · intro products products' orders pageSize distinct perm
    have hsource : Source.memory products likes orders = Source.memory products' likes orders := by
      simp only [Source.memory, shelved_eq_of_perm distinct perm]
    simp only [Service.memory, hsource]
  · intro products shelf orders pageSize hshelf hsize
    have hbeginning : (shelf.take pageSize.toNat).Pairwise (·.id ≤ ·.id) :=
      hshelf.ascending.sublist (List.take_sublist _ _)
    refine Service.recommendations_congr rfl rfl ?_
    rw [Service.fetch_memory hsize, Service.fetch_memory hsize, shelved_of_pairwise hbeginning,
      List.take_take, Nat.min_self, shelves_iff.1 hshelf]
  · intro products orders pageSize pageSize' hsize hsize' hall hall'
    rw [← (shelved_perm products).length_eq] at hall hall'
    refine Service.recommendations_congr rfl rfl ?_
    rw [Service.fetch_memory hsize, Service.fetch_memory hsize', List.take_of_length_le hall,
      List.take_of_length_le hall']
  · intro products orders orders' pageSize hown
    refine Service.recommendations_congr rfl rfl ?_
    by_cases hsize : pageSize = 0
    · rw [hsize, Service.fetch_memory_zero, Service.fetch_memory_zero]
    · rw [Service.fetch_memory hsize, Service.fetch_memory hsize, hown]
  · intro products orders
    simp only [Service.recommendations, Service.fetch_memory_zero, Outcome.map]

/-- The shop may be given its products backwards. With pages of three, it answers as if it had only
books; with pages of five or more, all answers are alike; and an order of the second user has no
part in any of them. -/
theorem recommendations_memory_shop :
    let answer (products : List (Product Binary64)) (orders : List Order) (pageSize : UInt32) :=
      (Service.memory products Shop.likes orders .standard pageSize (some 7)).recommendations 1 2
        Shop.noon (.tape [])
    (Shop.products.map (·.id)).Nodup ∧ Shop.products.Perm Shop.products.reverse ∧
    answer Shop.products [] 3 = answer Shop.products.reverse [] 3 ∧
    Shelves Shop.products.reverse Shop.products ∧
    answer Shop.products.reverse [] 3 = answer (Shop.products.take 3) [] 3 ∧
    answer Shop.products [] 5 = answer Shop.products [] 1000 ∧
    answer Shop.products [⟨1, 2, [⟨3, 1⟩]⟩] 3 = answer Shop.products [] 3 ∧
    answer Shop.products [] 0 = .failed
      (.invalidInput "page and page size must be at least 1 (got page 1, size 0)") := by
  obtain ⟨hperm, hbeginning, hall, hothers, hzero⟩ := recommendations_memory (α := Binary64)
    Shop.likes .standard (some 7) 1 2 Shop.noon (.tape [])
  have distinct : (Shop.products.map (·.id)).Nodup := by decide
  have perm : Shop.products.Perm Shop.products.reverse := (List.reverse_perm _).symm
  have hascending : Shop.products.Pairwise (·.id ≤ ·.id) := by decide
  have hshelf : Shelves Shop.products.reverse Shop.products :=
    shelves_iff.2 ((shelved_of_pairwise hascending).symm.trans (shelved_eq_of_perm distinct perm))
  exact ⟨distinct, perm, hperm _ _ _ _ distinct perm, hshelf,
    hbeginning _ _ [] 3 hshelf (by decide),
    hall _ _ _ _ (by decide) (by decide) (by decide) (by decide), hothers _ _ _ _ rfl, hzero _ _⟩

end Recommender
