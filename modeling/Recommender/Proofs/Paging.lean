import Recommender.Proofs.Shelving
import Mathlib.Algebra.Order.Floor.Div

/-!
# Reading the catalog page by page

A source over lists cuts its shelf into pages of one size, the last of which may be shorter.

* `Source.Serves` : a source hands out some pages, and nothing behind them.
* `Source.offset_eq` : no page begins so far behind that 64 bits could not count it.
* `Source.flatten_pages` : pages of one size, one behind the other, are what was cut into them.
* `Source.catalogPages_complete` : so the pages of a source over lists are its shelf.
-/

namespace Recommender

/-- Windows of one size, one behind the other, are the beginning of a list. -/
theorem flatten_windows {γ : Type} (l : List γ) (size count : Nat) :
    ((List.range count).map fun k => (l.drop (k * size)).take size).flatten =
      l.take (count * size) := by
  induction count with
  | zero => simp
  | succ count ih =>
    rw [List.range_succ, List.map_append, List.flatten_append, ih, Nat.succ_mul, List.take_add]
    simp

namespace Source

variable {α : Type}

/-- A source hands out some pages of one size, numbered from 1, and nothing behind them. All but the
last are full. With each page it tells the number of all products. -/
structure Serves (source : Source α) (size : UInt32) (total : Nat)
    (pages : List (List (Product α))) : Prop where
  /-- The pages stand under their numbers. -/
  answered : ∀ (k : Nat), ∀ page ∈ pages[k]?,
    source.catalogPage (.ofNat (k + 1)) size = .answered (page, total)
  /-- All but the last are full. -/
  full : ∀ page ∈ pages.dropLast, page.length = size.toNat
  /-- Behind the last there are empty pages. -/
  behind : ∀ number : UInt32, pages.length < number.toNat →
    source.catalogPage number size = .answered ([], total)

/-! ### Where a page begins -/

theorem mul_lt_of_words (page size : UInt32) : (page.toNat - 1) * size.toNat < 2 ^ 64 := by
  have hpage : page.toNat - 1 < 2 ^ 32 := Nat.lt_of_le_of_lt (Nat.sub_le _ _) page.toNat_lt
  calc (page.toNat - 1) * size.toNat < 2 ^ 32 * 2 ^ 32 := Nat.mul_lt_mul'' hpage size.toNat_lt
    _ = 2 ^ 64 := (Nat.pow_add 2 32 32).symm

theorem offset_eq (page size : UInt32) : offset page size = (page.toNat - 1) * size.toNat :=
  Nat.min_eq_left (Nat.le_sub_one_of_lt (mul_lt_of_words page size))

theorem pageOf_eq (shelf : List (Product α)) (size : UInt32) {k : Nat} (h : k + 1 < 2 ^ 32) :
    pageOf shelf (.ofNat (k + 1)) size = (shelf.drop (k * size.toNat)).take size.toNat := by
  rw [pageOf, offset_eq, UInt32.toNat_ofNat_of_lt' h, Nat.add_sub_cancel]

/-! ### Cutting a shelf -/

/-- A shelf cut into pages of one size. -/
def pages (shelf : List (Product α)) (size : Nat) : List (List (Product α)) :=
  (List.range (shelf.length ⌈/⌉ size)).map fun k => (shelf.drop (k * size)).take size

variable {shelf : List (Product α)} {size k : Nat}

theorem length_pages : (pages shelf size).length = shelf.length ⌈/⌉ size := by
  rw [pages, List.length_map, List.length_range]

/-- A page is within the shelf or behind it. -/
theorem length_pages_le_iff (hsize : 0 < size) :
    shelf.length ⌈/⌉ size ≤ k ↔ shelf.length ≤ k * size := by
  rw [ceilDiv_le_iff_le_mul hsize, Nat.mul_comm]

theorem flatten_pages (hsize : 0 < size) : (pages shelf size).flatten = shelf := by
  rw [pages, flatten_windows]
  exact List.take_of_length_le ((length_pages_le_iff hsize).1 (Nat.le_refl _))

theorem length_of_mem_dropLast_pages (hsize : 0 < size) {page : List (Product α)}
    (h : page ∈ (pages shelf size).dropLast) : page.length = size := by
  rw [List.dropLast_eq_take, length_pages, pages, ← List.map_take, List.take_range,
    List.mem_map] at h
  obtain ⟨k, hk, rfl⟩ := h
  have hnext : k + 1 < shelf.length ⌈/⌉ size := by
    have := List.mem_range.1 hk
    omega
  -- the next page is within the shelf, too, so this one is full
  have hwithin : (k + 1) * size < shelf.length :=
    Nat.not_le.1 (mt (length_pages_le_iff hsize).2 (Nat.not_le.2 hnext))
  rw [Nat.succ_mul] at hwithin
  rw [List.length_take, List.length_drop]
  omega

/-! ### The pages of a source over lists -/

variable {products : List (Product α)} {likes : List Like} {orders : List Order}

theorem catalogPage_memory {number size : UInt32} (hnumber : 0 < number.toNat) (hsize : size ≠ 0) :
    (memory products likes orders).catalogPage number size =
      .answered (pageOf (shelved products) number size, products.length) := by
  have hne : number ≠ 0 := by
    rintro rfl
    exact Nat.lt_irrefl 0 hnumber
  simp [memory, checkPage, hne, hsize, (shelved_perm products).length_eq]

theorem serves_memory {size : UInt32} (hsize : size ≠ 0)
    (hcount : (shelved products).length ⌈/⌉ size.toNat < 2 ^ 32) :
    (memory products likes orders).Serves size products.length
      (pages (shelved products) size.toNat) := by
  have hpos : 0 < size.toNat := Nat.pos_of_ne_zero fun h => hsize (UInt32.toNat.inj h)
  refine ⟨fun k page hpage => ?_, fun page => length_of_mem_dropLast_pages hpos,
    fun number hnumber => ?_⟩
  · obtain ⟨hk, rfl⟩ := List.getElem?_eq_some_iff.1 hpage
    have hnumber : k + 1 < 2 ^ 32 := Nat.lt_of_le_of_lt (length_pages ▸ hk) hcount
    have hstands : 0 < (UInt32.ofNat (k + 1)).toNat := by
      rw [UInt32.toNat_ofNat_of_lt' hnumber]
      exact Nat.succ_pos k
    rw [catalogPage_memory hstands hsize, pageOf_eq _ _ hnumber]
    simp [pages]
  · have hbehind : (shelved products).length ≤ (number.toNat - 1) * size.toNat := by
      rw [length_pages] at hnumber
      exact (length_pages_le_iff hpos).1 (Nat.le_sub_one_of_lt hnumber)
    rw [catalogPage_memory (Nat.zero_lt_of_lt hnumber) hsize, pageOf, offset_eq,
      List.drop_eq_nil_of_le hbehind, List.take_nil]

theorem checkPage_of_zero {β : Type} {page size : UInt32} (h : page = 0 ∨ size = 0)
    (data : Outcome β) : checkPage page size data = .failed (.invalidInput
      ("page and page size must be at least 1 (got page " ++ toString page.toNat ++ ", size "
        ++ toString size.toNat ++ ")")) := by
  rw [checkPage, if_pos h]

/-- **Reading page by page loses and repeats nothing.** A source over lists hands out as many pages
of a size as are needed to hold all products, all of them full but the last one. One behind the
other they are the shelf of the products: ascending by identifier, with products of one identifier
as they were given. A page without a number or a size is refused by every source, and no page begins
too far behind to be counted in 64 bits. -/
theorem catalogPages_complete :
    (∀ (products : List (Product α)) (likes : List Like) (orders : List Order) (size : UInt32),
      size ≠ 0 → products.length ⌈/⌉ size.toNat < 2 ^ 32 →
      ∃ pages : List (List (Product α)), pages.length = products.length ⌈/⌉ size.toNat ∧
        (memory products likes orders).Serves size products.length pages ∧
        Shelves products pages.flatten ∧ pages.flatten.Perm products) ∧
    (∀ page size : UInt32, page = 0 ∨ size = 0 →
      let refusal := Outcome.failed (.invalidInput
        ("page and page size must be at least 1 (got page " ++ toString page.toNat ++ ", size "
          ++ toString size.toNat ++ ")"))
      (∀ (products : List (Product α)) likes orders,
        (memory products likes orders).catalogPage page size = refusal) ∧
      ∀ db : Database α, (database db).catalogPage page size = refusal) ∧
    ∀ page size : UInt32, (page.toNat - 1) * size.toNat < 2 ^ 64 ∧
      offset page size = (page.toNat - 1) * size.toNat := by
  refine ⟨fun products likes orders size hsize hcount => ?_, fun page size hzero => ?_,
    fun page size => ⟨mul_lt_of_words page size, offset_eq page size⟩⟩
  · have hpos : 0 < size.toNat := Nat.pos_of_ne_zero fun h => hsize (UInt32.toNat.inj h)
    rw [← (shelved_perm products).length_eq] at hcount
    refine ⟨pages (shelved products) size.toNat, ?_, serves_memory hsize hcount, ?_, ?_⟩
    · rw [length_pages, (shelved_perm products).length_eq]
    · rw [flatten_pages hpos, shelves_iff]
    · rw [flatten_pages hpos]
      exact shelved_perm products
  · exact ⟨fun _ _ _ => checkPage_of_zero hzero _, fun _ => checkPage_of_zero hzero _⟩

/-- The five products of the shop, given backwards, fill two pages of two and half of a third. -/
theorem catalogPages_complete_shop :
    let source := memory Shop.products.reverse Shop.likes []
    (2 : UInt32) ≠ 0 ∧ Shop.products.reverse.length ⌈/⌉ (2 : UInt32).toNat < 2 ^ 32 ∧
    (∃ pages : List (List (Product Binary64)), pages.length = 3 ∧ source.Serves 2 5 pages ∧
      pages.flatten = Shop.products) ∧
    source.catalogPage 0 2 = .failed
      (.invalidInput "page and page size must be at least 1 (got page 0, size 2)") := by
  intro source
  obtain ⟨hpages, hrefused, -⟩ := catalogPages_complete (α := Binary64)
  have hsize : (2 : UInt32) ≠ 0 := by decide
  have hcount : Shop.products.reverse.length ⌈/⌉ (2 : UInt32).toNat < 2 ^ 32 := by decide
  have hshelf : shelved Shop.products.reverse = Shop.products :=
    (shelved_eq_of_perm (by decide) (List.reverse_perm _)).trans (shelved_of_pairwise (by decide))
  obtain ⟨pages, hlength, hserves, hflatten, -⟩ :=
    hpages Shop.products.reverse Shop.likes [] 2 hsize hcount
  refine ⟨hsize, hcount, ⟨pages, hlength.trans (by decide), hserves, ?_⟩, ?_⟩
  · rw [shelves_iff.1 hflatten, hshelf]
  · rw [(hrefused 0 2 (.inl rfl)).1]
    decide +kernel

end Source

end Recommender
