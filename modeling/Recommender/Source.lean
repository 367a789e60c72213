import Recommender.Catalog
import Recommender.Outcome

/-!
# Sources of data

A `Source` answers the four questions that recommending asks. The catalog is read in pages, numbered
from 1.

* `Source.checkPage` : the rule that page numbers and page sizes start at 1.
* `Source.memory` : a source over lists.
* `Source.database` : a source over a database, by what it answers to queries.
* `Source.closedDatabase` : a source over a database whose connections are closed.
-/

namespace Recommender

/-- A store of products, likes and orders. -/
structure Source (α : Type) where
  /-- The name of the kind of store. -/
  name : String
  /-- The likes of a user. -/
  likesByUser : UserId → Outcome (List Like)
  /-- The orders of a user. -/
  ordersByUser : UserId → Outcome (List Order)
  /-- The likes of all users. -/
  allLikes : Outcome (List Like)
  /-- A page of the catalog, by number and size, and the number of all products. -/
  catalogPage : UInt32 → UInt32 → Outcome (List (Product α) × Nat)

namespace Source

variable {α : Type}

/-- The data of a page, unless its number or its size is zero. -/
def checkPage {β : Type} (page size : UInt32) (data : Outcome β) : Outcome β :=
  if page = 0 ∨ size = 0 then
    .failed <| .invalidInput <|
      "page and page size must be at least 1 (got page " ++ toString page.toNat ++ ", size "
        ++ toString size.toNat ++ ")"
  else data

/-- The products in the order of the catalog, ascending by identifier; products of one identifier
keep their order. -/
def shelved (products : List (Product α)) : List (Product α) :=
  products.mergeSort fun a b => decide (a.id ≤ b.id)

/-- How many products stand before a page, counted in 64 bits: a number that does not fit stays at
the greatest one. -/
def offset (page size : UInt32) : Nat :=
  min ((page.toNat - 1) * size.toNat) (UInt64.size - 1)

/-- The products of a page. -/
def pageOf (products : List (Product α)) (page size : UInt32) : List (Product α) :=
  (products.drop (offset page size)).take size.toNat

/-- A source over lists. -/
def memory (products : List (Product α)) (likes : List Like) (orders : List Order) : Source α :=
  let catalog := shelved products
  { name := "memory"
    likesByUser := fun user => .answered (likes.filter (·.user = user))
    ordersByUser := fun user => .answered (orders.filter (·.user = user))
    allLikes := .answered likes
    catalogPage := fun page size =>
      checkPage page size (.answered (pageOf catalog page size, catalog.length)) }

end Source

/-- What a database answers to the queries of a source. Products and orders that were deleted are
not among its answers. -/
structure Database (α : Type) where
  /-- The likes of a user, in the order in which they were stored. -/
  likesOf : UserId → Outcome (List Like)
  /-- The likes of all users, in the order in which they were stored. -/
  likes : Outcome (List Like)
  /-- The heads of the orders of a user, in ascending order. -/
  heads : UserId → Outcome (List (OrderId × UserId))
  /-- The lines of some orders, in the order in which they were stored. -/
  lines : List OrderId → Outcome (List (OrderId × OrderItem))
  /-- The number of products. -/
  total : Outcome Nat
  /-- At most so many products in ascending order of identifier, after so many others. -/
  products : (limit offset : Int64) → Outcome (List (Product α))

namespace Source

variable {α : Type}

/-- A source over a database. The lines of orders are only asked for if there are orders, and the
products of a page only after their number. -/
def database (db : Database α) : Source α where
  name := "postgres"
  likesByUser := db.likesOf
  ordersByUser user := (db.heads user).andThen fun heads =>
    if heads.isEmpty then .answered []
    else (db.lines (heads.map (·.1))).map (Order.assemble heads)
  allLikes := db.likes
  catalogPage page size := checkPage page size <| db.total.andThen fun total =>
    (db.products (.ofNat size.toNat) (.ofNat (page.toNat - 1) * .ofNat size.toNat)).map (·, total)

/-- A source over a database whose connections are closed, so that every query fails. -/
def closedDatabase : Source α :=
  let closed {β : Type} : Outcome β := .failed (.database .poolClosed)
  database
    { likesOf := fun _ => closed
      likes := closed
      heads := fun _ => closed
      lines := fun _ => closed
      total := closed
      products := fun _ _ => closed }

end Source

end Recommender
