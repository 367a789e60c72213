import Recommender.Catalog

/-!
# Snapshots

A `Snapshot` holds everything that an answer to one user depends on. Its lists may be at odds with
each other: the lists of the user may hold rows of others, the list of all likes may lack the user's
own, and the catalog may repeat an identifier.

* `Snapshot.interacted` : the products that the user knows, liked or bought.
* `Snapshot.unseen` : the entries of the catalog that the user does not know.
* `Snapshot.product?` : the entry of an identifier.
* `Snapshot.likeCount` : the likes of all users on a product.
* `Snapshot.index`, `Snapshot.likeCounts` : entries and numbers of likes, listed by identifier.
-/

namespace Recommender

/-- What an answer to one user depends on. -/
structure Snapshot (α : Type) where
  /-- The user who is answered. -/
  user : UserId
  /-- The likes of the user. -/
  userLikes : List Like
  /-- The orders of the user. -/
  userOrders : List Order
  /-- The likes of all users. -/
  allLikes : List Like
  /-- The products on offer. -/
  catalog : List (Product α)
  /-- The time of the answer. -/
  now : Instant

/-- Identifiers in ascending order, each once. -/
def ascendingIds (ids : List Int64) : List Int64 :=
  ids.eraseDups.mergeSort fun a b => decide (a ≤ b)

namespace Snapshot

variable {α : Type} (s : Snapshot α)

/-- The products that the user liked, by either list of likes, each once, in the order of their
first like. -/
def liked : List ProductId :=
  (((s.userLikes ++ s.allLikes).filter (·.user = s.user)).map (·.product)).eraseDups

/-- The products on the lines of the user's orders; what was bought twice stands twice. -/
def purchased : List ProductId :=
  (s.userOrders.filter (·.user = s.user)).flatMap Order.products

/-- The products that the user liked or bought, in ascending order, each once. -/
def interacted : List ProductId :=
  ascendingIds (s.liked ++ s.purchased)

/-- The entries of the catalog that the user neither liked nor bought. -/
def unseen : List (Product α) :=
  let known := s.interacted
  s.catalog.filter fun p => p.id ∉ known

/-- The entry of an identifier, the last one if it is repeated. -/
def product? (id : ProductId) : Option (Product α) :=
  s.catalog.findRev? fun p => p.id = id

/-- How many likes of all users stand on a product, without a bound. Counters of 32 bits go as far
as `2 ^ 32 - 1`. -/
def likeCount (id : ProductId) : Nat :=
  s.allLikes.countP fun l => l.product = id

/-- The entries by identifier, in ascending order. -/
def index : List (ProductId × Product α) :=
  (ascendingIds (s.catalog.map (·.id))).filterMap fun id => (s.product? id).map (id, ·)

/-- The likes of all users on a product, counted in 32 bits. -/
def likeCounter (id : ProductId) : UInt32 :=
  s.allLikes.foldl (fun count l => if l.product = id then count + 1 else count) 0

/-- The liked products with the numbers of likes that are counted, in ascending order. -/
def likeCounts : List (ProductId × Nat) :=
  (ascendingIds (s.allLikes.map (·.product))).map fun id => (id, (s.likeCounter id).toNat)

end Snapshot

end Recommender
