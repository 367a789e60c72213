import Recommender.Scalar
import Recommender.Instant

/-!
# The catalog and what users did

Products, as they are recommended, and the likes and orders of users.

* `Product.ageInDays` : how long a product has been in the catalog.
* `Order.products` : the products on the lines of an order.
* `Order.withItem` : an order with one more line.
* `Order.assemble` : orders from their heads and their lines, kept apart in a store.
-/

namespace Recommender

/-- The identifier of a user. -/
abbrev UserId := Int64

/-- The identifier of a product. -/
abbrev ProductId := Int64

/-- The identifier of an order. -/
abbrev OrderId := Int64

/-- An entry of the catalog. -/
structure Product (α : Type) where
  /-- The identifier. -/
  id : ProductId
  /-- The name shown to users. -/
  name : String
  /-- The category, compared letter by letter. -/
  category : String
  /-- The price, of any sign. -/
  price : α
  /-- When the product entered the catalog. -/
  createdAt : Instant
deriving DecidableEq

/-- The days from the creation of a product to `now`, counted in whole seconds; a product that is
created later is new. -/
def Product.ageInDays {α : Type} [Scalar α] (p : Product α) (now : Instant) : α :=
  Scalar.ofNat (now.secondsSince p.createdAt) / Scalar.ofNat 86400

/-! ### Likes and orders -/

/-- A user liked a product. -/
structure Like where
  /-- Who liked. -/
  user : UserId
  /-- What was liked. -/
  product : ProductId
  /-- When. -/
  createdAt : Instant
deriving DecidableEq

/-- A line of an order. -/
structure OrderItem where
  /-- What was bought. -/
  product : ProductId
  /-- How many were bought. -/
  quantity : Int32
deriving DecidableEq

/-- A purchase of a user. -/
structure Order where
  /-- The identifier. -/
  id : OrderId
  /-- Who bought. -/
  user : UserId
  /-- The lines, in the order in which they were added. -/
  items : List OrderItem
deriving DecidableEq

namespace Order

/-- An order without lines. -/
def new (id : OrderId) (user : UserId) : Order :=
  ⟨id, user, []⟩

/-- The order with one more line, of at least one piece. -/
def withItem (order : Order) (product : ProductId) (quantity : Int32) : Order :=
  { order with items := order.items ++ [⟨product, if quantity < 1 then 1 else quantity⟩] }

/-- The products on the lines; one that stands on several lines is repeated. -/
def products (order : Order) : List ProductId :=
  order.items.map (·.product)

/-- The orders of a list of heads and a list of lines, each with the identifier of its order. An
order takes the lines that name it, so of two heads with one identifier the first takes all. -/
def assemble : List (OrderId × UserId) → List (OrderId × OrderItem) → List Order
  | [], _ => []
  | (id, user) :: heads, lines =>
    ⟨id, user, (lines.filter (·.1 = id)).map (·.2)⟩ :: assemble heads (lines.filter (·.1 ≠ id))

end Order

end Recommender
