import Recommender.Json.Decode
import Recommender.Json.Encode
import Recommender.Catalog
import Recommender.Strategy
import Recommender.Ratings

/-!
# The documents of the program

The shapes of products, likes, orders, recommendations and requests as JSON documents, and the
values of these shapes.

* `Product.shape`, `Product.toValue`, `Product.ofValue` : products as documents, and so for the
  others.
* `PredictionRequest` : the request to predict a rating.
-/

namespace Recommender

open Json

namespace Product

/-- The shape of a product. -/
def shape : Shape :=
  .record <| .cons "id" .int64 <| .cons "name" .text <| .cons "category" .text <|
    .cons "price" .float <| .cons "created_at" .instant .nil

/-- A product as a document. -/
def toValue (p : Product Binary64) : shape.Value :=
  (p.id, p.name, p.category, p.price, p.createdAt, ())

/-- The product of a document. -/
def ofValue : shape.Value → Product Binary64
  | (id, name, category, price, createdAt, ()) => { id, name, category, price, createdAt }

end Product

namespace Like

/-- The shape of a like. -/
def shape : Shape :=
  .record <| .cons "user_id" .int64 <| .cons "product_id" .int64 <|
    .cons "created_at" .instant .nil

/-- A like as a document. -/
def toValue (l : Like) : shape.Value :=
  (l.user, l.product, l.createdAt, ())

/-- The like of a document. -/
def ofValue : shape.Value → Like
  | (user, product, createdAt, ()) => { user, product, createdAt }

end Like

namespace OrderItem

/-- The shape of a line of an order. -/
def shape : Shape :=
  .record <| .cons "product_id" .int64 <| .cons "quantity" .int32 .nil

/-- A line of an order as a document. -/
def toValue (item : OrderItem) : shape.Value :=
  (item.product, item.quantity, ())

/-- The line of an order of a document. -/
def ofValue : shape.Value → OrderItem
  | (product, quantity, ()) => { product, quantity }

end OrderItem

namespace Order

/-- The shape of an order. -/
def shape : Shape :=
  .record <| .cons "id" .int64 <| .cons "user_id" .int64 <|
    .cons "items" (.list OrderItem.shape) .nil

/-- An order as a document. -/
def toValue (order : Order) : shape.Value :=
  (order.id, order.user, order.items.map OrderItem.toValue, ())

/-- The order of a document. -/
def ofValue : shape.Value → Order
  | (id, user, items, ()) => { id, user, items := items.map OrderItem.ofValue }

end Order

namespace Strategy

/-- The shape of a strategy: its name. -/
def shape : Shape :=
  .choice (chain.map name)

/-- A strategy as a document. -/
def toValue : Strategy → shape.Value
  | collaborative => (0 : Fin 4)
  | contentBased => (1 : Fin 4)
  | popularity => (2 : Fin 4)
  | random => (3 : Fin 4)

/-- The strategy of a document. -/
def ofValue (i : shape.Value) : Strategy :=
  chain.get i

end Strategy

namespace Recommendation

/-- The shape of a recommendation. -/
def shape : Shape :=
  .record <| .cons "product" Product.shape <| .cons "score" .float <|
    .cons "strategy" Strategy.shape .nil

/-- A recommendation as a document. -/
def toValue (r : Recommendation Binary64) : shape.Value :=
  (r.product.toValue, r.score, r.strategy.toValue, ())

/-- The recommendation of a document. -/
def ofValue : shape.Value → Recommendation Binary64
  | (product, score, strategy, ()) =>
    { product := .ofValue product, score, strategy := .ofValue strategy }

end Recommendation

/-- The answer to a request for recommendations. -/
structure RecommendationsAnswer where
  /-- The recommendations, the best one first. -/
  recommendations : List (Recommendation Binary64)
deriving DecidableEq

namespace RecommendationsAnswer

/-- The shape of an answer. -/
def shape : Shape :=
  .record <| .cons "recommendations" (.list Recommendation.shape) .nil

/-- An answer as a document. -/
def toValue (answer : RecommendationsAnswer) : shape.Value :=
  (answer.recommendations.map Recommendation.toValue, ())

/-- The answer of a document. -/
def ofValue : shape.Value → RecommendationsAnswer
  | (recommendations, ()) => ⟨recommendations.map Recommendation.ofValue⟩

end RecommendationsAnswer

/-- The shape of ratings: an object per user in an object of users. -/
def Ratings.shape : Shape :=
  .table (.table .float)

/-- A request to predict a rating. -/
structure PredictionRequest where
  /-- Whose rating is predicted. -/
  user : UserId
  /-- Of what. -/
  item : ProductId
  /-- What is known. -/
  ratings : Ratings Binary64
deriving DecidableEq

namespace PredictionRequest

/-- The shape of a request. -/
def shape : Shape :=
  .record <| .cons "user_id" .int64 <| .cons "item_id" .int64 <|
    .cons "ratings" Ratings.shape .nil

/-- The request of a document. -/
def ofValue : shape.Value → PredictionRequest
  | (user, item, ratings, ()) => { user, item, ratings }

/-- The rating that a request asks for. -/
def prediction (request : PredictionRequest) : Binary64 :=
  request.ratings.predict cosine request.user request.item

end PredictionRequest

end Recommender
