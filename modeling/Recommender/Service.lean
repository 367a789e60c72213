import Recommender.Source
import Recommender.Fallback

/-!
# The service

A `Service` fetches what an answer depends on and recommends. The time of the answer and the chance
that an unseeded service draws on come from outside and are arguments.

* `Service.fetch` : the four fetches of a request.
* `Service.recommendations` : the answer to a user.
-/

namespace Recommender

/-- Recommending over a source. -/
structure Service (α : Type) where
  /-- Where the data are. -/
  source : Source α
  /-- The coefficients of all strategies. -/
  weights : Weights α
  /-- The size of the only page of the catalog that is read. -/
  pageSize : UInt32
  /-- The seed that every request starts its generator from, if the service has one. -/
  seed : Option UInt64

namespace Service

variable {α : Type}

/-- The size of the page of the catalog unless it is set otherwise. -/
def standardPageSize : UInt32 := 1000

/-- Fetches the snapshot of a user. The four fetches are started together, in this order, and the
first failure among them is the failure of the request. -/
def fetch (service : Service α) (user : UserId) (now : Instant) : Outcome (Snapshot α) :=
  let source := service.source
  let fetches := (source.likesByUser user).both <| (source.ordersByUser user).both <|
    source.allLikes.both (source.catalogPage 1 service.pageSize)
  fetches.map fun (userLikes, userOrders, allLikes, catalog, _) =>
    { user, userLikes, userOrders, allLikes, catalog, now }

/-- The generator of a request: from the seed, or from the chance outside. -/
def generator (service : Service α) (entropy : Generator) : Generator :=
  match service.seed with
  | some seed => Generator.ofSeed seed
  | none => entropy

/-- The recommendations for a user. -/
def recommendations [Scalar α] (service : Service α) (user : UserId) (requested : Int64)
    (now : Instant) (entropy : Generator) : Outcome (List (Recommendation α)) :=
  (service.fetch user now).map fun snapshot =>
    (recommend snapshot service.weights requested (service.generator entropy)).1

end Service

end Recommender
