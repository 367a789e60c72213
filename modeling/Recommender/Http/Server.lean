import Recommender.Http.Target
import Recommender.Http.Message
import Recommender.Http.Query
import Recommender.Http.MediaType
import Recommender.Documents
import Recommender.Service

/-!
# The server

A request passes three layers: it gets its identifier, browsers are told that every origin may ask,
and the route of its path answers. What time it is and what chance brings are arguments.

* `Failure.response` : the response to a failure.
* `answer` : the response of a route.
* `serve` : the response to a request.
-/

namespace Recommender

open Http

/-- The response to a failure. A request that makes no sense is told why in the bare text of the
failure. -/
def Failure.response : Failure → Response
  | invalidInput text => .json .badRequest (.ofText "error" text)
  | database cause =>
    .json .internalServerError (.ofText "error" (message (database cause)))

/-- The response to an outcome: what is never answered ends by the time limit. -/
def Outcome.response {β : Type} (render : β → Json.Document) : Outcome β → Response
  | answered data => .json .ok (render data)
  | failed failure => failure.response
  | silent => .bare .requestTimeout

/-- An answer to a request for recommendations as a document of its own. -/
def RecommendationsAnswer.document (answer : RecommendationsAnswer) : Json.Document :=
  ⟨shape, answer.toValue⟩

namespace Http

open Text Json

/-! ### Routes -/

/-- The user whom a part of a path names. -/
def userOf? (part : Bytes) : Option UserId :=
  (textOf? (Percent.decode part)).bind fun text => int64? text.toList

/-- The limit that a request asks for. -/
def Request.limit? (request : Request) : Option Int64 :=
  Query.limit? (request.target.query.getD [])

/-- The response to a request for the recommendations for a user. -/
def recommendationsFor (service : Service Binary64) (user : Bytes) (request : Request)
    (now : Instant) (entropy : Generator) : Response :=
  match userOf? user, request.limit? with
  | some user, some limit =>
    (service.recommendations user limit now entropy).response fun recommendations =>
      RecommendationsAnswer.document ⟨recommendations⟩
  | _, _ => .refusal .badRequest

/-- Whether a request announces its body as JSON. -/
def Request.announcesJson (request : Request) : Bool :=
  ((request.headers.first? "content-type").bind MediaType.parse?).any MediaType.isJson

/-- The greatest length of a body that is read. -/
def maxBodyLength : Nat := 2 * 1024 * 1024

/-- The document in the body of a request, or the status by which it is refused. -/
def Request.read (request : Request) (shape : Shape) : Except Status shape.Value :=
  if !request.announcesJson then .error .unsupportedMediaType
  else if maxBodyLength < request.body.length then .error .contentTooLarge
  else
    match shape.decodeFront request.body with
    | .ok value => .ok value
    | .error .mismatched => .error .unprocessableContent
    | .error .malformed | .error .truncated => .error .badRequest

/-- The response to a request to predict a rating. -/
def predictionFor (request : Request) : Response :=
  match request.read PredictionRequest.shape with
  | .ok value => .json .ok (.ofNumber "prediction" (PredictionRequest.ofValue value).prediction)
  | .error status => .refusal status

/-- The response of a route. -/
def answer (service : Service Binary64) (route : Route) (request : Request) (now : Instant)
    (entropy : Generator) : Response :=
  match route with
  | .health => .json .ok (.ofText "status" "healthy")
  | .recommendations user => recommendationsFor service user request now entropy
  | .prediction => predictionFor request

/-- The response of the route of a path, if it has one, to a method, if the route knows it. Only the
headers of the response are sent to one who asks for no more. -/
def dispatch (service : Service Binary64) (request : Request) (now : Instant)
    (entropy : Generator) : Response :=
  match Route.ofPath? request.target.path with
  | none => .bare .notFound
  | some route =>
    if request.method ∉ route.methods then
      (Response.bare .methodNotAllowed).withHeaders [("allow", route.allow)]
    else
      let response := answer service route request now entropy
      if request.method = "HEAD" then response.headersOnly else response

/-! ### Origins -/

/-- The headers that tell a browser what every origin may do. -/
def sharing (names : List String) : Headers :=
  ("vary", bytesOf "origin, access-control-request-method, access-control-request-headers")
    :: ("access-control-allow-origin", bytesOf "*") :: names.map fun name => (name, bytesOf "*")

/-- The response to a browser that asks what is allowed. -/
def preflight (request : Request) : Response :=
  let known := (Route.ofPath? request.target.path).toList
  (Response.bare .ok).withHeaders <| known.map fun route => ("allow", route.allow)

/-- The response to a request on its way to its route, shared with every origin. -/
def shared (service : Service Binary64) (request : Request) (now : Instant) (entropy : Generator) :
    Response :=
  if request.method = "OPTIONS" then
    (preflight request).withHeaders <|
      sharing ["access-control-allow-methods", "access-control-allow-headers"]
  else
    (dispatch service request now entropy).withHeaders (sharing ["access-control-expose-headers"])

/-! ### Requests -/

/-- The response to a request, which returns the identifier of the request. -/
def serve (service : Service Binary64) (request : Request) (now : Instant) (entropy : Generator)
    (chance : BitVec 128) : Response :=
  let id := RequestId.ofHeaders request.headers chance
  (shared service (request.stamped id) now entropy).withHeaders [(RequestId.header, id.render)]

end Http

end Recommender
