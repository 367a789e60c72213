import Recommender.Http.Target
import Recommender.Json.Encode
import Recommender.Uuid

/-!
# Requests and responses

* `Request`, `Response` : what a client sends, and what it gets.
* `Headers.first?` : the first header of a name.
* `RequestId.ofHeaders` : the identifier of an arriving request.
* `Request.id` : the identifier of a request on its way.
-/

namespace Recommender.Http

open Text Json

/-- Names and values of headers. -/
abbrev Headers := List (String × Bytes)

/-- The values of all headers of a name. The case of letters does not count in a name. -/
def Headers.values (headers : Headers) (name : String) : List Bytes :=
  (headers.filter fun h => alike (bytesOf h.1) (bytesOf name)).map (·.2)

@[simp]
theorem Headers.values_append (headers headers' : Headers) (name : String) :
    (headers ++ headers').values name = headers.values name ++ headers'.values name := by
  simp [values]

/-- The value of the first header of a name. -/
def Headers.first? (headers : Headers) (name : String) : Option Bytes :=
  (headers.values name).head?

/-- A request. -/
structure Request where
  /-- The method, in the spelling of the request. -/
  method : String
  /-- What the request asks for. -/
  target : Target
  /-- What is said about it. -/
  headers : Headers
  /-- What is sent along. -/
  body : Bytes
  /-- The identifier that the request got on its way to the handler, if it did. -/
  stamp : Option Uuid
deriving DecidableEq

/-- The outcome of a request in a word. -/
inductive Status
  /-- The request is answered. -/
  | ok
  /-- The request makes no sense. -/
  | badRequest
  /-- Nothing is at this path. -/
  | notFound
  /-- What is at this path does not know the method. -/
  | methodNotAllowed
  /-- The answer did not come in time. -/
  | requestTimeout
  /-- The body is too long. -/
  | contentTooLarge
  /-- The body is not announced as JSON. -/
  | unsupportedMediaType
  /-- The body is JSON, but not what is asked for. -/
  | unprocessableContent
  /-- The data could not be retrieved. -/
  | internalServerError
deriving DecidableEq

/-- The number of a status. -/
def Status.code : Status → Nat
  | ok => 200
  | badRequest => 400
  | notFound => 404
  | methodNotAllowed => 405
  | requestTimeout => 408
  | contentTooLarge => 413
  | unsupportedMediaType => 415
  | unprocessableContent => 422
  | internalServerError => 500

/-- What a response carries. -/
inductive Content
  /-- Nothing. -/
  | nothing
  /-- A document. -/
  | document (d : Document)
  /-- A sentence in plain text on why the request is refused. Its wording is left open. -/
  | sentence

/-- A response. -/
structure Response where
  /-- The outcome. -/
  status : Status
  /-- What is said about it. -/
  headers : Headers
  /-- What it carries. -/
  content : Content

namespace Response

/-- A response that carries nothing. -/
def bare (status : Status) : Response := ⟨status, [], .nothing⟩

/-- A response that carries a document. -/
def json (status : Status) (d : Document) : Response :=
  ⟨status, [("content-type", bytesOf "application/json")], .document d⟩

/-- A response that refuses a request. -/
def refusal (status : Status) : Response :=
  ⟨status, [("content-type", bytesOf "text/plain; charset=utf-8")], .sentence⟩

/-- The response with further headers. -/
def withHeaders (response : Response) (headers : Headers) : Response :=
  { response with headers := response.headers ++ headers }

@[simp]
theorem headers_withHeaders (response : Response) (headers : Headers) :
    (response.withHeaders headers).headers = response.headers ++ headers := rfl

@[simp]
theorem withHeaders_withHeaders (response : Response) (headers headers' : Headers) :
    (response.withHeaders headers).withHeaders headers' =
      response.withHeaders (headers ++ headers') := by
  simp [withHeaders]

/-- The response without what it carries. The headers still tell what that was. -/
def headersOnly (response : Response) : Response :=
  { response with content := .nothing }

end Response

/-! ### Identifiers of requests

Every request has an identifier: a client may choose it, otherwise it is drawn by chance. It is
fixed when the request arrives and travels with it.
-/

namespace RequestId

/-- The name of the header that brings and returns the identifier. -/
def header : String := "x-request-id"

/-- The identifier that the client chose. Only the first header of the name counts. -/
def ofHeaders? (headers : Headers) : Option Uuid :=
  (headers.first? header).bind Uuid.parse?

/-- The identifier of a request that arrives with given headers. -/
def ofHeaders (headers : Headers) (chance : BitVec 128) : Uuid :=
  (ofHeaders? headers).getD (.version4 chance)

end RequestId

namespace Request

/-- The request as it goes on with its identifier. -/
def stamped (request : Request) (id : Uuid) : Request :=
  { request with stamp := some id }

/-- The identifier of a request: the one that it got on its way, or else that of an arriving
request. -/
def id (request : Request) (chance : BitVec 128) : Uuid :=
  request.stamp.getD (RequestId.ofHeaders request.headers chance)

end Request

end Recommender.Http
