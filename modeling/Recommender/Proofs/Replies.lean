import Recommender.Http.Server
import Recommender.Proofs.Fetches
import Recommender.Proofs.Answer

/-!
# Replies to requests for recommendations

What becomes of a service's answer on its way to a client: which status a reply has and which
document it carries.

* `Route.ofPath?_path`, `not_mem_of_userOf?` : the path of a user's recommendations leads to them.
* `Response.Made`, `made_shared` : how responses come about; only what succeeds carries data.
* `serve_of_mem_methods` : what the layers around a route do to its response.
* `serve_allOrNothing` : a request is answered as a whole or fails as a whole.
-/

namespace Recommender

open Http Text Json

/-! ### Paths -/

namespace Http

theorem Route.parts_path {part : Bytes} (h : ascii '/' ∉ part) :
    parts (ascii '/') (Route.recommendations part).path =
      [[], bytesOf "api", bytesOf "v1", bytesOf "users", part, bytesOf "recommendations"] := by
  have hpath : (Route.recommendations part).path = [] ++ ascii '/' :: (bytesOf "api" ++ ascii '/' ::
      (bytesOf "v1" ++ ascii '/' :: (bytesOf "users" ++ ascii '/' ::
        (part ++ ascii '/' :: bytesOf "recommendations")))) := by
    rfl
  rw [hpath, parts_append (by decide), parts_append (by decide +kernel),
    parts_append (by decide +kernel), parts_append (by decide +kernel), parts_append h,
    parts_of_not_mem (by decide +kernel)]

/-- The path of a user's recommendations leads to them, whatever stands for the user. -/
theorem Route.ofPath?_path {part : Bytes} (h : ascii '/' ∉ part) :
    Route.ofPath? (Route.recommendations part).path = some (.recommendations part) := by
  have hhealth : Route.health.path ≠ (Route.recommendations part).path := by
    intro h
    have h : some (ascii 'h') = some (ascii 'a') := congrArg (·[1]?) h
    exact absurd h (by decide)
  have hprediction : Route.prediction.path ≠ (Route.recommendations part).path := by
    intro h
    have h : some (ascii 'r') = some (ascii 'u') := congrArg (·[8]?) h
    exact absurd h (by decide)
  simp [ofPath?, candidates, parts_path h, hhealth, hprediction]

/-- Whoever is named by a part of a path is named without a slash. -/
theorem not_mem_of_userOf? {part : Bytes} {user : UserId} (h : userOf? part = some user) :
    ascii '/' ∉ part := by
  intro hslash
  obtain ⟨text, htext, huser⟩ := Option.bind_eq_some_iff.1 h
  have hmem : ascii '/' ∈ bytesOf text := by
    rw [bytesOf_of_textOf? htext]
    exact Percent.mem_decode (by decide) (by decide) hslash
  rw [bytesOf_eq, List.mem_flatMap] at hmem
  obtain ⟨c, hc, hbyte⟩ := hmem
  -- the slash is a byte of some character, which is then neither a digit nor a sign
  have hother (hascii : c.toNat < 128) : c.toNat % 256 = 47 := by
    rw [utf8EncodeChar_of_lt hascii, List.mem_singleton] at hbyte
    exact (congrArg UInt8.toNat hbyte).symm
  have hnone : integer? text.toList = none := by
    refine integer?_eq_none hc ?_ ?_ ?_
    · intro hdigit
      have := Char.isDigit_iff_toNat.1 hdigit
      have : (48 ≤ c.toNat ∧ c.toNat ≤ 57) := this
      have := hother (by omega)
      omega
    · rintro rfl
      exact absurd (hother (by decide)) (by decide)
    · rintro rfl
      exact absurd (hother (by decide)) (by decide)
  simp [int64?, hnone] at huser

/-! ### Contents -/

/-- The text of a content, unless its wording is left open. -/
def Content.text? : Content → Option Bytes
  | nothing => some []
  | document d => some d.encode
  | sentence => none

/-- A response has a status and a text. -/
def Response.Says (response : Response) (code : Nat) (text : Bytes) : Prop :=
  response.status.code = code ∧ response.content.text? = some text

/-- The text of an object with one member. -/
def objectText (name : String) (value : Bytes) : Bytes :=
  [ascii '\x7b'] ++ quote name ++ [ascii ':'] ++ value ++ [ascii '\x7d']

/-- The text of an array of recommendations. -/
def arrayText (list : List (Recommendation Binary64)) : Bytes :=
  enclose '[' ']' (list.map fun r => Recommendation.shape.encode r.toValue)

theorem enclose_encodeMember (name : String) (value : Bytes) :
    enclose '\x7b' '\x7d' [encodeMember (quote name) value] = objectText name value := by
  simp [enclose, encodeMember, objectText]

theorem encode_ofText (name text : String) :
    (Document.ofText name text).encode = objectText name (quote text) := by
  simp only [Document.ofText, Document.encode, Shape.encode, Fields.encode, enclose_encodeMember]

theorem encode_document (list : List (Recommendation Binary64)) :
    (RecommendationsAnswer.document ⟨list⟩).encode =
      objectText "recommendations" (arrayText list) := by
  simp only [RecommendationsAnswer.document, RecommendationsAnswer.shape,
    RecommendationsAnswer.toValue, Document.encode, Shape.encode, Fields.encode,
    enclose_encodeMember, List.map_map, arrayText]
  rfl

/-! ### Responses -/

/-- The names of the headers that a response has before it gets its identifier. -/
def Response.names : List String :=
  ["content-type", "allow", "vary", "access-control-allow-origin", "access-control-allow-methods",
    "access-control-allow-headers", "access-control-expose-headers"]

/-- How a response comes about before it gets its identifier. -/
inductive Response.Made : Response → Prop
  /-- Nothing is said but a status. -/
  | bare (status : Status) : Made (.bare status)
  /-- The request succeeds. -/
  | answered (d : Document) : Made (.json .ok d)
  /-- The request fails. -/
  | failed (failure : Failure) : Made failure.response
  /-- The request is refused. -/
  | refused (status : Status) : Made (.refusal status)
  /-- Only the headers are asked for. -/
  | headersOnly {response : Response} : Made response → Made response.headersOnly
  /-- More is said about the response. -/
  | withHeaders {response : Response} {headers : Headers} :
    Made response → (∀ h ∈ headers, h.1 ∈ names) → Made (response.withHeaders headers)

section

variable (service : Service Binary64) (request : Request) (now : Instant) (entropy : Generator)

theorem made_outcome {β : Type} (render : β → Document) (outcome : Outcome β) :
    (outcome.response render).Made := by
  cases outcome with
  | answered data => exact .answered _
  | failed failure => exact .failed failure
  | silent => exact .bare _

theorem made_answer (route : Route) : (answer service route request now entropy).Made := by
  cases route with
  | health => exact .answered _
  | recommendations part =>
    simp only [answer, recommendationsFor]
    split
    · exact made_outcome _ _
    · exact .refused _
  | prediction =>
    simp only [answer, predictionFor]
    split
    · exact .answered _
    · exact .refused _

theorem made_dispatch : (dispatch service request now entropy).Made := by
  simp only [dispatch]
  split
  · exact .bare _
  · split_ifs
    · exact (made_answer service request now entropy _).headersOnly
    · exact made_answer service request now entropy _
    · exact (Response.Made.bare _).withHeaders (by simp [Response.names])

/-- Whatever is asked, the response comes about in one of these ways. -/
theorem made_shared : (shared service request now entropy).Made := by
  have hpreflight : (preflight request).Made :=
    (Response.Made.bare _).withHeaders (by simp [Response.names])
  simp only [shared]
  split_ifs
  · exact hpreflight.withHeaders (by simp [sharing, Response.names])
  · exact (made_dispatch service request now entropy).withHeaders
      (by simp [sharing, Response.names])

/-- What a content holds that explains a refusal: nothing, a sentence, or a document that tells an
error. -/
def Content.Explains : Content → Prop
  | nothing | sentence => True
  | document d => ∃ text, d = .ofText "error" text

/-- A response that does not succeed carries nothing but an explanation. -/
theorem Response.Made.explains {response : Response} (h : response.Made)
    (hstatus : response.status ≠ .ok) : response.content.Explains := by
  induction h with
  | bare | refused | headersOnly => trivial
  | answered d => exact absurd rfl hstatus
  | failed failure => cases failure <;> exact ⟨_, rfl⟩
  | withHeaders _ _ ih => exact ih hstatus

theorem dispatch_of_mem_methods {route : Route}
    (hroute : Route.ofPath? request.target.path = some route)
    (hmethod : request.method ∈ route.methods) :
    dispatch service request now entropy =
      let response := answer service route request now entropy
      if request.method = "HEAD" then response.headersOnly else response := by
  simp [dispatch, hroute, hmethod]

/-- A known method on a known path is served by the route. The layers around it give the request its
identifier and add headers to the response, which loses its content on the way to one who asks for
headers only. -/
theorem serve_of_mem_methods (chance : BitVec 128) {route : Route}
    (hroute : Route.ofPath? request.target.path = some route)
    (hmethod : request.method ∈ route.methods) :
    ∃ headers, serve service request now entropy chance =
      let identified := request.stamped (RequestId.ofHeaders request.headers chance)
      let response := answer service route identified now entropy
      (if request.method = "HEAD" then response.headersOnly else response).withHeaders headers := by
  have hoptions : request.method ≠ "OPTIONS" := by
    intro h
    rw [h] at hmethod
    cases route <;> simp [Route.methods] at hmethod
  have hshared (id : Uuid) : shared service (request.stamped id) now entropy =
      (dispatch service (request.stamped id) now entropy).withHeaders
        (sharing ["access-control-expose-headers"]) := if_neg hoptions
  have hdispatch (id : Uuid) :=
    dispatch_of_mem_methods service (request.stamped id) now entropy hroute hmethod
  simp only [serve, hshared, hdispatch, Response.withHeaders_withHeaders]
  exact ⟨_, rfl⟩

end

/-! ### Requests for recommendations -/

variable (service : Service Binary64) (request : Request) (now : Instant) (entropy : Generator)
  {part : Bytes} {user : UserId} {requested : Int64}

/-- A request that names a user and a limit gets what becomes of the service's answer. -/
theorem serve_recommendations (chance : BitVec 128) (hmethod : request.method = "GET")
    (hpath : request.target.path = (Route.recommendations part).path)
    (huser : userOf? part = some user) (hlimit : request.limit? = some requested) :
    ∃ headers, serve service request now entropy chance =
      ((service.recommendations user requested now entropy).response fun list =>
        RecommendationsAnswer.document ⟨list⟩).withHeaders headers := by
  have hroute : Route.ofPath? request.target.path = some (.recommendations part) := by
    rw [hpath, Route.ofPath?_path (not_mem_of_userOf? huser)]
  have hknown : request.method ∈ (Route.recommendations part).methods := by
    rw [hmethod]
    exact List.mem_cons_self
  obtain ⟨headers, hserve⟩ :=
    serve_of_mem_methods service request now entropy chance hroute hknown
  have hget : request.method ≠ "HEAD" := by rw [hmethod]; decide
  have hlimit (id : Uuid) : (request.stamped id).limit? = some requested := hlimit
  refine ⟨headers, ?_⟩
  simp only [hserve, answer, recommendationsFor, huser, hlimit, if_neg hget]

/-- **All or nothing.** A request to a service fails by the first failure among its four fetches in
the order in which they are started, whatever becomes of the others; if none fails, nothing is heard
as soon as one is silent; and it is answered if and only if all four are, with all that the engine
recommends for the data fetched. A client gets these as status and document, and recommendations
only with success. -/
theorem serve_allOrNothing (service : Service Binary64) (user : UserId) (requested : Int64)
    (now : Instant) (entropy : Generator) :
    let answer := service.recommendations user requested now entropy
    (∀ failure, answer = .failed failure ↔
      (service.fetches user).findSome? Outcome.failure? = some failure) ∧
    (answer = .silent ↔
      (∀ o ∈ service.fetches user, o.failure? = none) ∧ .silent ∈ service.fetches user) ∧
    (∀ list, answer = .answered list ↔ ∃ s, service.Fetched user now s ∧
      (recommend s service.weights requested (service.generator entropy)).1 = list) ∧
    (∀ (request : Request) (part : Bytes) (chance : BitVec 128), request.method = "GET" →
      request.target.path = bytesOf "/api/v1/users/" ++ part ++ bytesOf "/recommendations" →
      userOf? part = some user → request.limit? = some requested →
      let response := serve service request now entropy chance
      match answer with
      | .failed (.invalidInput text) => response.Says 400 (objectText "error" (quote text))
      | .failed (.database cause) =>
        response.Says 500 (objectText "error" (quote ("Database error: " ++ cause.message)))
      | .silent => response.Says 408 []
      | .answered list => response.Says 200 (objectText "recommendations" (arrayText list))) ∧
    ∀ (request : Request) (chance : BitVec 128),
      let response := serve service request now entropy chance
      response.status.code ≠ 200 → response.content.Explains := by
  refine ⟨fun _ => Service.recommendations_eq_failed_iff, Service.recommendations_eq_silent_iff,
    fun _ => Service.recommendations_eq_answered_iff, ?_, ?_⟩
  · intro request part chance hmethod hpath huser hlimit
    obtain ⟨headers, hserve⟩ :=
      serve_recommendations service request now entropy chance hmethod hpath huser hlimit
    cases hanswer : service.recommendations user requested now entropy with
    | answered list =>
      rw [hserve, hanswer]
      exact ⟨rfl, congrArg some (encode_document list)⟩
    | failed failure =>
      rw [hserve, hanswer]
      cases failure with
      | invalidInput text => exact ⟨rfl, congrArg some (encode_ofText ..)⟩
      | database cause => exact ⟨rfl, congrArg some (encode_ofText ..)⟩
    | silent =>
      rw [hserve, hanswer]
      exact ⟨rfl, rfl⟩
  · intro request chance response hcode
    exact (made_shared service _ now entropy).explains fun hok => hcode (congrArg Status.code hok)

end Http

namespace Shop

/-- The first user asks for two recommendations. -/
def request : Request where
  method := "GET"
  target := ⟨bytesOf "/api/v1/users/%31/recommendations", some (bytesOf "limit=%2B2")⟩
  headers := []
  body := []
  stamp := none

/-- The shop when the likes of a user are never heard of, those of all users time out and no page of
the catalog is asked for. -/
def overloaded : Service Binary64 where
  source :=
    { Source.memory products likes [] with
      likesByUser := fun _ => .silent
      allLikes := .failed (.database .poolTimedOut) }
  weights := .standard
  pageSize := 0
  seed := some 7

end Shop

/-- The overloaded shop tells the first user about the likes of all users. -/
theorem Http.serve_allOrNothing_shop :
    let entropy := Generator.tape []
    let response := serve Shop.overloaded Shop.request Shop.noon entropy 0
    let message := "Database error: pool timed out while waiting for an open connection"
    Shop.overloaded.recommendations 1 2 Shop.noon entropy = .failed (.database .poolTimedOut) ∧
    Shop.request.method = "GET" ∧ Shop.request.target.path =
      bytesOf "/api/v1/users/" ++ bytesOf "%31" ++ bytesOf "/recommendations" ∧
    userOf? (bytesOf "%31") = some 1 ∧ Shop.request.limit? = some 2 ∧
    response.Says 500 (objectText "error" (quote message)) ∧
    response.status.code ≠ 200 ∧ response.content.Explains := by
  intro entropy response message
  obtain ⟨hfailed, -, -, hresponse, hexplains⟩ :=
    serve_allOrNothing Shop.overloaded 1 2 Shop.noon entropy
  have hanswer := (hfailed (.database .poolTimedOut)).2 rfl
  have hpath : Shop.request.target.path =
      bytesOf "/api/v1/users/" ++ bytesOf "%31" ++ bytesOf "/recommendations" := rfl
  have huser : userOf? (bytesOf "%31") = some 1 := by decide +kernel
  have hlimit : Shop.request.limit? = some 2 := by decide +kernel
  have htold : response.Says 500 (objectText "error" (quote message)) := by
    have htold := hresponse Shop.request (bytesOf "%31") 0 rfl hpath huser hlimit
    simp only [hanswer] at htold
    exact htold
  have hcode : response.status.code ≠ 200 := by
    rw [htold.1]
    decide
  exact ⟨hanswer, rfl, hpath, huser, hlimit, htold, hcode, hexplains Shop.request 0 hcode⟩

end Recommender
