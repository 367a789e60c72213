import Recommender.Proofs.Spelling
import Recommender.Proofs.Replies

/-!
# Identifiers on their way

Whatever is asked and whatever comes of it, a response returns one identifier: the one that the
client chose, however it was spelled, or else one of chance. What serves the request finds the same
one.

* `Response.Made.names` : the headers of a response before it gets its identifier.
* `values_serve` : the one identifier of a response.
* `RequestId.ofHeaders_of_spells`, `RequestId.ofHeaders_of_forall_not_spells` : which one it is.
* `serve_identifies` : all of this, and that returned identifiers may be sent again.
* `serve_identifies_capitals` : the name in a spelling need not be in small letters.
-/

namespace Recommender

open Http Text Uuid

namespace Http

/-! ### Headers of responses -/

/-- Before a response gets its identifier, it has no other headers than these. -/
theorem Response.Made.names {response : Response} (h : response.Made) :
    ∀ h ∈ response.headers, h.1 ∈ names := by
  induction h with
  | bare => exact List.forall_mem_nil _
  | answered | refused => simp [json, refusal, Response.names]
  | failed failure => cases failure <;> simp [Failure.response, json, Response.names]
  | headersOnly _ ih => exact ih
  | withHeaders _ hnames ih => exact List.forall_mem_append.2 ⟨ih, hnames⟩

/-- None of these headers is taken for an identifier. -/
theorem Response.Made.values_eq_nil {response : Response} (h : response.Made) :
    response.headers.values RequestId.header = [] := by
  have hother : ∀ name ∈ Response.names,
      alike (bytesOf name) (bytesOf RequestId.header) = false := by
    decide +kernel
  rw [Headers.values, List.map_eq_nil_iff, List.filter_eq_nil_iff]
  intro header hheader
  simp [hother _ (h.names header hheader)]

/-- A response has one header with an identifier: that of the request. -/
theorem values_serve (service : Service Binary64) (request : Request) (now : Instant)
    (entropy : Generator) (chance : BitVec 128) :
    (serve service request now entropy chance).headers.values RequestId.header =
      [(RequestId.ofHeaders request.headers chance).render] := by
  have hinner := (made_shared service
    (request.stamped (RequestId.ofHeaders request.headers chance)) now entropy).values_eq_nil
  have houter (value : Bytes) :
      Headers.values [(RequestId.header, value)] RequestId.header = [value] := by
    simp [Headers.values, alike]
  rw [serve, Response.headers_withHeaders, Headers.values_append, hinner, houter, List.nil_append]

/-! ### Identifiers of requests -/

variable {headers : Headers} {text : Bytes} {id : Uuid}

/-- Who spells an identifier gets it. -/
theorem RequestId.ofHeaders_of_spells (h : headers.first? header = some text)
    (hspells : id.Spells text) (chance : BitVec 128) : ofHeaders headers chance = id := by
  simp [ofHeaders, ofHeaders?, h, parse?_eq_some_iff.2 hspells]

/-- Who spells none gets one of chance. -/
theorem RequestId.ofHeaders_of_forall_not_spells
    (h : ∀ text (id : Uuid), headers.first? header = some text → ¬ id.Spells text)
    (chance : BitVec 128) : ofHeaders headers chance = .version4 chance := by
  have hnone : ofHeaders? headers = none := by
    refine Option.eq_none_iff_forall_ne_some.2 fun id hid => ?_
    obtain ⟨text, htext, hparse⟩ := Option.bind_eq_some_iff.1 hid
    exact h text id htext (parse?_eq_some_iff.1 hparse)
  rw [ofHeaders, hnone, Option.getD_none]

/-- **Identifiers.** Whatever is asked and whatever comes of it, a response returns one identifier,
with its digits in groups and all letters small. It is the one that the first header of the name
spells, in any of its spellings and in letters of any case, or else one of version 4, whose other
bits are those of chance; the request reaches its route with the same one, whatever its headers say
by then. The returned text depends on the first header and on chance alone, is returned again when
it is sent, and is the same for two spellings if and only if these stand for the same bits. -/
theorem serve_identifies (service service' : Service Binary64) (request request' : Request)
    (now now' : Instant) (entropy entropy' : Generator) (chance chance' : BitVec 128) :
    let sent := request.headers.first? RequestId.header
    let sent' := request'.headers.first? RequestId.header
    let response := serve service request now entropy chance
    let returned := response.headers.values RequestId.header
    let returned' :=
      (serve service' request' now' entropy' chance').headers.values RequestId.header
    (∃ id : Uuid, returned = [id.render] ∧
      (∀ text, text = id.render ↔ id.Grouped text ∧ text.map lower = text) ∧
      (∀ text (chosen : Uuid), sent = some text → chosen.Spells text → id = chosen) ∧
      ((∀ text (chosen : Uuid), sent = some text → ¬ chosen.Spells text) →
        id.version = 4 ∧ id.bits &&& freeBits = chance &&& freeBits) ∧
      let identified := request.stamped id
      response = (shared service identified now entropy).withHeaders
        [(RequestId.header, id.render)] ∧
      (∀ headers chance, ({ identified with headers } : Request).id chance = id) ∧
      ∀ route, Route.ofPath? request.target.path = some route → request.method ∈ route.methods →
        ∃ headers, response =
          let answered := answer service route identified now entropy
          (if request.method = "HEAD" then answered.headersOnly else answered).withHeaders
            headers) ∧
    (sent = sent' → chance = chance' → returned = returned') ∧
    (∀ text, returned = [text] → sent' = some text → returned' = returned) ∧
    ∀ text text' (id id' : Uuid), sent = some text → id.Spells text → sent' = some text' →
      id'.Spells text' → (returned = returned' ↔ id.bits = id'.bits) := by
  simp only [values_serve]
  refine ⟨⟨_, rfl, fun _ => eq_render_iff, ?_, ?_, rfl, fun _ _ => rfl, ?_⟩, ?_, ?_, ?_⟩
  · intro text chosen hsent hspells
    exact RequestId.ofHeaders_of_spells hsent hspells chance
  · intro hnone
    rw [RequestId.ofHeaders_of_forall_not_spells hnone]
    exact ⟨version_version4 chance, version4_and_freeBits chance⟩
  · intro route hroute hmethod
    exact serve_of_mem_methods service request now entropy chance hroute hmethod
  · intro hsent hchance
    simp only [RequestId.ofHeaders, RequestId.ofHeaders?, hsent, hchance]
  · intro text hreturned hsent
    obtain rfl := List.singleton_inj.1 hreturned
    rw [RequestId.ofHeaders_of_spells hsent (spells_render _)]
  · intro text text' id id' hsent hspells hsent' hspells'
    rw [RequestId.ofHeaders_of_spells hsent hspells, RequestId.ofHeaders_of_spells hsent' hspells',
      List.singleton_inj, render_inj, Uuid.mk.injEq]

end Http

namespace Shop

/-- An identifier. -/
def identifier : Uuid := ⟨0x67e5504410b1426f9247bb680e5fe0c8#128⟩

/-- The first user's request with the identifier in braces and capital letters, before another
header of the name. -/
def identified : Request :=
  { request with
    headers :=
      [("accept", bytesOf "*/*"),
        ("X-Request-Id", bytesOf "\x7b67E55044-10B1-426F-9247-BB680E5FE0C8\x7d"),
        ("x-request-id", bytesOf "00000000-0000-0000-0000-000000000000")] }

/-- A request for nothing that is there, with the identifier as it is returned. -/
def lost : Request where
  method := "DELETE"
  target := ⟨bytesOf "/nowhere", none⟩
  headers := [("x-request-id", bytesOf "67e55044-10b1-426f-9247-bb680e5fe0c8")]
  body := []
  stamp := none

/-- An identifier of version 1. -/
def timed : Uuid := ⟨0x67e5504410b1126f9247bb680e5fe0c8#128⟩

/-- A request with this identifier after the name in capital letters. -/
def shouted : Request :=
  { lost with
    headers := [("x-request-id", bytesOf "URN:UUID:67e55044-10b1-126f-9247-bb680e5fe0c8")] }

end Shop

/-- The overloaded shop returns the identifier of the first user's request, returns it once more
when it is sent again, and who sends none gets one of chance. -/
theorem Http.serve_identifies_shop :
    let entropy := Generator.tape []
    let sent := bytesOf "\x7b67E55044-10B1-426F-9247-BB680E5FE0C8\x7d"
    let written := bytesOf "67e55044-10b1-426f-9247-bb680e5fe0c8"
    let returned := (serve Shop.overloaded Shop.identified Shop.noon entropy 0).headers.values
      RequestId.header
    let returned' := (serve Shop.overloaded Shop.lost Shop.noon entropy 1).headers.values
      RequestId.header
    let unasked := (serve Shop.overloaded Shop.request Shop.noon entropy 2).headers.values
      RequestId.header
    Shop.identified.headers.first? RequestId.header = some sent ∧ Shop.identifier.Spells sent ∧
    Shop.lost.headers.first? RequestId.header = some written ∧ Shop.identifier.Spells written ∧
    Shop.request.headers.first? RequestId.header = none ∧
    returned = [written] ∧ returned' = returned ∧
    ∃ id : Uuid, unasked = [id.render] ∧ id.version = 4 ∧
      id.bits &&& Uuid.freeBits = 2 &&& Uuid.freeBits := by
  intro entropy sent written returned returned' unasked
  have hsent : Shop.identified.headers.first? RequestId.header = some sent := by decide +kernel
  have hspells : Shop.identifier.Spells sent := Uuid.parse?_eq_some_iff.1 (by decide +kernel)
  have hwritten : Shop.lost.headers.first? RequestId.header = some written := by decide +kernel
  have hspells' : Shop.identifier.Spells written := Uuid.parse?_eq_some_iff.1 (by decide +kernel)
  have hrender : Shop.identifier.render = written := by decide +kernel
  have hnone : Shop.request.headers.first? RequestId.header = none := rfl
  obtain ⟨⟨id, hreturned, -, hchosen, -⟩, -, hagain, -⟩ := serve_identifies Shop.overloaded
    Shop.overloaded Shop.identified Shop.lost Shop.noon Shop.noon entropy entropy 0 1
  have hreturned : returned = [written] := by
    rw [← hrender, ← hchosen _ _ hsent hspells]
    exact hreturned
  obtain ⟨⟨id', hunasked, -, -, hchance, -⟩, -⟩ := serve_identifies Shop.overloaded Shop.overloaded
    Shop.request Shop.request Shop.noon Shop.noon entropy entropy 2 2
  have hfresh := hchance fun text _ h => absurd (hnone.symm.trans h) (Option.some_ne_none text).symm
  exact ⟨hsent, hspells, hwritten, hspells', hnone, hreturned, hagain written hreturned hwritten,
    id', hunasked, hfresh⟩

/-- **The name may be in capital letters.** With the name in capital letters no identifier is
spelled strictly. Nevertheless the one that is meant is returned, which is not of version 4, instead
of one of chance. -/
theorem Http.serve_identifies_capitals :
    let sent := bytesOf "URN:UUID:67e55044-10b1-126f-9247-bb680e5fe0c8"
    let returned := (serve Shop.overloaded Shop.shouted Shop.noon (.tape []) 0).headers.values
      RequestId.header
    Shop.shouted.headers.first? RequestId.header = some sent ∧
    (∀ id : Uuid, ¬ id.SpellsStrictly sent) ∧
    returned = [bytesOf "67e55044-10b1-126f-9247-bb680e5fe0c8"] ∧
    ¬ ∃ id : Uuid, returned = [id.render] ∧ id.version = 4 := by
  intro sent returned
  have hsent : Shop.shouted.headers.first? RequestId.header = some sent := by decide +kernel
  have hspells : Shop.timed.Spells sent := Uuid.parse?_eq_some_iff.1 (by decide +kernel)
  have hreturned : returned = [Shop.timed.render] := by
    rw [← RequestId.ofHeaders_of_spells hsent hspells 0]
    exact values_serve ..
  have hrender : Shop.timed.render = bytesOf "67e55044-10b1-126f-9247-bb680e5fe0c8" := by
    decide +kernel
  refine ⟨hsent, ?_, hrender ▸ hreturned, ?_⟩
  · intro id hstrictly
    have hwritten := (Uuid.spellsStrictly_iff.1 hstrictly).2 (by decide +kernel)
    exact absurd hwritten (by decide +kernel)
  · rintro ⟨id, hid, hversion⟩
    have hsame : Shop.timed.render = id.render := List.singleton_inj.1 (hreturned.symm.trans hid)
    rw [← Uuid.render_inj.1 hsame] at hversion
    exact absurd hversion (by decide)

end Recommender
