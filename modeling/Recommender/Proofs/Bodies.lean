import Recommender.Proofs.Replies
import Recommender.Proofs.Writing

/-!
# Bodies of requests to predict a rating

A matrix of ratings may be written in many ways: the rows in any order, the ratings of a row in any
order, some of them more than once, with any layout and with members that nobody asks for. What is
predicted depends on the ratings alone.

* `Ratings.ofRows`, `Ratings.Arranges` : the matrix of rows, and the rows that a matrix may be
  written as.
* `WritesRequest` : the trees of bodies.
* `Http.serve_prediction` : the response to such a body is the prediction from its matrix.
-/

namespace Recommender

open Json Text

/-- Rows of ratings as they are written. -/
abbrev Rows := List (UserId × List (ProductId × Binary64))

/-! ### The matrix of rows -/

namespace Ratings

/-- The matrix of rows. -/
def ofRows (rows : Rows) : Ratings Binary64 :=
  .ofList (rows.map fun row => (row.1, .ofList row.2))

/-- Rows that a matrix may be written as: its rows in some order, and the ratings of each of them in
some order. -/
def Arranges (rows : Rows) (ratings : Ratings Binary64) : Prop :=
  ∃ rows' : Rows, rows.Perm rows' ∧
    List.Forall₂ (fun row e => row.1 = e.1 ∧ row.2.Perm e.2.entries) rows' ratings.entries

/-- The last row of a user is the one that counts. -/
theorem get?_ofRows (rows : Rows) (user : UserId) :
    (ofRows rows).get? user = (rows.reverse.lookup user).map .ofList := by
  rw [ofRows, Table.get?_ofList, ← List.map_reverse]
  exact Table.lookup_map Table.ofList rows.reverse user

/-- However a matrix is arranged, it is the matrix of its rows. -/
theorem Arranges.ofRows_eq {rows : Rows} {ratings : Ratings Binary64} (h : Arranges rows ratings) :
    ofRows rows = ratings := by
  obtain ⟨rows', hperm, hrows⟩ := h
  have hentries : rows'.map (fun row => (row.1, Table.ofList row.2)) = ratings.entries := by
    rw [← List.forall₂_eq_eq_eq, List.forall₂_map_left_iff]
    refine hrows.imp fun row e hrow => Prod.ext hrow.1 ?_
    have hnodup : (row.2.map (·.1)).Nodup := (hrow.2.map _).nodup_iff.2 e.2.nodup_keys
    exact (Table.ofList_perm hrow.2 hnodup).trans e.2.ofList_entries
  have hperm := hperm.map fun row => (row.1, Table.ofList row.2)
  rw [hentries] at hperm
  have hnodup := (hperm.map Prod.fst).nodup_iff.2 ratings.nodup_keys
  rw [ofRows, Table.ofList_perm hperm hnodup, Table.ofList_entries]

end Ratings

/-! ### Trees of bodies -/

/-- A tree writes ratings: an object with a member for each of them, named by the decimal text of
the product. -/
def WritesRow (row : List (ProductId × Binary64)) (t : Tree) : Prop :=
  ∃ ms, t = .object ms ∧ List.Forall₂ (fun m e => m.1 = (encodeInt e.1.toInt).map .byte ∧
    m.2.number?.map Number.toBinary64 = some e.2) ms row

/-- A tree writes rows: an object with a member for each of them, named by the decimal text of the
user. -/
def WritesRows (rows : Rows) (t : Tree) : Prop :=
  ∃ ms, t = .object ms ∧ List.Forall₂ (fun m e => m.1 = (encodeInt e.1.toInt).map .byte ∧
    WritesRow e.2 m.2) ms rows

/-- A tree writes a request: an object with a member for the user, one for the item, one for the
ratings and further ones of other names, in any order. -/
inductive WritesRequest (user : UserId) (item : ProductId) (rows : Rows) : Tree → Prop
  /-- The members in some order. -/
  | mk {userName itemName ratingsName : List Piece} {ratings : Tree}
    {others members : List (List Piece × Tree)} : Piece.text? userName = some "user_id" →
    Piece.text? itemName = some "item_id" → Piece.text? ratingsName = some "ratings" →
    WritesRows rows ratings → (∀ m ∈ others, ∃ name, Piece.text? m.1 = some name ∧
      name ∉ ["user_id", "item_id", "ratings"]) →
    members.Perm (others ++ [(userName, .number (.ofInt user.toInt)),
      (itemName, .number (.ofInt item.toInt)), (ratingsName, ratings)]) →
    WritesRequest user item rows (.object members)

theorem WritesRow.meaning? {row : List (ProductId × Binary64)} {t : Tree} (h : WritesRow row t) :
    (Shape.table .float).meaning? t = some (Table.ofList row) := by
  obtain ⟨ms, rfl, hms⟩ := h
  exact foldlM_enter? (hms.imp fun _ _ h => ⟨Piece.key?_eq_some_iff.2 h.1, h.2⟩) Table.empty

theorem WritesRows.meaning? {rows : Rows} {t : Tree} (h : WritesRows rows t) :
    Ratings.shape.meaning? t = some (Ratings.ofRows rows) := by
  obtain ⟨ms, rfl, hms⟩ := h
  have hrows : List.Forall₂ (fun m e => Piece.key? m.1 = some e.1 ∧
      (Shape.table .float).meaning? m.2 = some e.2) ms
      (rows.map fun row => (row.1, Table.ofList row.2)) :=
    List.forall₂_map_right_iff.2 <|
      hms.imp fun _ _ h => ⟨Piece.key?_eq_some_iff.2 h.1, h.2.meaning?⟩
  exact foldlM_enter? hrows Table.empty

theorem WritesRequest.meaning? {user : UserId} {item : ProductId} {rows : Rows} {t : Tree}
    (h : WritesRequest user item rows t) :
    (PredictionRequest.shape.meaning? t).map PredictionRequest.ofValue =
      some ⟨user, item, .ofRows rows⟩ := by
  obtain @⟨userName, itemName, ratingsName, ratings, others, members, huser, hitem, hratings, hrows,
    hothers, hperm⟩ := h
  -- the other members are passed over
  have hvariant : PredictionRequest.shape.Variant (.object members) (.object
      [(userName, .number (.ofInt user.toInt)), (itemName, .number (.ofInt item.toInt)),
        (ratingsName, ratings)]) := by
    refine .trans (.reorder hperm) ?_
    clear hperm
    induction others with
    | nil => exact .refl ..
    | cons m others ih =>
      rw [List.forall_mem_cons] at hothers
      obtain ⟨⟨name, hname, hnot⟩, hothers⟩ := hothers
      exact .trans (.symm (.extend m.2 _ hname hnot)) (ih hothers)
  -- the three members are met in the order of the shape
  have hlast : (Fields.cons "ratings" Ratings.shape .nil).valuesOf? [(ratingsName, ratings)] =
      some (.cons (Ratings.ofRows rows) ()) :=
    (Fields.valuesOf?_cons hratings hrows.meaning? (List.forall_mem_nil _)).trans rfl
  have hmiddle : (Fields.cons "item_id" .int64 (.cons "ratings" Ratings.shape .nil)).valuesOf?
        [(itemName, .number (.ofInt item.toInt)), (ratingsName, ratings)] =
      some (.cons item (.cons (Ratings.ofRows rows) ())) := by
    rw [Fields.valuesOf?_cons hitem (meaning?_int64 item) (by simp [hratings]), hlast]
    rfl
  have hall : PredictionRequest.shape.meaning? (.object
        [(userName, .number (.ofInt user.toInt)), (itemName, .number (.ofInt item.toInt)),
          (ratingsName, ratings)]) = some (user, item, Ratings.ofRows rows, ()) := by
    refine (Fields.valuesOf?_cons huser (meaning?_int64 user) (by simp [hitem, hratings])).trans ?_
    rw [hmiddle]
    rfl
  rw [hvariant.meaning?_eq, hall]
  rfl

namespace Http

/-- The response to a body that holds a request is the prediction, unless the body is too long. -/
theorem predictionFor_of_decodeFront {request : Request} {prediction : PredictionRequest}
    (hjson : request.announcesJson)
    (hread : (PredictionRequest.shape.decodeFront request.body).map PredictionRequest.ofValue =
      .ok prediction) :
    predictionFor request =
      if maxBodyLength < request.body.length then .refusal .contentTooLarge
      else .json .ok (.ofNumber "prediction" prediction.prediction) := by
  rw [predictionFor, Request.read, hjson]
  by_cases hlong : maxBodyLength < request.body.length
  · simp [hlong]
  · cases hvalue : PredictionRequest.shape.decodeFront request.body with
    | error fault =>
      rw [hvalue] at hread
      cases hread
    | ok value =>
      rw [hvalue] at hread
      cases hread
      simp [hlong]

/-- **A prediction depends on the ratings alone.** However a request for a prediction is laid out as
JSON, and in whatever order its members stand, what is read of it are the user, the item and the
matrix of its rows: of a user who is named twice the last row, and of an item in a row the last
rating. The response is the prediction by this matrix. Only a body of more than two mebibytes is
refused, with the status 413, whatever it says. -/
theorem serve_prediction (service : Service Binary64) (request : Request) (now : Instant)
    (entropy : Generator) (chance : BitVec 128) {user : UserId} {item : ProductId} {rows : Rows}
    {t : Tree} (hmethod : request.method = "POST")
    (hpath : request.target.path = Route.prediction.path) (hjson : request.announcesJson)
    (ht : WritesRequest user item rows t) (hbody : t.LaidOut request.body) :
    let ratings := Ratings.ofRows rows
    let response := serve service request now entropy chance
    (PredictionRequest.shape.decodeFront request.body).map PredictionRequest.ofValue =
        .ok ⟨user, item, ratings⟩ ∧
      (response.status, response.content) =
        (if maxBodyLength < request.body.length then (.contentTooLarge, .sentence)
        else (.ok, .document (.ofNumber "prediction" (ratings.predict cosine user item)))) ∧
      (∀ u, ratings.get? u = (rows.reverse.lookup u).map .ofList) ∧
      (∀ (row : List (ProductId × Binary64)) i, (Table.ofList row).get? i = row.reverse.lookup i) ∧
      ∀ matrix, Ratings.Arranges rows matrix → ratings = matrix := by
  intro ratings response
  have hread : (PredictionRequest.shape.decodeFront request.body).map PredictionRequest.ofValue =
      .ok ⟨user, item, ratings⟩ := by
    rw [← toOption_eq_some_iff, ← ht.meaning?, ← PredictionRequest.shape.toOption_decodeFront hbody]
    cases PredictionRequest.shape.decodeFront request.body <;> rfl
  refine ⟨hread, ?_, Ratings.get?_ofRows rows, fun row i => Table.get?_ofList row,
    fun matrix => Ratings.Arranges.ofRows_eq⟩
  have hroute : Route.ofPath? request.target.path = some .prediction := by
    rw [hpath]
    decide
  have hknown : request.method ∈ Route.prediction.methods := by
    rw [hmethod]
    exact List.mem_cons_self
  obtain ⟨headers, hserve⟩ := serve_of_mem_methods service request now entropy chance hroute hknown
  have hpost : request.method ≠ "HEAD" := by rw [hmethod]; decide
  have hresponse (id : Uuid) : predictionFor (request.stamped id) =
      if maxBodyLength < request.body.length then .refusal .contentTooLarge
      else .json .ok (.ofNumber "prediction" (ratings.predict cosine user item)) :=
    predictionFor_of_decodeFront hjson hread
  simp only [response, hserve, answer, if_neg hpost, hresponse]
  by_cases hlong : maxBodyLength < request.body.length
  · simp only [if_pos hlong]
    rfl
  · simp only [if_neg hlong]
    rfl

/-- Two rows of one user, the second of which tells one rating twice. -/
def rowsToldTwice : Rows :=
  [(1, [(7, ⟨0x4000000000000000⟩)]), (1, [(7, ⟨0x4008000000000000⟩), (7, ⟨0x4010000000000000⟩)])]

/-- A request with two rows of one user, the second of which tells one rating twice. -/
def toldTwice : Request where
  method := "POST"
  target := ⟨Route.prediction.path, none⟩
  headers := [("Content-Type", bytesOf "application/json; charset=utf-8")]
  body := enclose '{' '}' [
    encodeMember (quote "ratings") (enclose '{' '}' [
      encodeMember (quote "1") (enclose '{' '}' [encodeMember (quote "7") (encodeInt 2)]),
      encodeMember (quote "1") (enclose '{' '}' [encodeMember (quote "7") (encodeInt 3),
        encodeMember (quote "7") (encodeInt 4)])]),
    encodeMember (quote "item_id") (encodeInt 7),
    encodeMember (quote "user_id") (encodeInt 1),
    encodeMember (quote "note") (quote "ratings")]
  stamp := none

/-- What is told last counts. -/
theorem serve_prediction_toldTwice :
    toldTwice.method = "POST" ∧ toldTwice.target.path = Route.prediction.path ∧
    toldTwice.announcesJson ∧
    let response := serve Shop.overloaded toldTwice Shop.noon (.tape []) 0
    (response.status, response.content) =
      (.ok, .document (.ofNumber "prediction" ⟨0x4010000000000000⟩)) := by
  have hjson : toldTwice.announcesJson := by decide +kernel
  have hkey (n : Int64) {t : Tree} {text : Bytes} (h : t.Spells text) :
      SpellsMember Tree.Spells ((encodeInt n.toInt).map .byte, t)
        (encodeMember (quote (toString n.toInt)) text) := by
    have hmember := spellsMember_encode h (toString n.toInt)
    rwa [Piece.key?_eq_some_iff.1 (key?_quoted n)] at hmember
  have hrating (item : Int64) (n : Int) := hkey item (.number (Numeral.spells_ofInt n))
  have hfirst := Tree.Spells.object (separated_intercalate (.cons (hrating 7 2) .nil))
  have hsecond := Tree.Spells.object
    (separated_intercalate (.cons (hrating 7 3) (.cons (hrating 7 4) .nil)))
  have hrows := Tree.Spells.object
    (separated_intercalate (.cons (hkey 1 hfirst) (.cons (hkey 1 hsecond) .nil)))
  have hbody := Tree.Spells.object (separated_intercalate
    (.cons (spellsMember_encode hrows "ratings") <|
      .cons (spellsMember_encode (.number (Numeral.spells_ofInt 7)) "item_id") <|
      .cons (spellsMember_encode (.number (Numeral.spells_ofInt 1)) "user_id") <|
      .cons (spellsMember_encode (spells_quote "ratings") "note") .nil))
  have htwo : (Tree.number (.ofInt 2)).number?.map Number.toBinary64 =
      some ⟨0x4000000000000000⟩ := by decide +kernel
  have hthree : (Tree.number (.ofInt 3)).number?.map Number.toBinary64 =
      some ⟨0x4008000000000000⟩ := by decide +kernel
  have hfour : (Tree.number (.ofInt 4)).number?.map Number.toBinary64 =
      some ⟨0x4010000000000000⟩ := by decide +kernel
  have hwritten : WritesRows rowsToldTwice (.object
      [(_, .object [(_, .number (.ofInt 2))]),
        (_, .object [(_, .number (.ofInt 3)), (_, .number (.ofInt 4))])]) :=
    ⟨_, rfl, .cons ⟨rfl, _, rfl, .cons ⟨rfl, htwo⟩ .nil⟩ <|
      .cons ⟨rfl, _, rfl, .cons ⟨rfl, hthree⟩ (.cons ⟨rfl, hfour⟩ .nil)⟩ .nil⟩
  have hnote : ∀ m ∈ [((bytesOf "note").map Piece.quoted,
        Tree.string ((bytesOf "ratings").map Piece.quoted))],
      ∃ name, Piece.text? m.1 = some name ∧ name ∉ ["user_id", "item_id", "ratings"] :=
    List.forall_mem_singleton.2 ⟨"note", Piece.text?_quoted "note", by decide⟩
  have hrequest : WritesRequest 1 7 rowsToldTwice (.object _) :=
    .mk (Piece.text?_quoted "user_id") (Piece.text?_quoted "item_id") (Piece.text?_quoted "ratings")
      hwritten hnote (List.reverse_perm _)
  have hpredicted : (Ratings.ofRows rowsToldTwice).predict cosine 1 7 = ⟨0x4010000000000000⟩ := by
    decide +kernel
  have hshort : ¬ maxBodyLength < toldTwice.body.length := by decide +kernel
  obtain ⟨-, hresponse, -⟩ := serve_prediction Shop.overloaded toldTwice Shop.noon (.tape []) 0
    rfl rfl hjson hrequest hbody.laidOut
  rw [hpredicted, if_neg hshort] at hresponse
  exact ⟨rfl, rfl, hjson, hresponse⟩

end Http

end Recommender
