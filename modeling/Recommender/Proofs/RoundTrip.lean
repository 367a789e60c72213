import Recommender.Documents
import Recommender.Proofs.Writing

/-!
# Writing and reading models

Each kind of model is written as a document of its shape and read from one. A model that is written
is read back, from its own text and from every text that differs in layout, in the order of members
and in members that the shape does not have.

* `Kind` : the kinds of models, with their shapes.
* `Kind.read_write` : models are read back, and reading does not tell variants apart.
-/

namespace Recommender

open Json Text

/-- The kinds of models that are documents. -/
inductive Kind
  /-- Products. -/
  | product
  /-- Likes. -/
  | like
  /-- Lines of orders. -/
  | orderItem
  /-- Orders. -/
  | order
  /-- Strategies. -/
  | strategy
  /-- Recommendations. -/
  | recommendation
  /-- Answers to requests for recommendations. -/
  | answer

namespace Kind

/-- The models of a kind. -/
def Model : Kind → Type
  | product => Product Binary64
  | like => Like
  | orderItem => OrderItem
  | order => Order
  | strategy => Strategy
  | recommendation => Recommendation Binary64
  | answer => RecommendationsAnswer

/-- The shape of the documents of a kind. -/
def shape : Kind → Shape
  | product => Product.shape
  | like => Like.shape
  | orderItem => OrderItem.shape
  | order => Order.shape
  | strategy => Strategy.shape
  | recommendation => Recommendation.shape
  | answer => RecommendationsAnswer.shape

/-- A model as a document. -/
def toValue : (kind : Kind) → kind.Model → kind.shape.Value
  | product => Product.toValue
  | like => Like.toValue
  | orderItem => OrderItem.toValue
  | order => Order.toValue
  | strategy => Strategy.toValue
  | recommendation => Recommendation.toValue
  | answer => RecommendationsAnswer.toValue

/-- The model of a document. -/
def ofValue : (kind : Kind) → kind.shape.Value → kind.Model
  | product => Product.ofValue
  | like => Like.ofValue
  | orderItem => OrderItem.ofValue
  | order => Order.ofValue
  | strategy => Strategy.ofValue
  | recommendation => Recommendation.ofValue
  | answer => RecommendationsAnswer.ofValue

/-- The text that a model is written as. -/
def write (kind : Kind) (model : kind.Model) : Bytes :=
  kind.shape.encode (kind.toValue model)

/-- The model that is read from a text. -/
def read (kind : Kind) (text : Bytes) : Except Fault kind.Model :=
  (kind.shape.decode text).map kind.ofValue

/-- The document of a model tells the model. -/
theorem ofValue_toValue (kind : Kind) (model : kind.Model) :
    kind.ofValue (kind.toValue model) = model := by
  have hstrategy (s : Strategy) : Strategy.ofValue s.toValue = s := by
    cases s <;> rfl
  have hrecommendation (r : Recommendation Binary64) :
      Recommendation.ofValue r.toValue = r := by
    obtain ⟨product, score, s⟩ := r
    exact congrArg (Recommendation.mk product score) (hstrategy s)
  cases kind with
  | product | like | orderItem => rfl
  | order =>
    obtain ⟨id, user, items⟩ := model
    have hitems : (items.map OrderItem.toValue).map OrderItem.ofValue = items := by
      rw [List.map_map]
      exact List.map_id'' (fun _ => rfl) items
    exact congrArg (Order.mk id user) hitems
  | strategy => exact hstrategy model
  | recommendation => exact hrecommendation model
  | answer =>
    obtain ⟨recommendations⟩ := model
    have hall : (recommendations.map Recommendation.toValue).map Recommendation.ofValue =
        recommendations := by
      rw [List.map_map]
      exact List.map_id'' hrecommendation recommendations
    exact congrArg RecommendationsAnswer.mk hall

theorem isProper_shape (kind : Kind) : kind.shape.isProper := by
  cases kind <;> decide

theorem toOption_read (kind : Kind) {T : Tree} {text : Bytes} (h : T.LaidOut text) :
    (kind.read text).toOption = (kind.shape.meaning? T).map kind.ofValue := by
  rw [← kind.shape.toOption_decode h, read]
  cases kind.shape.decode text <;> rfl

/-- A model whose numbers and instants are read back is read back, from what is written for it and
from all variants of it, however these are laid out. Whether or not a text is that of a model,
reading does not tell its variants apart. -/
theorem read_write (kind : Kind) :
    (∀ model : kind.Model, kind.shape.All FloatReadsBack InstantReadsBack (kind.toValue model) →
      kind.read (kind.write model) = .ok model ∧
      ∃ T : Tree, T.Spells (kind.write model) ∧
        ∀ T' text, kind.shape.Variant T T' → T'.LaidOut text → kind.read text = .ok model) ∧
    ∀ T T' text text', kind.shape.Variant T T' → T.LaidOut text → T'.LaidOut text' →
      (kind.read text).toOption = (kind.read text').toOption := by
  refine ⟨fun model hall => ?_, fun T T' text text' hvariant h h' => ?_⟩
  · obtain ⟨T, hspells, hmeaning⟩ := kind.shape.exists_spells kind.isProper_shape _ hall
    have hread {T' : Tree} {text : Bytes} (hvariant : kind.shape.Variant T T')
        (h : T'.LaidOut text) : kind.read text = .ok model := by
      have htext := kind.toOption_read h
      rw [← hvariant.meaning?_eq, hmeaning, Option.map_some, kind.ofValue_toValue] at htext
      exact toOption_eq_some_iff.1 htext
    exact ⟨hread (.refl _ T) hspells.laidOut, T, hspells, fun _ _ => hread⟩
  · rw [kind.toOption_read h, kind.toOption_read h', hvariant.meaning?_eq]

/-- A recommendation with a name that needs escapes, numbers with a fraction and an instant. -/
def quotedLamp : Recommendation Binary64 where
  product :=
    { id := Int64.minValue
      name := "\"Lamp\"\n\\ é"
      category := ""
      price := ⟨0x4029000000000000⟩
      createdAt := ⟨19875, 45296, 500000000, by decide, by decide, by decide⟩ }
  score := ⟨0xbfe0000000000000⟩
  strategy := .contentBased

/-- A lamp is read back; and two members may be exchanged, with a further one before them. -/
theorem read_write_quotedLamp :
    Kind.read .recommendation (Kind.write .recommendation quotedLamp) = .ok quotedLamp ∧
    (Kind.read .orderItem (enclose '{' '}' [encodeMember (quote "product_id") (encodeInt 7),
        encodeMember (quote "quantity") (encodeInt 2)])).toOption =
      (Kind.read .orderItem (enclose '{' '}' [encodeMember (quote "note") (quote "gift"),
        encodeMember (quote "quantity") (encodeInt 2),
        encodeMember (quote "product_id") (encodeInt 7)])).toOption := by
  have hproduct := spellsMember_encode (.number (Numeral.spells_ofInt 7)) "product_id"
  have hquantity := spellsMember_encode (.number (Numeral.spells_ofInt 2)) "quantity"
  have hnote := spellsMember_encode (spells_quote "gift") "note"
  have hfirst := separated_intercalate (.cons hproduct (.cons hquantity .nil))
  have hsecond := separated_intercalate (.cons hnote (.cons hquantity (.cons hproduct .nil)))
  have hprice : FloatReadsBack quotedLamp.product.price := by decide +kernel
  have hcreated : InstantReadsBack quotedLamp.product.createdAt := by decide +kernel
  have hscore : FloatReadsBack quotedLamp.score := by decide +kernel
  refine ⟨((read_write .recommendation).1 quotedLamp ?_).1, (read_write .orderItem).2 _ _ _ _ ?_
    (Tree.Spells.object hfirst).laidOut (Tree.Spells.object hsecond).laidOut⟩
  · exact ⟨⟨trivial, trivial, trivial, hprice, hcreated, trivial⟩, hscore, trivial, trivial⟩
  · exact .trans (.reorder (.swap _ _ [])) (.extend _ _ (Piece.text?_quoted "note") (by decide))

end Kind

end Recommender
