import Recommender.Json.Shape
import Recommender.Json.Quoted
import Recommender.Instant.Text
import Recommender.Decimal.Text

/-!
# Writing documents

A document is written without blanks, with the members of an object in the order of its shape.

* `Shape.encode` : the text of a value.
-/

namespace Recommender.Json

open Text

/-- The digits of an integer, after a minus sign if it is negative. -/
def encodeInt (n : Int) : Bytes :=
  bytesOf (toString n)

/-- A number; what is no finite number is written as null. -/
def encodeFloat (x : Binary64) : Bytes :=
  if x.isFinite then bytesOf (String.ofList (x.numberText)) else bytesOf "null"

/-- Parts between two marks, with commas between them. -/
def enclose (first last : Char) (parts : List Bytes) : Bytes :=
  ascii first :: ([ascii ','].intercalate parts ++ [ascii last])

/-- A member of an object, whose name is already in quotes. -/
def encodeMember (name value : Bytes) : Bytes :=
  name ++ ascii ':' :: value

mutual

/-- The text of a value. -/
def Shape.encode : (shape : Shape) → shape.Value → Bytes
  | .int64, (n : Int64) => encodeInt n.toInt
  | .int32, (n : Int32) => encodeInt n.toInt
  | .float, (x : Binary64) => encodeFloat x
  | .text, (text : String) => quote text
  | .instant, (t : Instant) => quote t.render
  | .choice names, (i : Fin names.length) => quote names[i]
  | .list element, (xs : List element.Value) => enclose '[' ']' (xs.map element.encode)
  | .table element, (t : Table element.Value) =>
    enclose '{' '}' <| t.entries.map fun e =>
      encodeMember (quote (toString e.1.toInt)) (element.encode e.2)
  | .record fields, (values : fields.Values) => enclose '{' '}' (fields.encode values)

/-- The members of an object with their values. -/
def Fields.encode : (fields : Fields) → fields.Values → List Bytes
  | .nil, () => []
  | .cons name shape others, (value, values) =>
    encodeMember (quote name) (shape.encode value) :: others.encode values

end

/-- A value together with its shape. -/
structure Document where
  /-- The shape. -/
  shape : Shape
  /-- The value. -/
  value : shape.Value

namespace Document

/-- A document whose only member is a text. -/
def ofText (name text : String) : Document :=
  ⟨.record (.cons name .text .nil), (text, ())⟩

/-- A document whose only member is a number. -/
def ofNumber (name : String) (x : Binary64) : Document :=
  ⟨.record (.cons name .float .nil), (x, ())⟩

/-- The text of a document. -/
def encode (d : Document) : Bytes :=
  d.shape.encode d.value

end Document

end Recommender.Json
