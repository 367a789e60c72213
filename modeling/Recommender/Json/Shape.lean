import Recommender.Binary64
import Recommender.Instant
import Recommender.Table

/-!
# Shapes of documents

A `Shape` says what a JSON document must look like, and `Shape.Value` is the type of what such a
document holds. Both reading and writing follow the shape.

* `Shape.Value` : the values of a shape.
* `Fields.Slots` : the members of an object met so far.
-/

namespace Recommender.Json

mutual

/-- What a document must look like. -/
inductive Shape
  /-- An integer of 64 bits. -/
  | int64
  /-- An integer of 32 bits. -/
  | int32
  /-- A number. -/
  | float
  /-- A string. -/
  | text
  /-- A string that names an instant. -/
  | instant
  /-- A string, one of a list of names. -/
  | choice (names : List String)
  /-- An array of elements of one shape. -/
  | list (element : Shape)
  /-- An object whose names are integers of 64 bits, with members of one shape. -/
  | table (element : Shape)
  /-- An object with the given members. -/
  | record (fields : Fields)

/-- The members of an object. -/
inductive Fields
  /-- No members. -/
  | nil
  /-- A member and further ones. -/
  | cons (name : String) (shape : Shape) (others : Fields)

end

mutual

/-- What a document of a shape holds. -/
def Shape.Value : Shape → Type
  | .int64 => Int64
  | .int32 => Int32
  | .float => Binary64
  | .text => String
  | .instant => Instant
  | .choice names => Fin names.length
  | .list element => List element.Value
  | .table element => Table element.Value
  | .record fields => fields.Values

/-- What the members of an object hold. -/
def Fields.Values : Fields → Type
  | .nil => Unit
  | .cons _ shape others => shape.Value × others.Values

end

/-- What the members of an object hold that were met so far. -/
def Fields.Slots : Fields → Type
  | .nil => Unit
  | .cons _ shape others => Option shape.Value × others.Slots

namespace Fields

/-- No member met. -/
def noSlots : (fields : Fields) → fields.Slots
  | .nil => ()
  | .cons _ _ others => (none, others.noSlots)

/-- The values of all members, if all were met. -/
def values? : (fields : Fields) → fields.Slots → Option fields.Values
  | .nil, () => some ()
  | .cons _ _ others, (slot, slots) => do
    let value ← slot
    let values ← others.values? slots
    pure (value, values)

end Fields

end Recommender.Json
