import Recommender.Proofs.Grammar
import Recommender.Json.Decode
import Recommender.Json.Encode
import Recommender.Text
import Mathlib.Data.List.Basic

/-!
# The meaning of trees

What a tree of JSON means where a shape is expected, apart from any reader: a tree has a meaning or
has none. The order of members of an object does not matter, nor do members that the shape does not
have.

* `Piece.text?`, `Piece.key?` : what the pieces of a string mean as a text and as an identifier.
* `Shape.meaning?` : what a tree means.
-/

namespace Recommender.Json

open Text

/-! ### Strings -/

namespace Piece

/-- The bytes that the pieces of a string stand for. A unit of the first half of a surrogate pair
needs one of the second half after it, and the latter never stands alone. -/
def bytes? : List Piece → Option Bytes
  | [] => some []
  | byte b :: pieces => (bytes? pieces).map (b :: ·)
  | unit n :: pieces =>
    if 0xDC00 ≤ n ∧ n ≤ 0xDFFF then none
    else if n < 0xD800 ∨ 0xDBFF < n then (bytes? pieces).map (encodeUnit n ++ ·)
    else
      match pieces with
      | unit m :: pieces =>
        if 0xDC00 ≤ m ∧ m ≤ 0xDFFF then
          (bytes? pieces).map
            (encodeUnit (0x10000 + (n - 0xD800) * 0x400 + (m - 0xDC00)) ++ ·)
        else none
      | _ => none

/-- The text that the pieces of a string stand for. -/
def text? (pieces : List Piece) : Option String :=
  (bytes? pieces).bind textOf?

/-- The identifier that the pieces of a name stand for: its decimal digits, without zeros in front
and after a minus sign if it is negative, all of them unescaped. -/
def key? (pieces : List Piece) : Option Int64 :=
  ((bytes? pieces).bind fun bytes => (textOf? bytes).bind fun text => int64? text.toList).filter
    fun key => pieces = (encodeInt key.toInt).map byte

end Piece

/-! ### Trees -/

/-- The integer of a number between two bounds. -/
def Number.integer? (low high : Int) : Number → Option Int
  | integer n => if low ≤ n ∧ n ≤ high then some n else none
  | float _ => none

namespace Tree

/-- The text of a string. -/
def text? : Tree → Option String
  | string pieces => Piece.text? pieces
  | _ => none

/-- The number of a numeral. -/
def number? : Tree → Option Number
  | number numeral => numeral.number?
  | _ => none

/-- The integer of a numeral between two bounds. -/
def integer? (low high : Int) (t : Tree) : Option Int :=
  t.number?.bind (Number.integer? low high)

/-- The name of a choice: a string, or the name of the only member of an object, which is null. -/
def name? : Tree → Option String
  | string pieces => Piece.text? pieces
  | object [(pieces, null)] => Piece.text? pieces
  | _ => none

/-- The elements of an array. -/
def elements? : Tree → Option (List Tree)
  | array elements => some elements
  | _ => none

/-- The members of an object. -/
def members? : Tree → Option (List (List Piece × Tree))
  | object members => some members
  | _ => none

end Tree

/-- The table with a further member, if the name and the value of the member mean something. -/
def enter? {β : Type} (meaning? : Tree → Option β) (known : Table β) (member : List Piece × Tree) :
    Option (Table β) := do
  return known.insert (← Piece.key? member.1) (← meaning? member.2)

/-- What is known with a further member of an object, if its name is a text. -/
def meet? {σ : Type} (fill? : String → Tree → σ → Option σ) (known : σ)
    (member : List Piece × Tree) : Option σ :=
  (Piece.text? member.1).bind fun name => fill? name member.2 known

/-- The slot of a member and those of further ones, as the slots of all. -/
def Fields.Slots.cons {own : String} {shape : Shape} {others : Fields} (slot : Option shape.Value)
    (slots : others.Slots) : (Fields.cons own shape others).Slots :=
  (slot, slots)

/-- The value of a member and those of further ones, as the values of all. -/
def Fields.Values.cons {own : String} {shape : Shape} {others : Fields} (value : shape.Value)
    (values : others.Values) : (Fields.cons own shape others).Values :=
  (value, values)

mutual

/-- What a tree means where a shape is expected. -/
def Shape.meaning? : (shape : Shape) → Tree → Option shape.Value
  | .int64, t => (t.integer? Int64.minValue.toInt Int64.maxValue.toInt).map Int64.ofInt
  | .int32, t => (t.integer? Int32.minValue.toInt Int32.maxValue.toInt).map Int32.ofInt
  | .float, t => t.number?.map Number.toBinary64
  | .text, t => t.text?
  | .instant, t => t.text?.bind Instant.parse?
  | .choice names, t => t.name?.bind names.finIdxOf?
  | .list element, t => t.elements?.bind fun ts => ts.mapM element.meaning?
  | .table element, t => t.members?.bind fun ms => ms.foldlM (enter? element.meaning?) Table.empty
  | .record fields, t =>
    match t with
    | .object members =>
      (members.foldlM (meet? fields.fill?) fields.noSlots).bind fields.values?
    | .array elements => fields.inOrder? elements
    | _ => none

/-- The slots with the member of a name put into its slot, which must be free. -/
def Fields.fill? : (fields : Fields) → (name : String) → Tree → fields.Slots → Option fields.Slots
  | .nil, _, _, () => some ()
  | .cons own shape others, name, t, (slot, slots) =>
    if name = own then
      match slot with
      | some _ => none
      | none => (shape.meaning? t).map fun value => .cons (some value) slots
    else (others.fill? name t slots).map fun slots => .cons slot slots

/-- What the elements of an array mean as the members of an object, one for each in their order. -/
def Fields.inOrder? : (fields : Fields) → List Tree → Option fields.Values
  | .nil, [] => some ()
  | .nil, _ :: _ => none
  | .cons _ _ _, [] => none
  | .cons _ shape others, t :: ts =>
    (shape.meaning? t).bind fun value => (others.inOrder? ts).map fun values => .cons value values

end

/-! ### Slots -/

namespace Fields

variable {own name : String} {shape : Shape} {others : Fields} (t : Tree) (slots : others.Slots)

theorem fill?_free : (cons own shape others).fill? own t (.cons none slots) =
    (shape.meaning? t).map fun value => .cons (some value) slots :=
  if_pos rfl

theorem fill?_taken (value : shape.Value) :
    (cons own shape others).fill? own t (.cons (some value) slots) = none :=
  if_pos rfl

theorem fill?_other (h : name ≠ own) (slot : Option shape.Value) :
    (cons own shape others).fill? name t (.cons slot slots) =
      (others.fill? name t slots).map fun slots => .cons slot slots :=
  if_neg h

end Fields

end Recommender.Json
