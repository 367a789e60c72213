import Recommender.Json.Shape
import Recommender.Json.Ignored
import Recommender.Instant.Text

/-!
# Reading documents

A document is read against its shape. Members of an object may stand in any order, members that the
shape does not have are passed over, and an object may also be written as the array of all its
members in the order of the shape.

* `Shape.read` : reads a document at the front of a text.
* `Shape.decode` : reads a text that is one document.
-/

namespace Recommender.Json

open Text

/-- Refuses the value that stands in front, which is not of the kind that is expected. What it is,
is found out first: a word, a number or a string must be well formed to be of the wrong kind. -/
def refuse {β : Type} : Reader β := do
  let b ← token
  if b = ascii 'n' then word (bytesOf "null")
  else if b = ascii 't' then word (bytesOf "true")
  else if b = ascii 'f' then word (bytesOf "false")
  else if b = ascii '-' || isDigit b then discard Numeral.readNumber
  else if b = ascii '"' then do advance; discard quotedText
  else if b ≠ ascii '[' ∧ b ≠ ascii '{' then throw .malformed
  throw .mismatched

/-- Reads a number. -/
def readNumber : Reader Number := do
  let b ← token
  if b = ascii '-' || isDigit b then Numeral.readNumber else refuse

/-- Reads an integer between two bounds. -/
def readInteger (low high : Int) : Reader Int := do
  match ← readNumber with
  | .integer n => if low ≤ n ∧ n ≤ high then pure n else throw .mismatched
  | .float _ => throw .mismatched

/-- Reads an integer of 64 bits. -/
def readInt64 : Reader Int64 :=
  Int64.ofInt <$> readInteger Int64.minValue.toInt Int64.maxValue.toInt

/-- Reads a string. -/
def readText : Reader String := do
  if (← token) = ascii '"' then do
    advance
    quotedText
  else refuse

/-- Reads a string that names an instant. -/
def readInstant : Reader Instant := do
  match Instant.parse? (← readText) with
  | some t => pure t
  | none => throw .mismatched

/-- The place of a name in a list. -/
def placeOf (names : List String) (name : String) : Reader (Fin names.length) :=
  match names.finIdxOf? name with
  | some i => pure i
  | none => throw .mismatched

/-- Reads one of a list of names: a string, or an object whose only member has that name and is
null. -/
def readChoice (names : List String) : Reader (Fin names.length) := do
  let b ← token
  if b = ascii '"' then do
    advance
    placeOf names (← quotedText)
  else if b = ascii '{' then do
    advance
    mark '"'
    let i ← placeOf names (← quotedText)
    mark ':'
    if (← token) = ascii 'n' then word (bytesOf "null") else refuse
    mark '}'
    pure i
  else throw .malformed

/-- Reads elements up to the bracket that ends them. -/
def readElements {β : Type} (read : Reader β) : (fuel : Nat) → (first : Bool) → Reader (List β)
  | 0, _ => throw .truncated
  | fuel + 1, first => do
    if ← moreElements first then do
      let x ← read
      let xs ← readElements read fuel false
      pure (x :: xs)
    else pure []

/-- Reads members up to the brace that ends them, one after the other into what is known so far. -/
def readMembers {σ : Type} (read : σ → Reader σ) : (fuel : Nat) → (first : Bool) → σ → Reader σ
  | 0, _, _ => throw .truncated
  | fuel + 1, first, known => do
    if ← moreMembers first then do
      readMembers read fuel false (← read known)
    else pure known

/-- Reads the name of a member of a table, an integer in quotes. -/
def readKey : Reader Int64 := do
  advance
  match ← peek? with
  | some b =>
    if b = ascii '-' || isDigit b then do
      let key ← readInt64
      if (← peek?) = some (ascii '"') then do
        advance
        pure key
      else throw .malformed
    else throw .malformed
  | none => throw .malformed

/-- Reads a member of a table into the table; a member of the same name is replaced. -/
def readEntry {β : Type} (read : Reader β) (known : Table β) : Reader (Table β) := do
  let key ← readKey
  mark ':'
  return known.insert key (← read)

/-- Reads the name of a member of an object. -/
def readName : Reader String := do
  advance
  quotedText

mutual

/-- Reads a document at the front of a text. -/
def Shape.read : (shape : Shape) → Reader shape.Value
  | .int64 => readInt64
  | .int32 => Int32.ofInt <$> readInteger Int32.minValue.toInt Int32.maxValue.toInt
  | .float => Number.toBinary64 <$> readNumber
  | .text => readText
  | .instant => readInstant
  | .choice names => readChoice names
  | .list element => do
    if (← token) = ascii '[' then do
      advance
      let xs ← fuelled fun fuel => readElements element.read fuel true
      advance
      pure xs
    else refuse
  | .table element => do
    if (← token) = ascii '{' then do
      advance
      let t ← fuelled fun fuel => readMembers (readEntry element.read) fuel true Table.empty
      advance
      pure t
    else refuse
  | .record fields => do
    let b ← token
    if b = ascii '{' then do
      advance
      let slots ← fuelled fun fuel => readMembers
        (fun slots => do fields.readMember (← readName) slots) fuel true fields.noSlots
      match fields.values? slots with
      | some values => do
        advance
        pure values
      | none => throw .mismatched
    else if b = ascii '[' then do
      advance
      let values ← fields.readInOrder true
      mark ']'
      pure values
    else refuse

/-- Reads the member of a name into its slot, which must be free; a name that the shape does not
have is passed over with its value. -/
def Fields.readMember : (fields : Fields) → (name : String) → fields.Slots → Reader fields.Slots
  | .nil, _, () => do
    mark ':'
    ignoreValue
  | .cons own shape others, name, (slot, slots) => do
    if name = own then
      match slot with
      | some _ => throw .mismatched
      | none => do
        mark ':'
        let value ← shape.read
        pure (some value, slots)
    else do
      let slots ← others.readMember name slots
      pure (slot, slots)

/-- Reads all members as elements of an array, up to the bracket that should end it. -/
def Fields.readInOrder : (fields : Fields) → (first : Bool) → Reader fields.Values
  | .nil, _ => pure ()
  | .cons _ shape others, first => do
    if ← moreElements first then do
      let value ← shape.read
      let values ← others.readInOrder false
      pure (value, values)
    else throw .mismatched

end

namespace Shape

/-- Reads a text that is one document, with nothing but blanks around it. -/
def decode (shape : Shape) (text : Bytes) : Except Fault shape.Value := do
  let (value, rest) ← shape.read.run text
  if rest.all isBlank then pure value else throw .malformed

/-- Reads a text that starts with a document; what follows the document is not looked at. -/
def decodeFront (shape : Shape) (text : Bytes) : Except Fault shape.Value := do
  let (value, _) ← shape.read.run text
  pure value

end Shape

end Recommender.Json
