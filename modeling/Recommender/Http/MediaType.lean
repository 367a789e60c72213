import Recommender.Text

/-!
# Media types

A media type is a type and a subtype, then parameters after semicolons. The subtype may end in a
plus sign and a suffix.

* `MediaType.parse?` : the media type of a text.
* `MediaType.isJson` : whether it announces JSON.
-/

namespace Recommender.Http

open Text

/-- A media type without its parameters, as it is spelled. -/
structure MediaType where
  /-- The type. -/
  kind : Bytes
  /-- The subtype without its suffix. -/
  subtype : Bytes
  /-- What follows the last plus sign of the subtype, if there is one after its first character. -/
  suffix : Option Bytes
deriving DecidableEq

namespace MediaType

/-- The marks that may stand in a token beside letters and digits. -/
def tokenMarks : Bytes := bytesOf "!#$%&'*+-.^_`|~"

/-- Whether a byte may stand in a token. -/
def isTokenByte (b : UInt8) : Bool :=
  isLetter b || isDigit b || tokenMarks.contains b

/-- Whether a byte is a printable character of ASCII or a space. -/
def isPrintable (b : UInt8) : Bool :=
  ascii ' ' ≤ b && b ≤ ascii '~'

/-! ### Parameters -/

/-- A place in a list of parameters. -/
inductive Place
  /-- Before a name. -/
  | gap
  /-- Within a name. -/
  | name
  /-- After an equals sign. -/
  | equals
  /-- Within a value without quotes. -/
  | value
  /-- After the quote that opens a value. -/
  | opened
  /-- Within a value in quotes. -/
  | quoted
  /-- After the quote that closes a value. -/
  | closed
deriving DecidableEq

namespace Place

/-- The place after a byte, if the byte may stand there. The first byte of a value in quotes belongs
to it, whatever it is. -/
def next? : Place → UInt8 → Option Place
  | gap, b => if b = ascii ' ' then some gap else if isTokenByte b then some name else none
  | name, b => if b = ascii '=' then some equals else if isTokenByte b then some name else none
  | equals, b => if b = ascii '"' then some opened else if isTokenByte b then some value else none
  | value, b => if b = ascii ';' then some gap else if isTokenByte b then some value else none
  | opened, b => if isPrintable b then some quoted else none
  | quoted, b =>
    if b = ascii '"' then some closed else if isPrintable b then some quoted else none
  | closed, b => if b = ascii ';' then some gap else if b = ascii ' ' then some closed else none

/-- Whether a list of parameters may end at a place. -/
def mayEnd : Place → Bool
  | gap | equals | value | closed => true
  | name | opened | quoted => false

end Place

/-- Whether a text is a list of parameters. -/
def areParameters (text : Bytes) : Bool :=
  (text.foldlM Place.next? .gap).any Place.mayEnd

/-! ### Types -/

/-- The subtype and the suffix of a token. -/
def splitSuffix (token : Bytes) : Bytes × Option Bytes :=
  let suffix := (token.reverse.takeWhile (· ≠ ascii '+')).reverse
  let subtype := token.take (token.length - suffix.length - 1)
  if subtype = [] then (token, none) else (subtype, some suffix)

/-- The media type of a text. -/
def parse? (text : Bytes) : Option MediaType :=
  let kind := text.takeWhile isTokenByte
  match text.dropWhile isTokenByte with
  | [] => none
  | slash :: rest =>
    let (subtype, suffix) := splitSuffix (rest.takeWhile isTokenByte)
    let mediaType := ⟨kind, subtype, suffix⟩
    if kind = [] ∨ slash ≠ ascii '/' then none
    else
      match rest.dropWhile isTokenByte with
      | [] => some mediaType
      | mark :: parameters =>
        if subtype ≠ [] ∧ mark = ascii ';' ∧ areParameters parameters then some mediaType else none

/-- Whether a media type announces JSON: it is `application/json`, or an application type with the
suffix `json`. The case of letters does not count. -/
def isJson (mediaType : MediaType) : Bool :=
  let json := bytesOf "json"
  alike mediaType.kind (bytesOf "application") &&
    (alike mediaType.subtype json || mediaType.suffix.any (alike · json))

end MediaType

end Recommender.Http
