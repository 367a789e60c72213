import Recommender.Text

/-!
# Targets and routes

A target is a path and a query, in the spelling of the request. What the server knows is told by the
path, which is matched exactly, letter by letter.

* `Target.parse?` : the target of a text.
* `Route.path` : the path of a route.
* `Route.ofPath?` : the route of a path.
* `Route.methods` : the methods of a route.
-/

namespace Recommender.Http

open Text

/-- What a request asks for. -/
structure Target where
  /-- The path, from its first slash on. -/
  path : Bytes
  /-- What follows the first question mark, if there is one. -/
  query : Option Bytes
deriving DecidableEq

namespace Target

/-- The code of the control character "delete". -/
def delete : UInt8 := 0x7f

/-- Whether a byte may stand in a query: no blank, no control character, no quote, no angle bracket
and no number sign, which ends the query. -/
def isQueryByte (b : UInt8) : Bool :=
  ascii ' ' < b && b ≠ delete &&
    !(b = ascii '"' || b = ascii '#' || b = ascii '<' || b = ascii '>')

/-- Whether a byte may stand in a path: as in a query, but a quote and "delete" may and a backquote
may not, and a question mark ends the path. -/
def isPathByte (b : UInt8) : Bool :=
  b = ascii '"' || b = delete || isQueryByte b && b ≠ ascii '?' && b ≠ ascii '`'

/-- The greatest length of a target. -/
def maxLength : Nat := 65534

/-- The target of a text, which starts with a slash; from a number sign on nothing counts. -/
def parse? (text : Bytes) : Option Target :=
  let path := text.takeWhile isPathByte
  let rest := text.dropWhile isPathByte
  if maxLength < text.length ∨ path.head? ≠ some (ascii '/') then none
  else
    match rest with
    | [] => some ⟨path, none⟩
    | mark :: rest =>
      if mark = ascii '#' then some ⟨path, none⟩
      else if mark = ascii '?' then
        let query := rest.takeWhile isQueryByte
        match rest.dropWhile isQueryByte with
        | [] => some ⟨path, some query⟩
        | mark :: _ => if mark = ascii '#' then some ⟨path, some query⟩ else none
      else none

end Target

/-! ### Routes -/

/-- What can be asked for. -/
inductive Route
  /-- Whether the server is well. -/
  | health
  /-- The recommendations for a user, who is named by a part of the path. -/
  | recommendations (user : Bytes)
  /-- The prediction of a rating. -/
  | prediction
deriving DecidableEq

namespace Route

/-- The path of a route. -/
def path : Route → Bytes
  | health => bytesOf "/health"
  | recommendations user => bytesOf "/api/v1/users/" ++ user ++ bytesOf "/recommendations"
  | prediction => bytesOf "/api/v1/ratings/predict"

/-- The routes that a path may belong to. The user is the fifth part between slashes. -/
def candidates (path : Bytes) : List Route :=
  [health, prediction] ++ ((parts (ascii '/') path)[4]?).toList.map recommendations

/-- The route of a path. -/
def ofPath? (path : Bytes) : Option Route :=
  (candidates path).find? (·.path = path)

/-- The methods of a route. -/
def methods : Route → List String
  | health | recommendations _ => ["GET", "HEAD"]
  | prediction => ["POST"]

/-- The methods of a route as the value of a header. -/
def allow (route : Route) : Bytes :=
  bytesOf (",".intercalate route.methods)

end Route

end Recommender.Http
