import Recommender.Text

/-!
# Reading JSON

JSON texts are read from left to right, as bytes, by readers for what is expected; the first fault
decides. This file holds the faults and the small readers that all others are made of.

* `Reader` : a reader of the front of a text.
* `token` : the first byte after blanks, which is what decides how to go on.
* `moreElements`, `moreMembers` : whether a list or an object goes on.
-/

namespace Recommender.Json

open Text

/-- Why a text is not what is expected. -/
inductive Fault
  /-- The text is not JSON. -/
  | malformed
  /-- The text is JSON so far, of something else than expected. -/
  | mismatched
  /-- The text ends early. -/
  | truncated
deriving DecidableEq

/-- A reader of the front of a text. -/
abbrev Reader (β : Type) := StateT Bytes (Except Fault) β

/-- Whether a byte may stand between tokens. -/
def isBlank (b : UInt8) : Bool :=
  b = ascii ' ' || b = ascii '\n' || b = ascii '\t' || b = ascii '\r'

/-- The next byte, which stays in front. -/
def peek? : Reader (Option UInt8) := do
  return (← get).head?

/-- Takes the next byte off. -/
def advance : Reader Unit :=
  modify List.tail

/-- Takes blanks off. -/
def blanks : Reader Unit :=
  modify (·.dropWhile isBlank)

/-- Takes blanks off and tells the next byte, which must exist and stays in front. -/
def token : Reader UInt8 := do
  blanks
  match ← peek? with
  | some b => pure b
  | none => throw .truncated

/-- Takes a given byte off, after blanks. -/
def mark (c : Char) : Reader Unit := do
  if (← token) = ascii c then advance else throw .malformed

/-- Takes a run of given bytes off. -/
def word : Bytes → Reader Unit
  | [] => pure ()
  | expected :: others => do
    match ← peek? with
    | none => throw .truncated
    | some b => if b = expected then do advance; word others else throw .malformed

/-- Takes digits off. -/
def digits : Reader Bytes := do
  let ds := (← get).takeWhile isDigit
  modify (·.dropWhile isDigit)
  pure ds

/-- Whether a list has another element. If so, its first byte stands in front, after the comma that
parts it from an element before; if not, the bracket that ends the list does. -/
def moreElements (first : Bool) : Reader Bool := do
  let b ← token
  if b = ascii ']' then pure false
  else if first then pure true
  else if b = ascii ',' then do
    advance
    if (← token) = ascii ']' then throw .malformed else pure true
  else throw .malformed

/-- Whether an object has another member. If so, the quote that opens its name stands in front,
after the comma that parts it from a member before; if not, the brace that ends the object does. -/
def moreMembers (first : Bool) : Reader Bool := do
  let b ← token
  if b = ascii '}' then pure false
  else do
    if !first then
      if b = ascii ',' then advance else throw .malformed
    if (← token) = ascii '"' then pure true else throw .malformed

/-- Reads with as much fuel as the text is long. A loop that takes a byte off in every round never
runs out of it. -/
def fuelled {β : Type} (loop : Nat → Reader β) : Reader β := do
  loop ((← get).length + 1)

end Recommender.Json
