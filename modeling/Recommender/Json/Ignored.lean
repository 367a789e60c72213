import Recommender.Json.Quoted
import Recommender.Json.Numeral

/-!
# Values of no interest

The value of a member that nobody asked for is passed over. It must be JSON, of any depth, but no
text and no number in it is understood.

* `ignoreValue` : passes over a value.
-/

namespace Recommender.Json

open Text

mutual

/-- Passes over a value. -/
def passValue : (fuel : Nat) → Reader Unit
  | 0 => throw .truncated
  | fuel + 1 => do
    let b ← token
    if b = ascii 'n' then word (bytesOf "null")
    else if b = ascii 't' then word (bytesOf "true")
    else if b = ascii 'f' then word (bytesOf "false")
    else if b = ascii '-' || isDigit b then Numeral.ignore
    else if b = ascii '"' then do advance; ignoreQuoted
    else if b = ascii '[' then do advance; passElements fuel true
    else if b = ascii '{' then do advance; passMembers fuel true
    else throw .malformed

/-- Passes over elements and the bracket after them. -/
def passElements : (fuel : Nat) → (first : Bool) → Reader Unit
  | 0, _ => throw .truncated
  | fuel + 1, first => do
    if ← moreElements first then do
      passValue fuel
      passElements fuel false
    else advance

/-- Passes over members and the brace after them. -/
def passMembers : (fuel : Nat) → (first : Bool) → Reader Unit
  | 0, _ => throw .truncated
  | fuel + 1, first => do
    if ← moreMembers first then do
      advance
      ignoreQuoted
      mark ':'
      passValue fuel
      passMembers fuel false
    else advance

end

/-- Passes over a value. -/
def ignoreValue : Reader Unit :=
  fuelled fun fuel => passValue (2 * fuel)

end Recommender.Json
