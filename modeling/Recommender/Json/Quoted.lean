import Recommender.Json.Reader

/-!
# Strings of JSON

A string stands in quotes; a backslash escapes a quote, a backslash, a control character or the
number of a UTF-16 unit.

* `quote` : the string of a text.
* `unquote` : the bytes of a string, after its opening quote.
* `quotedText` : the text of a string.
* `ignoreQuoted` : passes over a string whose text is of no interest.
-/

namespace Recommender.Json

open Text

/-! ### Writing -/

/-- The spelling of a byte in a string. -/
def escape (b : UInt8) : Bytes :=
  if b = ascii '"' then [ascii '\\', ascii '"']
  else if b = ascii '\\' then [ascii '\\', ascii '\\']
  else if b = 8 then [ascii '\\', ascii 'b']
  else if b = 9 then [ascii '\\', ascii 't']
  else if b = 10 then [ascii '\\', ascii 'n']
  else if b = 12 then [ascii '\\', ascii 'f']
  else if b = 13 then [ascii '\\', ascii 'r']
  else if b < 32 then
    [ascii '\\', ascii 'u', ascii '0', ascii '0', hexDigit (b.toNat / 16), hexDigit (b.toNat % 16)]
  else [b]

/-- The string of a text. -/
def quote (text : String) : Bytes :=
  ascii '"' :: (bytesOf text).flatMap escape ++ [ascii '"']

/-! ### Reading -/

/-- The UTF-16 unit of four hexadecimal digits. -/
def unit? (a b c d : UInt8) : Option Nat := do
  return (((← hexValue? a) * 16 + (← hexValue? b)) * 16 + (← hexValue? c)) * 16 + (← hexValue? d)

/-- The byte that a letter after a backslash stands for. -/
def unescape? (b : UInt8) : Option UInt8 :=
  if b = ascii '"' ∨ b = ascii '\\' ∨ b = ascii '/' then some b
  else if b = ascii 'b' then some 8
  else if b = ascii 'f' then some 12
  else if b = ascii 'n' then some 10
  else if b = ascii 'r' then some 13
  else if b = ascii 't' then some 9
  else none

/-- Puts bytes in front of what a reading gives. -/
def prepend (bytes : Bytes) (reading : Except Fault (Bytes × Bytes)) :
    Except Fault (Bytes × Bytes) :=
  reading.map fun r => (bytes ++ r.1, r.2)

/-- The bytes of a character. -/
def encodeUnit (n : Nat) : Bytes :=
  String.utf8EncodeChar (Char.ofNat n)

/-- The bytes of a string, up to the quote that ends it, and what follows that quote. A unit of the
first half of a surrogate pair must be followed by one of the second half, which never stands
alone. -/
def unquote : Bytes → Except Fault (Bytes × Bytes)
  | [] => .error .truncated
  | b :: rest =>
    if b = ascii '"' then .ok ([], rest)
    else if b < 32 then .error .malformed
    else if b ≠ ascii '\\' then prepend [b] (unquote rest)
    else
      match rest with
      | [] => .error .truncated
      | e :: rest =>
        if e ≠ ascii 'u' then
          match unescape? e with
          | some c => prepend [c] (unquote rest)
          | none => .error .malformed
        else
          match rest with
          | a :: b :: c :: d :: rest =>
            match unit? a b c d with
            | none => .error .malformed
            | some n =>
              if 0xDC00 ≤ n ∧ n ≤ 0xDFFF then .error .malformed
              else if n < 0xD800 ∨ 0xDBFF < n then prepend (encodeUnit n) (unquote rest)
              else
                match rest with
                | [] => .error .truncated
                | [b] => if b = ascii '\\' then .error .truncated else .error .malformed
                | b :: u :: rest =>
                  if b ≠ ascii '\\' ∨ u ≠ ascii 'u' then .error .malformed
                  else
                    match rest with
                    | a :: b :: c :: d :: rest =>
                      match unit? a b c d with
                      | none => .error .malformed
                      | some m =>
                        if 0xDC00 ≤ m ∧ m ≤ 0xDFFF then
                          prepend (encodeUnit (0x10000 + (n - 0xD800) * 0x400 + (m - 0xDC00)))
                            (unquote rest)
                        else .error .malformed
                    | _ => .error .truncated
          | _ => .error .truncated

/-- Reads a string, after its opening quote, as a text. -/
def quotedText : Reader String := fun input =>
  match unquote input with
  | .error fault => .error fault
  | .ok (bytes, rest) =>
    match textOf? bytes with
    | some text => .ok (text, rest)
    | none => .error .malformed

/-- Passes over a string, after its opening quote. Its bytes need not form a text, nor its units
pairs. -/
def passQuoted : Bytes → Except Fault Bytes
  | [] => .error .truncated
  | b :: rest =>
    if b = ascii '"' then .ok rest
    else if b < 32 then .error .malformed
    else if b ≠ ascii '\\' then passQuoted rest
    else
      match rest with
      | [] => .error .truncated
      | e :: rest =>
        if e ≠ ascii 'u' then
          match unescape? e with
          | some _ => passQuoted rest
          | none => .error .malformed
        else
          match rest with
          | a :: b :: c :: d :: rest =>
            match unit? a b c d with
            | none => .error .malformed
            | some _ => passQuoted rest
          | _ => .error .truncated

@[inherit_doc passQuoted]
def ignoreQuoted : Reader Unit := fun input =>
  (passQuoted input).map fun rest => ((), rest)

end Recommender.Json
