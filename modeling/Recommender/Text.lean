/-!
# Texts and bytes

What comes from outside is a run of bytes, of which only some are texts. Numbers are written in
texts by decimal digits, an integer by at least one, with a sign in front or none.

* `bytesOf`, `textOf?` : the bytes of a text, and the text of bytes.
* `hexDigit`, `hexValue?` : hexadecimal digits.
* `parts` : the parts of a run between separators; `parts_append` : the first of them.
* `trim` : a text without the blanks at its ends.
* `Digits.value` : the number that decimal digits denote.
* `integer?`, `int64?` : the integer of a text, and whether 64 bits hold it.
-/

namespace Recommender

namespace Text

/-- Raw bytes. -/
abbrev Bytes := List UInt8

/-- The byte of an ASCII character. -/
def ascii (c : Char) : UInt8 :=
  UInt8.ofNat c.toNat

/-- The bytes of a text. -/
def bytesOf (text : String) : Bytes :=
  text.toByteArray.data.toList

/-- The text of bytes, if they are valid. -/
def textOf? (bytes : Bytes) : Option String :=
  String.fromUTF8? ⟨bytes.toArray⟩

theorem bytesOf_eq (text : String) : bytesOf text = text.toList.flatMap String.utf8EncodeChar := by
  rw [bytesOf, ← String.utf8Encode_toList, List.utf8Encode]
  simp

theorem bytesOf_of_textOf? {bytes : Bytes} {text : String} (h : textOf? bytes = some text) :
    bytesOf text = bytes := by
  rw [textOf?, String.fromUTF8?, Option.dite_none_right_eq_some] at h
  obtain ⟨hvalid, h⟩ := h
  cases h
  rfl

/-- The bytes of a text are those of the text. -/
theorem textOf?_bytesOf (text : String) : textOf? (bytesOf text) = some text := by
  rw [textOf?, String.fromUTF8?, bytesOf]
  exact dif_pos text.isValidUTF8

/-- A character of ASCII has one byte. -/
theorem utf8EncodeChar_of_lt {c : Char} (h : c.toNat < 128) :
    String.utf8EncodeChar c = [ascii c] := by
  have hsize : c.utf8Size = 1 := by
    rw [Char.utf8Size_eq_one_iff, UInt32.le_iff_toNat_le]
    exact Nat.le_of_lt_succ h
  rw [String.utf8EncodeChar_eq_singleton hsize]
  rfl

/-! ### Digits -/

/-- Whether a byte is a decimal digit. -/
def isDigit (b : UInt8) : Bool :=
  ascii '0' ≤ b && b ≤ ascii '9'

/-- The hexadecimal digit of a number below 16. -/
def hexDigit (n : Nat) : UInt8 :=
  UInt8.ofNat (if n < 10 then n + '0'.toNat else n - 10 + 'a'.toNat)

/-- The value of a hexadecimal digit, whose letter may be small or capital. -/
def hexValue? (b : UInt8) : Option Nat :=
  let n := b.toNat
  if isDigit b then some (n - '0'.toNat)
  else if ascii 'a' ≤ b && b ≤ ascii 'f' then some (n - 'a'.toNat + 10)
  else if ascii 'A' ≤ b && b ≤ ascii 'F' then some (n - 'A'.toNat + 10)
  else none

/-! ### Letters -/

/-- The byte with a capital letter made small. -/
def lower (b : UInt8) : UInt8 :=
  if ascii 'A' ≤ b && b ≤ ascii 'Z' then b + 32 else b

/-- Whether a byte is a letter, small or capital. -/
def isLetter (b : UInt8) : Bool :=
  ascii 'a' ≤ lower b && lower b ≤ ascii 'z'

/-- Whether two runs are equal but for the case of letters. -/
def alike (a b : Bytes) : Bool :=
  a.map lower = b.map lower

/-! ### Parts -/

/-- The part before the first separator, and all parts after it. -/
def firstPart (separator : UInt8) : Bytes → Bytes × List Bytes
  | [] => ([], [])
  | b :: rest =>
    let (part, others) := firstPart separator rest
    if b = separator then ([], part :: others) else (b :: part, others)

/-- The parts of a run between separators: one more than there are separators. -/
def parts (separator : UInt8) (bytes : Bytes) : List Bytes :=
  let (part, others) := firstPart separator bytes
  part :: others

theorem firstPart_of_not_mem {separator : UInt8} {part : Bytes} (h : separator ∉ part) :
    firstPart separator part = (part, []) := by
  induction part with
  | nil => rfl
  | cons b part ih =>
    rw [List.mem_cons, not_or] at h
    simp [firstPart, ih h.2, Ne.symm h.1]

theorem firstPart_append {separator : UInt8} {part : Bytes} (h : separator ∉ part) (rest : Bytes) :
    firstPart separator (part ++ separator :: rest) = (part, parts separator rest) := by
  induction part with
  | nil => simp [firstPart, parts]
  | cons b part ih =>
    rw [List.mem_cons, not_or] at h
    simp [firstPart, ih h.2, Ne.symm h.1]

theorem parts_of_not_mem {separator : UInt8} {part : Bytes} (h : separator ∉ part) :
    parts separator part = [part] := by
  simp [parts, firstPart_of_not_mem h]

/-- What stands before the first separator is the first part. -/
theorem parts_append {separator : UInt8} {part : Bytes} (h : separator ∉ part) (rest : Bytes) :
    parts separator (part ++ separator :: rest) = part :: parts separator rest := by
  simp [parts, firstPart_append h]

/-! ### Blank characters -/

/-- The ranges of the White_Space characters. -/
def blankRanges : List (Nat × Nat) :=
  [(0x9, 0xD), (0x20, 0x20), (0x85, 0x85), (0xA0, 0xA0), (0x1680, 0x1680), (0x2000, 0x200A),
   (0x2028, 0x2029), (0x202F, 0x202F), (0x205F, 0x205F), (0x3000, 0x3000)]

/-- Whether a character is white space. -/
def isBlank (c : Char) : Bool :=
  blankRanges.any fun r => r.1 ≤ c.toNat && c.toNat ≤ r.2

/-- A text without the blanks at its two ends. -/
def trim (cs : List Char) : List Char :=
  ((cs.dropWhile isBlank).reverse.dropWhile isBlank).reverse

end Text

/-! ### Decimal digits -/

namespace Digits

/-- The number that a run of digits denotes. -/
def value (ds : List Char) : Nat :=
  Nat.ofDigitChars 10 ds 0

/-- The digits of a number, with zeros in front if they are fewer than `width`. -/
def padded (width n : Nat) : List Char :=
  (Nat.toDigits 10 n).leftpad width '0'

end Digits

/-! ### Integers -/

namespace Text

/-- The number of a text of digits. -/
def natural? (ds : List Char) : Option Nat :=
  if ds ≠ [] ∧ ds.all Char.isDigit then some (Digits.value ds) else none

/-- The integer of a text. -/
def integer? : List Char → Option Int
  | '-' :: ds => (natural? ds).map fun n => -(n : Int)
  | '+' :: ds => (natural? ds).map fun n => (n : Int)
  | ds => (natural? ds).map fun n => (n : Int)

/-- The integer of a text, if 64 bits hold it. -/
def int64? (cs : List Char) : Option Int64 := do
  let n ← integer? cs
  if Int64.minValue.toInt ≤ n ∧ n ≤ Int64.maxValue.toInt then some (Int64.ofInt n) else none

theorem natural?_eq_none {ds : List Char} {c : Char} (hc : c ∈ ds) (h : ¬ c.isDigit) :
    natural? ds = none := by
  refine if_neg ?_
  rintro ⟨-, hall⟩
  exact h (List.all_eq_true.1 hall c hc)

/-- What is neither a digit nor a sign does not stand in an integer. -/
theorem integer?_eq_none {cs : List Char} {c : Char} (hc : c ∈ cs) (hdigit : ¬ c.isDigit)
    (hplus : c ≠ '+') (hminus : c ≠ '-') : integer? cs = none := by
  unfold integer?
  split
  · rw [natural?_eq_none ((List.mem_cons.1 hc).resolve_left hminus) hdigit]
    rfl
  · rw [natural?_eq_none ((List.mem_cons.1 hc).resolve_left hplus) hdigit]
    rfl
  · rw [natural?_eq_none hc hdigit]
    rfl

end Text

end Recommender
