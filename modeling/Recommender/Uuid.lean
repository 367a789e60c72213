import Recommender.Text

/-!
# UUIDs

A `Uuid` is a number of 128 bits. It has one spelling in which it is written and several in which it
is read.

* `Uuid.render` : the spelling in which it is written.
* `Uuid.parse?` : the UUID of a spelling.
* `Uuid.version4` : a UUID of chance.
-/

namespace Recommender

open Text

/-- A universally unique identifier. -/
structure Uuid where
  /-- Its bits. -/
  bits : BitVec 128
deriving DecidableEq

namespace Uuid

/-! ### Digits in groups -/

/-- The numbers of digits in the five groups of a UUID. -/
def groupSizes : List Nat := [8, 4, 4, 4, 12]

/-- Digits in groups of the given sizes, with hyphens between the groups. -/
def hyphenate : (sizes : List Nat) → Bytes → Bytes
  | [], _ => []
  | [size], digits => digits.take size
  | size :: sizes, digits =>
    digits.take size ++ ascii '-' :: hyphenate sizes (digits.drop size)

/-- The digits of groups of the given sizes. -/
def unhyphenate? : (sizes : List Nat) → Bytes → Option Bytes
  | [], text => if text = [] then some [] else none
  | [size], text => if text.length = size then some text else none
  | size :: sizes, text =>
    match text.drop size with
    | [] => none
    | mark :: rest =>
      if mark = ascii '-' then (unhyphenate? sizes rest).map (text.take size ++ ·) else none

theorem unhyphenate?_hyphenate {sizes : List Nat} {digits : Bytes} (hs : sizes ≠ [])
    (h : digits.length = sizes.foldr (· + ·) 0) :
    unhyphenate? sizes (hyphenate sizes digits) = some digits := by
  fun_induction hyphenate sizes digits with
  | case1 => exact absurd rfl hs
  | case2 size digits =>
    have h : digits.length = size := by simpa using h
    simp [unhyphenate?, ← h]
  | case3 size sizes digits hne ih =>
    have hlen : size ≤ digits.length := by simp only [List.foldr_cons] at h; omega
    have hrest : (digits.drop size).length = sizes.foldr (· + ·) 0 := by
      simp only [List.foldr_cons] at h
      simp only [List.length_drop]
      omega
    have htaken : (digits.take size).length = size := by simpa using Nat.min_eq_left hlen
    have hdrop : (digits.take size ++ ascii '-' :: hyphenate sizes (digits.drop size)).drop size
        = ascii '-' :: hyphenate sizes (digits.drop size) := List.drop_left' htaken
    have htake : (digits.take size ++ ascii '-' :: hyphenate sizes (digits.drop size)).take size
        = digits.take size := List.take_left' htaken
    have := ih (by simpa using hne) hrest
    rw [unhyphenate?]
    · simp [hdrop, htake, this]
    · exact hne

/-! ### Writing -/

/-- The hexadecimal digits of a number, the last `count` of them. -/
def hexDigits : (count : Nat) → Nat → Bytes
  | 0, _ => []
  | count + 1, n => hexDigits count (n / 16) ++ [hexDigit (n % 16)]

/-- The spelling of a UUID: small digits in groups. -/
def render (id : Uuid) : Bytes :=
  hyphenate groupSizes (hexDigits 32 id.bits.toNat)

/-! ### Reading -/

/-- The number of hexadecimal digits. -/
def hexNumber? (digits : Bytes) : Option Nat :=
  digits.foldlM (fun n d => (hexValue? d).map (16 * n + ·)) 0

/-- The UUID of 32 digits. -/
def ofDigits? (digits : Bytes) : Option Uuid :=
  if digits.length = 32 then (hexNumber? digits).map fun n => ⟨BitVec.ofNat 128 n⟩ else none

/-- The UUID of digits in groups. -/
def ofGroups? (text : Bytes) : Option Uuid :=
  (unhyphenate? groupSizes text).bind ofDigits?

/-- The name that may stand before digits in groups. It is written in small letters and read in
letters of any case. -/
def urn : Bytes := bytesOf "urn:uuid:"

/-- The UUID of digits in groups between braces. -/
def ofBraces? : Bytes → Option Uuid
  | [] => none
  | first :: rest =>
    if first = ascii '\x7b' ∧ rest.getLast? = some (ascii '\x7d') then ofGroups? rest.dropLast
    else none

/-- The UUID of a spelling: digits alone, digits in groups, and the latter in braces or after `urn`,
whose letters may be small or capital like those of the digits. -/
def parse? (text : Bytes) : Option Uuid :=
  ofDigits? text <|> ofGroups? text <|> ofBraces? text <|>
    if alike (text.take urn.length) urn then ofGroups? (text.drop urn.length) else none

/-! ### Chance -/

/-- The version of a UUID. -/
def version (id : Uuid) : Nat :=
  (id.bits.extractLsb' 76 4).toNat

/-- The bits of a UUID that chance decides: all but the four of the version and the two of the
variant. -/
def freeBits : BitVec 128 := 0xffffffffffff0fff3fffffffffffffff#128

/-- The UUID of version 4 whose free bits are those of `chance`. -/
def version4 (chance : BitVec 128) : Uuid :=
  ⟨chance &&& freeBits ||| 0x00000000000040008000000000000000#128⟩

theorem version_version4 (chance : BitVec 128) : (version4 chance).version = 4 := by
  have h : (version4 chance).bits.extractLsb' 76 4 = 4#4 := by
    apply BitVec.eq_of_getLsbD_eq
    intro i hi
    have : i = 0 ∨ i = 1 ∨ i = 2 ∨ i = 3 := by omega
    rcases this with rfl | rfl | rfl | rfl <;> simp [version4, freeBits]
  simp [version, h]

/-- Of the bits that chance decides, none is lost. -/
theorem version4_and_freeBits (chance : BitVec 128) :
    (version4 chance).bits &&& freeBits = chance &&& freeBits := by
  have hfixed : 0x00000000000040008000000000000000#128 &&& freeBits = 0#128 := by decide
  have hfree : freeBits &&& freeBits = freeBits := BitVec.and_self
  rw [version4, BitVec.and_or_distrib_right, hfixed, BitVec.and_assoc, hfree, BitVec.or_zero]

end Uuid

end Recommender
