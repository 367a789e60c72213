import Recommender.Json.Numeral
import Recommender.Json.Quoted
import Mathlib.Data.List.Forall2

/-!
# The grammar of JSON

A JSON text spells a `Tree`. Its layout is no part of the tree: blanks may stand between any two
tokens, a byte of a string may be escaped by a letter, and an exponent may have a small or a capital
mark. The grammar is stated apart from all readers, which accept more in some places and understand
less in others.

* `Numeral.Spells`, `Piece.Spells`, `Tree.Spells` : the texts of numbers, of the pieces of strings
  and of whole trees.
* `Tree.LaidOut` : whole texts, with blanks around a tree.
* `Tree.Opens` : the bytes that a text of a tree may start with.
-/

namespace Recommender.Json

open Text

/-- Bytes that may stand between tokens. -/
def Blank (gap : Bytes) : Prop :=
  ∀ b ∈ gap, isBlank b

/-! ### Numbers -/

/-- Digits, at least one. -/
def AreDigits (ds : Bytes) : Prop :=
  ds ≠ [] ∧ ∀ d ∈ ds, isDigit d

namespace Numeral

/-- The texts of a fraction. -/
inductive SpellsFraction : Option Bytes → Bytes → Prop
  /-- There is none. -/
  | none : SpellsFraction none []
  /-- Digits after a point. -/
  | some {ds : Bytes} : AreDigits ds → SpellsFraction (some ds) (ascii '.' :: ds)

/-- The texts of an exponent. -/
inductive SpellsExponent : Option (Bool × Bytes) → Bytes → Prop
  /-- There is none. -/
  | none : SpellsExponent none []
  /-- Digits after a mark. -/
  | bare {mark : UInt8} {ds : Bytes} : mark = ascii 'e' ∨ mark = ascii 'E' → AreDigits ds →
    SpellsExponent (some (false, ds)) (mark :: ds)
  /-- Digits after a mark and a plus sign. -/
  | plus {mark : UInt8} {ds : Bytes} : mark = ascii 'e' ∨ mark = ascii 'E' → AreDigits ds →
    SpellsExponent (some (false, ds)) (mark :: ascii '+' :: ds)
  /-- Digits after a mark and a minus sign. -/
  | minus {mark : UInt8} {ds : Bytes} : mark = ascii 'e' ∨ mark = ascii 'E' → AreDigits ds →
    SpellsExponent (some (true, ds)) (mark :: ascii '-' :: ds)

/-- The minus sign of a number, if it has one. -/
def sign (negative : Bool) : Bytes :=
  if negative then [ascii '-'] else []

/-- The texts of a number. The digits before the point start with a zero only if there is no other
digit. -/
inductive Spells : Numeral → Bytes → Prop
  /-- The parts stand one after the other. -/
  | mk {negative : Bool} {whole : Bytes} {fraction : Option Bytes}
    {exponent : Option (Bool × Bytes)} {point power : Bytes} :
    AreDigits whole → (whole.head? = some (ascii '0') → whole.length = 1) →
    SpellsFraction fraction point → SpellsExponent exponent power →
    Spells ⟨negative, whole, fraction, exponent⟩ (sign negative ++ whole ++ point ++ power)

end Numeral

/-! ### Strings -/

/-- A piece of a string. -/
inductive Piece
  /-- A byte. -/
  | byte (b : UInt8)
  /-- A UTF-16 unit, told by its number. -/
  | unit (n : Nat)
deriving DecidableEq

/-- The texts of a piece of a string. -/
inductive Piece.Spells : Piece → Bytes → Prop
  /-- A byte may stand for itself unless it ends the string, escapes or controls. -/
  | plain {b : UInt8} : ¬ b < 32 → b ≠ ascii '"' → b ≠ ascii '\\' → Spells (byte b) [b]
  /-- Some bytes have a letter. -/
  | escaped {b letter : UInt8} : unescape? letter = some b →
    Spells (byte b) [ascii '\\', letter]
  /-- A unit has four digits. -/
  | unit {n : Nat} {a b c d : UInt8} : unit? a b c d = some n →
    Spells (unit n) [ascii '\\', ascii 'u', a, b, c, d]

/-- What stands between the quotes of a string. -/
inductive Piece.SpellAll : List Piece → Bytes → Prop
  /-- Nothing. -/
  | nil : SpellAll [] []
  /-- The text of a piece before those of others. -/
  | cons {p : Piece} {ps : List Piece} {text others : Bytes} : p.Spells text → SpellAll ps others →
    SpellAll (p :: ps) (text ++ others)

/-! ### Trees -/

/-- What a JSON text consists of. -/
inductive Tree
  /-- The word `null`. -/
  | null
  /-- One of the words `true` and `false`. -/
  | bool (value : Bool)
  /-- A number. -/
  | number (numeral : Numeral)
  /-- A string. -/
  | string (pieces : List Piece)
  /-- An array. -/
  | array (elements : List Tree)
  /-- An object. -/
  | object (members : List (List Piece × Tree))

/-- The comma before an item, which the first one does not have. -/
def comma (first : Bool) : Bytes :=
  if first then [] else [ascii ',']

/-- What stands between two brackets, or between an item and the bracket after it: items with commas
between them. -/
inductive Separated {β : Type} (Spells : β → Bytes → Prop) : (first : Bool) → List β → Bytes → Prop
  /-- No item, or no further one. -/
  | nil {first : Bool} {gap : Bytes} : Blank gap → Separated Spells first [] gap
  /-- An item, and the items after it. -/
  | cons {first : Bool} {item : β} {items : List β} {gap gap' text others : Bytes} : Blank gap →
    Blank gap' → Spells item text → Separated Spells false items others →
    Separated Spells first (item :: items) (gap ++ comma first ++ gap' ++ text ++ others)

/-- The texts of a member of an object, for given texts of its value. -/
inductive SpellsMember (Spells : Tree → Bytes → Prop) : List Piece × Tree → Bytes → Prop
  /-- A name in quotes, a colon and a value. -/
  | mk {pieces : List Piece} {t : Tree} {name gap gap' text : Bytes} : Piece.SpellAll pieces name →
    Blank gap → Blank gap' → Spells t text →
    SpellsMember Spells (pieces, t)
      (ascii '"' :: name ++ ascii '"' :: gap ++ ascii ':' :: gap' ++ text)

/-- The texts of a tree, without blanks around them. -/
inductive Tree.Spells : Tree → Bytes → Prop
  /-- A word. -/
  | null : Spells null (bytesOf "null")
  /-- A word. -/
  | yes : Spells (bool true) (bytesOf "true")
  /-- A word. -/
  | no : Spells (bool false) (bytesOf "false")
  /-- A number. -/
  | number {numeral : Numeral} {text : Bytes} : numeral.Spells text → Spells (number numeral) text
  /-- Pieces between quotes. -/
  | string {pieces : List Piece} {text : Bytes} : Piece.SpellAll pieces text →
    Spells (string pieces) (ascii '"' :: text ++ [ascii '"'])
  /-- Elements between brackets. -/
  | array {elements : List Tree} {text : Bytes} : Separated Spells true elements text →
    Spells (array elements) (ascii '[' :: text ++ [ascii ']'])
  /-- Members between braces. -/
  | object {members : List (List Piece × Tree)} {text : Bytes} :
    Separated (SpellsMember Spells) true members text →
    Spells (object members) (ascii '{' :: text ++ [ascii '}'])

/-- The texts of a tree, with blanks around them. -/
inductive Tree.LaidOut (t : Tree) : Bytes → Prop
  /-- Blanks before a text and after it. -/
  | mk {gap gap' text : Bytes} : Blank gap → t.Spells text → Blank gap' →
    LaidOut t (gap ++ text ++ gap')

theorem Tree.Spells.laidOut {t : Tree} {text : Bytes} (h : t.Spells text) : t.LaidOut text := by
  have hblank : Blank [] := List.forall_mem_nil _
  have hlaidOut := Tree.LaidOut.mk hblank h hblank
  rwa [List.nil_append, List.append_nil] at hlaidOut

/-- The bytes that a text of a tree may start with. -/
def Tree.Opens : Tree → UInt8 → Prop
  | null, b => b = ascii 'n'
  | bool true, b => b = ascii 't'
  | bool false, b => b = ascii 'f'
  | number _, b => b = ascii '-' || isDigit b
  | string _, b => b = ascii '"'
  | array _, b => b = ascii '['
  | object _, b => b = ascii '{'

/-- A text of a tree tells by its first byte what the tree is. -/
theorem Tree.Spells.opens {t : Tree} {text : Bytes} (h : t.Spells text) :
    ∃ b rest, text = b :: rest ∧ t.Opens b := by
  cases h with
  | null | yes | no => exact ⟨_, _, rfl, rfl⟩
  | string | array | object => exact ⟨_, _, List.cons_append, rfl⟩
  | number h =>
    obtain @⟨negative, whole, _, _, _, _, hwhole⟩ := h
    cases negative with
    | true => exact ⟨_, _, rfl, rfl⟩
    | false =>
      cases whole with
      | nil => exact absurd rfl hwhole.1
      | cons d ds => exact ⟨d, _, rfl, by simp [Opens, hwhole.2 d List.mem_cons_self]⟩

theorem Tree.Spells.length_pos {t : Tree} {text : Bytes} (h : t.Spells text) : 0 < text.length := by
  obtain ⟨b, rest, rfl, -⟩ := h.opens
  exact Nat.succ_pos _

/-- A member starts with the quote of its name. -/
theorem SpellsMember.opens {Spells : Tree → Bytes → Prop} {member : List Piece × Tree}
    {text : Bytes} (h : SpellsMember Spells member text) : ∃ rest, text = ascii '"' :: rest := by
  cases h
  exact ⟨_, by simp only [List.cons_append]; rfl⟩

/-- What does not stand in front of a number is not its first byte. -/
theorem ne_of_opens_number {b other : UInt8} (h : b = ascii '-' || isDigit b)
    (hother : (other = ascii '-' || isDigit other) = false) : b ≠ other := by
  rintro rfl
  exact Bool.false_ne_true (hother.symm.trans h)

theorem isBlank_of_opens_number {b : UInt8} (h : b = ascii '-' || isDigit b) :
    isBlank b = false := by
  rw [← Bool.not_eq_true]
  intro hblank
  simp only [isBlank, Bool.or_eq_true, decide_eq_true_eq] at hblank
  rcases hblank with ((rfl | rfl) | rfl) | rfl <;> exact absurd h (by decide)

/-- No tree starts with a blank or with a byte that ends or parts trees. -/
theorem Tree.Opens.ne {t : Tree} {b : UInt8} (h : t.Opens b) :
    isBlank b = false ∧ b ≠ ascii ']' ∧ b ≠ ascii '}' ∧ b ≠ ascii ',' := by
  match t, h with
  | null, rfl | bool true, rfl | bool false, rfl | string _, rfl | array _, rfl | object _, rfl =>
    decide
  | number _, h =>
    have hne (other : UInt8) : (other = ascii '-' || isDigit other) = false → b ≠ other :=
      ne_of_opens_number h
    exact ⟨isBlank_of_opens_number h, hne _ rfl, hne _ rfl, hne _ rfl⟩

end Recommender.Json
