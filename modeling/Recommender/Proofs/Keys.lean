import Recommender.Proofs.Meaning
import Recommender.Proofs.Integers

/-!
# Names of tables

The names of a table are identifiers. A name is read if and only if it is written as the identifier
is.

* `Piece.key?_eq_some_iff` : which names are identifiers.
-/

namespace Recommender.Json

open Text

namespace Piece

theorem bytes?_map_byte (bytes : Bytes) : bytes? (bytes.map byte) = some bytes := by
  induction bytes with
  | nil => rfl
  | cons b bytes ih => simp [bytes?, ih]

/-- A name is an identifier if it is written as the identifier is. -/
theorem key?_eq_some_iff {pieces : List Piece} {key : Int64} :
    key? pieces = some key ↔ pieces = (encodeInt key.toInt).map byte := by
  rw [key?, Option.filter_eq_some_iff, decide_eq_true_eq]
  refine and_iff_right_of_imp ?_
  rintro rfl
  rw [bytes?_map_byte, Option.bind_some, encodeInt, textOf?_bytesOf, Option.bind_some,
    int64?_toString]

/-- A piece is spelled by its byte, which ends no string, or starts with a backslash. -/
theorem Spells.cases {p : Piece} {text : Bytes} (h : p.Spells text) :
    (∃ b, p = byte b ∧ text = [b] ∧ b ≠ ascii '"') ∨ ∃ rest, text = ascii '\\' :: rest := by
  cases h with
  | plain _ hquote => exact .inl ⟨_, rfl, rfl, hquote⟩
  | escaped | unit => exact .inr ⟨_, rfl⟩

/-- Bytes that neither end a string nor escape stand for themselves only. -/
theorem eq_of_spellAll {bytes : Bytes} (hbytes : ∀ b ∈ bytes, b ≠ ascii '"' ∧ b ≠ ascii '\\')
    {pieces : List Piece} {text rest rest' : Bytes} (h : SpellAll pieces text)
    (heq : text ++ ascii '"' :: rest = bytes ++ ascii '"' :: rest') :
    pieces = bytes.map byte ∧ rest = rest' := by
  have hescape : ascii '\\' ≠ ascii '"' := by decide
  induction bytes generalizing pieces text with
  | nil =>
    cases h with
    | nil => exact ⟨rfl, (List.cons.inj heq).2⟩
    | cons hpiece =>
      rcases hpiece.cases with ⟨b, -, rfl, hquote⟩ | ⟨_, rfl⟩
      · exact absurd (List.cons.inj heq).1 hquote
      · exact absurd (List.cons.inj heq).1 hescape
  | cons b bytes ih =>
    rw [List.forall_mem_cons] at hbytes
    cases h with
    | nil => exact absurd (List.cons.inj heq).1.symm hbytes.1.1
    | cons hpiece hpieces =>
      rcases hpiece.cases with ⟨b', rfl, rfl, -⟩ | ⟨_, rfl⟩
      · obtain ⟨rfl, htail⟩ := List.cons.inj heq
        obtain ⟨rfl, hrest⟩ := ih hbytes.2 hpieces htail
        exact ⟨rfl, hrest⟩
      · exact absurd (List.cons.inj heq).1.symm hbytes.1.2

/-- Digits and signs have no letter. -/
theorem not_escaped {letter b : UInt8} (h : unescape? letter = some b) :
    isDigit b = false ∧ b ≠ ascii '-' := by
  rw [unescape?] at h
  split_ifs at h with hself
  · cases h
    rcases hself with rfl | rfl | rfl <;> decide
  all_goals
    cases h
    decide

/-- Digits and signs are spelled by themselves only. -/
theorem eq_of_spellAll_map_byte {bytes text : Bytes} (h : SpellAll (bytes.map byte) text)
    (hbytes : ∀ b ∈ bytes, isDigit b ∨ b = ascii '-') : text = bytes := by
  induction bytes generalizing text with
  | nil =>
    cases h
    rfl
  | cons b bytes ih =>
    rw [List.forall_mem_cons] at hbytes
    obtain _ | ⟨hpiece, hpieces⟩ := h
    rw [ih hpieces hbytes.2]
    cases hpiece with
    | plain => rfl
    | escaped hletter =>
      obtain ⟨hdigit, hminus⟩ := not_escaped hletter
      rcases hbytes.1 with h | h
      · exact absurd (hdigit.symm.trans h) Bool.false_ne_true
      · exact absurd h hminus

end Piece

theorem mem_encodeInt {n : Int} {b : UInt8} (h : b ∈ encodeInt n) : isDigit b ∨ b = ascii '-' := by
  rw [encodeInt_eq, List.mem_append] at h
  rcases h with h | h
  · right
    rw [Numeral.sign] at h
    split at h
    · exact List.mem_singleton.1 h
    · cases h
  · exact .inl ((Numeral.areDigits_toDigits _).2 b h)

/-- Digits and signs neither end a string nor escape nor control. -/
theorem plain_of_mem_encodeInt {n : Int} {b : UInt8} (h : b ∈ encodeInt n) :
    ¬ b < 32 ∧ b ≠ ascii '"' ∧ b ≠ ascii '\\' := by
  rcases mem_encodeInt h with h | rfl
  · obtain ⟨hlow, hhigh⟩ := isDigit_iff.1 h
    refine ⟨?_, ?_, ?_⟩
    · rw [UInt8.lt_iff_toNat_lt]
      exact Nat.not_lt.2 (Nat.le_trans (by decide) hlow)
    · rintro rfl
      exact absurd hlow (by decide)
    · rintro rfl
      exact absurd hhigh (by decide)
  · decide

end Recommender.Json
