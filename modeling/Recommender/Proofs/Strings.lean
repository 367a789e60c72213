import Recommender.Proofs.Scanning

/-!
# Reading strings

A string is understood piece by piece, however each piece is spelled. Whatever its pieces, it may be
passed over.

* `toOption_unquote`, `attempt_quotedText` : a string is read as its pieces mean.
* `attempt_ignoreQuoted` : a string is passed over.
-/

namespace Recommender.Json

open Text

theorem toOption_prepend (bytes : Bytes) (reading : Except Fault (Bytes × Bytes)) :
    (prepend bytes reading).toOption = reading.toOption.map fun r => (bytes ++ r.1, r.2) := by
  cases reading <;> rfl

theorem ne_of_unescape? {letter b : UInt8} (h : unescape? letter = some b) :
    letter ≠ ascii 'u' := by
  rintro rfl
  have hnone : unescape? (ascii 'u') = none := by decide
  exact Option.some_ne_none b (h.symm.trans hnone)

section Unquote

variable {b letter a c d e : UInt8} {n m : Nat}

/-- A backslash neither ends a string nor is a control character. -/
theorem backslash_ne : ascii '\\' ≠ ascii '"' ∧ ¬ ascii '\\' < 32 := by decide

theorem unquote_quote (rest : Bytes) : unquote (ascii '"' :: rest) = .ok ([], rest) := by
  rw [unquote.eq_def]
  simp

theorem unquote_plain (hcontrol : ¬ b < 32) (hquote : b ≠ ascii '"') (hslash : b ≠ ascii '\\')
    (rest : Bytes) : unquote (b :: rest) = prepend [b] (unquote rest) := by
  rw [unquote.eq_def]
  simp [hcontrol, hquote, hslash]

theorem unquote_escaped (h : unescape? letter = some b) (rest : Bytes) :
    unquote (ascii '\\' :: letter :: rest) = prepend [b] (unquote rest) := by
  rw [unquote.eq_def]
  simp [backslash_ne, ne_of_unescape? h, h]

theorem unquote_low (h : unit? a b c d = some n) (hlow : 0xDC00 ≤ n ∧ n ≤ 0xDFFF) (rest : Bytes) :
    unquote (ascii '\\' :: ascii 'u' :: a :: b :: c :: d :: rest) = .error .malformed := by
  rw [unquote.eq_def]
  simp [backslash_ne, h, hlow]

theorem unquote_unit (h : unit? a b c d = some n) (hlow : ¬ (0xDC00 ≤ n ∧ n ≤ 0xDFFF))
    (hhigh : n < 0xD800 ∨ 0xDBFF < n) (rest : Bytes) :
    unquote (ascii '\\' :: ascii 'u' :: a :: b :: c :: d :: rest) =
      prepend (encodeUnit n) (unquote rest) := by
  rw [unquote.eq_def]
  simp [backslash_ne, h, hlow, hhigh]

/-- After a unit of the first half of a pair, another piece than a unit is refused. -/
theorem toOption_unquote_unpaired (h : unit? a b c d = some n) (hn : 0xD800 ≤ n ∧ n ≤ 0xDBFF)
    {rest : Bytes} (hrest : ∀ rest', rest ≠ ascii '\\' :: ascii 'u' :: rest') :
    (unquote (ascii '\\' :: ascii 'u' :: a :: b :: c :: d :: rest)).toOption = none := by
  have hlow : ¬ (0xDC00 ≤ n ∧ n ≤ 0xDFFF) := by omega
  have hhigh : ¬ (n < 0xD800 ∨ 0xDBFF < n) := by omega
  rw [unquote.eq_def]
  simp only [backslash_ne, h, hlow, hhigh]
  match rest, hrest with
  | [], _ => simp; rfl
  | [b], _ => simp; split <;> rfl
  | b :: u :: rest, hrest =>
    have hne : b ≠ ascii '\\' ∨ u ≠ ascii 'u' := by
      by_contra h
      simp only [not_or, not_not] at h
      exact hrest rest (by rw [h.1, h.2])
    simp [hne]; rfl

theorem unquote_pair (h : unit? a b c d = some n) (hn : 0xD800 ≤ n ∧ n ≤ 0xDBFF)
    {a' b' c' d' : UInt8} (h' : unit? a' b' c' d' = some m) (rest : Bytes) :
    unquote (ascii '\\' :: ascii 'u' :: a :: b :: c :: d ::
        ascii '\\' :: ascii 'u' :: a' :: b' :: c' :: d' :: rest) =
      if 0xDC00 ≤ m ∧ m ≤ 0xDFFF then
        prepend (encodeUnit (0x10000 + (n - 0xD800) * 0x400 + (m - 0xDC00))) (unquote rest)
      else .error .malformed := by
  have hlow : ¬ (0xDC00 ≤ n ∧ n ≤ 0xDFFF) := by omega
  have hhigh : ¬ (n < 0xD800 ∨ 0xDBFF < n) := by omega
  rw [unquote.eq_def]
  simp [backslash_ne, h, hlow, hhigh, h']

end Unquote

/-- A string is understood as its pieces mean. -/
theorem toOption_unquote {pieces : List Piece} {text : Bytes} (h : Piece.SpellAll pieces text)
    (rest : Bytes) : (unquote (text ++ ascii '"' :: rest)).toOption =
      (Piece.bytes? pieces).map (·, rest) := by
  fun_induction Piece.bytes? pieces generalizing text with
  | case1 =>
    cases h
    rw [List.nil_append, unquote_quote]
    rfl
  | case2 b pieces ih =>
    obtain _ | ⟨hpiece, hpieces⟩ := h
    have hstep (text : Bytes) (h : (Piece.byte b).Spells text) (rest : Bytes) :
        unquote (text ++ rest) = prepend [b] (unquote rest) := by
      cases h with
      | plain hcontrol hquote hslash => exact unquote_plain hcontrol hquote hslash rest
      | escaped hletter => exact unquote_escaped hletter rest
    rw [List.append_assoc, hstep _ hpiece, toOption_prepend, ih hpieces, Option.map_map,
      Option.map_map]
    simp only [Function.comp_def, List.singleton_append]
  | case3 n pieces hlow =>
    -- the second half of a pair without the first is refused
    obtain _ | ⟨_ | _ | hunit, hpieces⟩ := h
    exact congrArg Except.toOption (unquote_low hunit hlow _)
  | case4 n pieces hlow hhigh ih =>
    -- a unit that is no half of a pair is a character
    obtain _ | ⟨_ | _ | hunit, hpieces⟩ := h
    simp only [List.cons_append, List.nil_append]
    rw [unquote_unit hunit hlow hhigh, toOption_prepend, ih hpieces, Option.map_map,
      Option.map_map]
    simp only [Function.comp_def]
  | case5 n hlow hhigh m pieces hm ih =>
    -- both halves of a pair are one character
    obtain _ | ⟨_ | _ | hunit, _ | ⟨_ | _ | hunit', hpieces⟩⟩ := h
    simp only [List.cons_append, List.nil_append]
    rw [unquote_pair hunit (by omega) hunit', if_pos hm, toOption_prepend, ih hpieces,
      Option.map_map, Option.map_map]
    simp only [Function.comp_def]
  | case6 n hlow hhigh m pieces hm =>
    -- the first half is followed by a unit that is not the second
    obtain _ | ⟨_ | _ | hunit, _ | ⟨_ | _ | hunit', hpieces⟩⟩ := h
    simp only [List.cons_append, List.nil_append]
    rw [unquote_pair hunit (by omega) hunit', if_neg hm]
    rfl
  | case7 n pieces hlow hhigh hpair =>
    -- the first half is followed by something else, which no spelling of it makes a unit
    obtain _ | ⟨_ | _ | hunit, hpieces⟩ := h
    simp only [List.cons_append, List.nil_append]
    refine toOption_unquote_unpaired hunit (by omega) ?_
    rintro rest' heq
    cases hpieces with
    | nil => exact absurd (List.cons.inj heq).1 (by decide)
    | @cons p ps _ _ hpiece hpieces =>
      cases hpiece with
      | plain _ _ hslash => exact hslash (List.cons.inj heq).1
      | escaped hletter => exact ne_of_unescape? hletter (List.cons.inj (List.cons.inj heq).2).1
      | unit => exact hpair _ _ rfl

theorem attempt_quotedText {pieces : List Piece} {text : Bytes} (h : Piece.SpellAll pieces text)
    (rest : Bytes) : attempt quotedText (text ++ ascii '"' :: rest) =
      (Piece.text? pieces).map (·, rest) := by
  have hread := toOption_unquote h rest
  rw [attempt, quotedText, Piece.text?]
  cases hunquote : unquote (text ++ ascii '"' :: rest) with
  | error fault =>
    rw [hunquote] at hread
    have hnone : Piece.bytes? pieces = none := Option.map_eq_none_iff.1 hread.symm
    rw [hnone]
    rfl
  | ok r =>
    rw [hunquote] at hread
    obtain ⟨bytes, hbytes, rfl⟩ := Option.map_eq_some_iff.1 hread.symm
    rw [hbytes, Option.bind_some]
    dsimp only
    cases textOf? bytes <;> rfl

/-- Every string may be passed over. -/
theorem passQuoted_eq {pieces : List Piece} {text : Bytes} (h : Piece.SpellAll pieces text)
    (rest : Bytes) : passQuoted (text ++ ascii '"' :: rest) = .ok rest := by
  induction h with
  | nil =>
    rw [List.nil_append, passQuoted.eq_def]
    simp
  | cons hpiece _ ih =>
    rw [List.append_assoc, passQuoted.eq_def]
    cases hpiece with
    | plain hcontrol hquote hslash => simp [hcontrol, hquote, hslash, ih]
    | escaped hletter => simp [backslash_ne, ne_of_unescape? hletter, hletter, ih]
    | unit hunit => simp [backslash_ne, hunit, ih]

theorem attempt_ignoreQuoted {pieces : List Piece} {text : Bytes} (h : Piece.SpellAll pieces text)
    (rest : Bytes) : attempt ignoreQuoted (text ++ ascii '"' :: rest) = some ((), rest) := by
  rw [attempt, ignoreQuoted, passQuoted_eq h]
  rfl

end Recommender.Json
