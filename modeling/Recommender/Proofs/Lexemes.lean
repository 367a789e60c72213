import Recommender.Proofs.Strings
import Recommender.Proofs.Integers
import Recommender.Decimal.Text

/-!
# The spelling of what is written

Every number and every string that is written is spelled in JSON.

* `Piece.spellAll_quoted`, `Piece.text?_quoted` : the string of a text is spelled and means the
  text.
* `Numeral.exists_spells_numberText` : the text of a number is spelled.
-/

namespace Recommender.Json

open Text

/-! ### Strings -/

namespace Piece

/-- The piece that is written for a byte: a unit for control characters without a letter. -/
def quoted (b : UInt8) : Piece :=
  if b < 32 ∧ b ∉ [8, 9, 10, 12, 13] then unit b.toNat else byte b

theorem unit?_control {b : UInt8} (h : b < 32) :
    unit? (ascii '0') (ascii '0') (hexDigit (b.toNat / 16)) (hexDigit (b.toNat % 16)) =
      some b.toNat := by
  have hlt : b.toNat < 32 := h
  have hall : ∀ n < 32, unit? (ascii '0') (ascii '0') (hexDigit (n / 16)) (hexDigit (n % 16)) =
    some n := by decide
  exact hall _ hlt

/-- What is written for a byte spells its piece. -/
theorem spells_escape (b : UInt8) : (quoted b).Spells (escape b) := by
  rw [escape]
  split_ifs with hquote hslash h8 h9 h10 h12 h13 hcontrol
  all_goals try subst b; exact .escaped (by decide)
  · have hunit : quoted b = unit b.toNat :=
      if_pos ⟨hcontrol, by simp [h8, h9, h10, h12, h13]⟩
    rw [hunit]
    exact .unit (unit?_control hcontrol)
  · have hbyte : quoted b = byte b := if_neg fun h => hcontrol h.1
    rw [hbyte]
    exact .plain hcontrol hquote hslash

theorem spellAll_quoted (bytes : Bytes) :
    SpellAll (bytes.map quoted) (bytes.flatMap escape) := by
  induction bytes with
  | nil => exact .nil
  | cons b bytes ih => exact .cons (spells_escape b) ih

theorem encodeUnit_toNat {b : UInt8} (h : b < 32) : encodeUnit b.toNat = [b] := by
  have hlt : b.toNat < 32 := h
  have hchar : (Char.ofNat b.toNat).toNat < 128 := by
    rw [toNat_ofNat (by omega)]
    omega
  rw [encodeUnit, utf8EncodeChar_of_lt hchar, ascii_ofNat (by omega)]

theorem bytes?_quoted (bytes : Bytes) : bytes? (bytes.map quoted) = some bytes := by
  induction bytes with
  | nil => rfl
  | cons b bytes ih =>
    rw [List.map_cons, quoted]
    split
    · next h =>
      have hlt : b.toNat < 32 := h.1
      have hlow : ¬ (0xDC00 ≤ b.toNat ∧ b.toNat ≤ 0xDFFF) := by omega
      have hplain : b.toNat < 0xD800 := by omega
      rw [bytes?.eq_def]
      simp [hlow, hplain, ih, encodeUnit_toNat h.1]
    · rw [bytes?, ih]
      rfl

/-- What is written for a text means the text. -/
theorem text?_quoted (text : String) : text? ((bytesOf text).map quoted) = some text := by
  rw [text?, bytes?_quoted, Option.bind_some, textOf?_bytesOf]

end Piece

/-! ### Numbers -/

/-- Characters that spell a number after a minus sign or without one. -/
def Magnitude (cs : List Char) : Prop :=
  (∀ c ∈ cs, c.toNat < 128) ∧
    ∀ negative, ∃ numeral : Numeral, numeral.Spells (Numeral.sign negative ++ cs.map ascii)

/-- Digits that may stand before a point. -/
def Whole (ds : List Char) : Prop :=
  ds ≠ [] ∧ (∀ c ∈ ds, c.isDigit) ∧ (ds.head? = some '0' → ds.length = 1)

theorem toNat_lt_of_isDigit {ds : List Char} (h : ∀ c ∈ ds, c.isDigit) : ∀ c ∈ ds, c.toNat < 128 :=
  fun c hc => Nat.lt_of_le_of_lt (Digits.toNat_bounds (h c hc)).2 (by decide)

theorem areDigits_map {ds : List Char} (hne : ds ≠ []) (hdigits : ∀ c ∈ ds, c.isDigit) :
    AreDigits (ds.map ascii) :=
  ⟨by simpa using hne, List.forall_mem_map.2 fun c hc => isDigit_ascii (hdigits c hc)⟩

theorem whole_toDigits (n : Nat) : Whole (Nat.toDigits 10 n) := by
  refine ⟨Nat.toDigits_ne_nil, fun _ => Digits.isDigit_of_mem_toDigits, fun h => ?_⟩
  rw [Digits.eq_zero_of_head? h]
  rfl

/-- A number is put together from its digits, its fraction and its exponent. -/
theorem Whole.magnitude {ds cs : List Char} (h : Whole ds) (hcs : ∀ c ∈ cs, c.toNat < 128)
    {fraction : Option Bytes} {exponent : Option (Bool × Bytes)} {point power : Bytes}
    (hpoint : Numeral.SpellsFraction fraction point)
    (hpower : Numeral.SpellsExponent exponent power) (heq : cs.map ascii = point ++ power) :
    Magnitude (ds ++ cs) := by
  obtain ⟨hne, hdigits, hzero⟩ := h
  refine ⟨List.forall_mem_append.2 ⟨toNat_lt_of_isDigit hdigits, hcs⟩, fun negative =>
    ⟨⟨negative, ds.map ascii, fraction, exponent⟩, ?_⟩⟩
  have hone (h : (ds.map ascii).head? = some (ascii '0')) : (ds.map ascii).length = 1 := by
    rw [List.head?_map, Option.map_eq_some_iff] at h
    obtain ⟨c, hc, hascii⟩ := h
    obtain rfl := Numeral.eq_zero_of_ascii (hdigits c (List.mem_of_mem_head? hc)) hascii
    rw [List.length_map, hzero hc]
  have hspells : Numeral.Spells ⟨negative, ds.map ascii, fraction, exponent⟩
      (Numeral.sign negative ++ ds.map ascii ++ point ++ power) :=
    .mk (areDigits_map hne hdigits) hone hpoint hpower
  rwa [List.append_assoc, List.append_assoc, ← heq, ← List.map_append] at hspells

/-- An exponent is written as an integer. -/
theorem spellsExponent_of_spellsInteger {cs : List Char} {n : Int} (h : SpellsInteger cs n) :
    ∃ exponent, Numeral.SpellsExponent exponent (('e' :: cs).map ascii) := by
  cases h with
  | bare hne hdigits => exact ⟨_, .bare (.inl rfl) (areDigits_map hne hdigits)⟩
  | plus hne hdigits => exact ⟨_, .plus (.inl rfl) (areDigits_map hne hdigits)⟩
  | minus hne hdigits => exact ⟨_, .minus (.inl rfl) (areDigits_map hne hdigits)⟩

theorem toNat_lt_of_spellsInteger {cs : List Char} {n : Int} (h : SpellsInteger cs n) :
    ∀ c ∈ cs, c.toNat < 128 := by
  cases h with
  | bare _ hdigits => exact toNat_lt_of_isDigit hdigits
  | plus _ hdigits | minus _ hdigits =>
    exact List.forall_mem_cons.2 ⟨by decide, toNat_lt_of_isDigit hdigits⟩

/-- A decimal without a fraction, and the digits of one after a point. -/
theorem magnitude_plain_point {d : Decimal} (h : 0 ≤ d.exponent) :
    Magnitude (d.plain ++ ['.', '0']) := by
  have hzero : ∀ c ∈ ['0'], c.isDigit := List.forall_mem_singleton.2 rfl
  have hpoint : ∀ c ∈ ['.', '0'], c.toNat < 128 :=
    List.forall_mem_cons.2 ⟨by decide, toNat_lt_of_isDigit hzero⟩
  rw [Decimal.plain, if_pos h]
  exact (whole_toDigits _).magnitude hpoint
    (.some (areDigits_map (List.cons_ne_nil '0' []) hzero)) .none rfl

theorem isDigit_of_mem_padded {width n : Nat} {c : Char} (h : c ∈ Digits.padded width n) :
    c.isDigit := by
  rcases List.mem_append.1 h with h | h
  · rw [List.eq_of_mem_replicate h]
    rfl
  · exact Digits.isDigit_of_mem_toDigits h

/-- Digits with a fraction of some places have one digit before it, or no zero in front. -/
theorem length_padded {places n : Nat} (hplaces : 0 < places) :
    places < (Digits.padded (places + 1) n).length ∧
      ((Digits.padded (places + 1) n).head? = some '0' →
        (Digits.padded (places + 1) n).length = places + 1) := by
  have hlength : (Digits.padded (places + 1) n).length =
      max (places + 1) (Nat.toDigits 10 n).length := List.length_leftpad ..
  refine ⟨by omega, fun hhead => ?_⟩
  by_contra hlong
  have hnone : places + 1 - (Nat.toDigits 10 n).length = 0 := by omega
  rw [Digits.padded, List.leftpad, hnone] at hhead
  have hone : (Nat.toDigits 10 n).length = 1 := (whole_toDigits n).2.2 hhead
  omega

theorem magnitude_plain {d : Decimal} (h : d.exponent < 0) : Magnitude d.plain := by
  obtain ⟨hlength, hhead⟩ := length_padded (n := d.digits) (show 0 < d.exponent.natAbs by omega)
  have hall : ∀ c ∈ Digits.padded (d.exponent.natAbs + 1) d.digits, c.isDigit :=
    fun _ => isDigit_of_mem_padded
  rw [Decimal.plain, if_neg (Int.not_le.2 h)]
  dsimp only
  generalize Digits.padded (d.exponent.natAbs + 1) d.digits = ds at *
  have hdrop : ∀ c ∈ ds.drop (ds.length - d.exponent.natAbs), c.isDigit :=
    fun c hc => hall c (List.mem_of_mem_drop hc)
  have hwhole : Whole (ds.take (ds.length - d.exponent.natAbs)) := by
    refine ⟨?_, fun c hc => hall c (List.mem_of_mem_take hc), fun hzero => ?_⟩
    · rw [Ne, List.take_eq_nil_iff]
      rintro (h | rfl)
      · omega
      · simp at hlength
    · rw [List.head?_take, if_neg (by omega)] at hzero
      rw [List.length_take, hhead hzero]
      omega
  refine hwhole.magnitude (List.forall_mem_cons.2 ⟨by decide, toNat_lt_of_isDigit hdrop⟩)
    (.some (areDigits_map ?_ hdrop)) .none (List.append_nil _).symm
  rw [Ne, List.drop_eq_nil_iff]
  omega

theorem magnitude_scientific (d : Decimal) : Magnitude d.scientific := by
  have hall : ∀ c ∈ Nat.toDigits 10 d.digits, c.isDigit := fun _ => Digits.isDigit_of_mem_toDigits
  rw [Decimal.scientific]
  cases hdigits : Nat.toDigits 10 d.digits with
  | nil => exact absurd hdigits Nat.toDigits_ne_nil
  | cons first others =>
    rw [hdigits, List.forall_mem_cons] at hall
    have hinteger := spellsInteger_toString (d.exponent + others.length)
    obtain ⟨exponent, hexponent⟩ := spellsExponent_of_spellsInteger hinteger
    have hascii : ∀ c ∈ 'e' :: (toString (d.exponent + others.length)).toList, c.toNat < 128 :=
      List.forall_mem_cons.2 ⟨by decide, toNat_lt_of_spellsInteger hinteger⟩
    have hwhole : Whole [first] := ⟨by simp, by simp [hall.1], by simp⟩
    dsimp only
    cases others with
    | nil => exact hwhole.magnitude hascii .none hexponent rfl
    | cons second others =>
      have hpoint : ∀ c ∈ '.' :: second :: others, c.toNat < 128 :=
        List.forall_mem_cons.2 ⟨by decide, toNat_lt_of_isDigit hall.2⟩
      exact hwhole.magnitude (List.forall_mem_append.2 ⟨hpoint, hascii⟩)
        (.some (areDigits_map (List.cons_ne_nil _ _) hall.2)) hexponent
        (List.map_append : ('.' :: second :: others ++ _).map ascii = _)

/-- The text of a number is spelled. -/
theorem exists_spells_numberText (x : Binary64) :
    ∃ numeral : Numeral, numeral.Spells (bytesOf (String.ofList x.numberText)) := by
  have hmagnitude {cs : List Char} (h : Magnitude cs) : ∃ numeral : Numeral,
      numeral.Spells (bytesOf (String.ofList (if x.isNegative then '-' :: cs else cs))) := by
    obtain ⟨hascii, hspells⟩ := h
    obtain ⟨numeral, hspells⟩ := hspells x.isNegative
    refine ⟨numeral, ?_⟩
    cases hnegative : x.isNegative with
    | true =>
      rw [hnegative] at hspells
      rwa [if_pos rfl, bytesOf_ofList (List.forall_mem_cons.2 ⟨by decide, hascii⟩)]
    | false =>
      rw [hnegative] at hspells
      rwa [if_neg Bool.false_ne_true, bytesOf_ofList hascii]
  rw [Binary64.numberText]
  refine hmagnitude ?_
  split
  · exact magnitude_scientific _
  · split
    · next h => exact magnitude_plain_point h
    · next h => exact magnitude_plain (Int.not_le.1 h)

end Recommender.Json
