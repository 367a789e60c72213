import Recommender.Text
import Mathlib.Data.List.Basic
import Mathlib.Data.List.Induction
import Mathlib.Tactic.NormNum

/-!
# Decimal digits

A number is written with digits of which the first is a zero only if there is no other, and no other
run of digits of that kind denotes it.

* `Digits.toDigits_value` : digits are the ones that are written for their value.
* `Digits.exists_chars` : digits among bytes are digits among characters.
* `Text.bytesOf_ofList` : the bytes of a text of ASCII characters.
-/

namespace Recommender

namespace Digits

theorem toNat_bounds {c : Char} (h : c.isDigit) : 48 ≤ c.toNat ∧ c.toNat ≤ 57 :=
  Char.isDigit_iff_toNat.1 h

theorem value_append_singleton (ds : List Char) (c : Char) :
    value (ds ++ [c]) = 10 * value ds + (c.toNat - 48) := by
  simp [value, Nat.ofDigitChars_append, Nat.ofDigitChars_cons]

theorem digitChar_toNat {c : Char} (h : c.isDigit) : (c.toNat - 48).digitChar = c := by
  obtain ⟨hlow, hhigh⟩ := toNat_bounds h
  rw [← Char.toNat_inj, Nat.toNat_digitChar_of_lt_ten (by omega)]
  omega

theorem isDigit_of_mem_toDigits {n : Nat} {c : Char} (h : c ∈ Nat.toDigits 10 n) : c.isDigit :=
  Nat.isDigit_of_mem_toDigits (by decide) (by decide) h

/-- Only zero is written with a zero in front. -/
theorem eq_zero_of_head? {n : Nat} (h : (Nat.toDigits 10 n).head? = some '0') : n = 0 := by
  induction n using Nat.strongRecOn with
  | ind n ih =>
    by_cases hlt : n < 10
    · rw [Nat.toDigits_of_lt_base hlt] at h
      exact Nat.digitChar_eq_zero.1 (Option.some.inj h)
    · have hle : 10 ≤ n := Nat.le_of_not_lt hlt
      rw [Nat.toDigits_of_base_le (by decide) hle,
        List.head?_append_of_ne_nil _ Nat.toDigits_ne_nil] at h
      have := ih (n / 10) (by omega) h
      omega

/-- Digits are the ones that are written for their value. -/
theorem toDigits_value {ds : List Char} (hne : ds ≠ []) (hdigits : ∀ c ∈ ds, c.isDigit)
    (hzero : ds.head? = some '0' → ds.length = 1) : Nat.toDigits 10 (value ds) = ds := by
  induction ds using List.reverseRecOn with
  | nil => exact absurd rfl hne
  | append_singleton ds c ih =>
    have hc := hdigits c (by simp)
    obtain ⟨hlow, hhigh⟩ := toNat_bounds hc
    rw [value_append_singleton]
    by_cases hds : ds = []
    · subst hds
      have hvalue : 10 * value [] + (c.toNat - 48) = c.toNat - 48 := by
        rw [show value [] = 0 from rfl]
        omega
      rw [hvalue, Nat.toDigits_of_lt_base (by omega), digitChar_toNat hc, List.nil_append]
    · have hhead : ds.head? ≠ some '0' := by
        intro h
        have hlength := hzero (by rw [List.head?_append_of_ne_nil _ hds, h])
        rw [List.length_append, List.length_singleton] at hlength
        exact hds (List.length_eq_zero_iff.1 (by omega))
      have ih := ih hds (fun c h => hdigits c (List.mem_append_left _ h)) fun h => absurd h hhead
      have hpos : value ds ≠ 0 := by
        intro h
        rw [h] at ih
        exact hhead (by rw [← ih]; rfl)
      rw [Nat.toDigits_of_base_le (by decide) (by omega),
        show (10 * value ds + (c.toNat - 48)) / 10 = value ds by omega,
        show (10 * value ds + (c.toNat - 48)) % 10 = c.toNat - 48 by omega, ih, digitChar_toNat hc]

theorem value_toDigits (n : Nat) : value (Nat.toDigits 10 n) = n :=
  Nat.ofDigitChars_toDigits (by decide) (by decide)

end Digits

namespace Text

theorem toNat_ascii {c : Char} (h : c.toNat < 256) : (ascii c).toNat = c.toNat :=
  Nat.mod_eq_of_lt h

theorem toNat_ofNat {n : Nat} (h : n < 128) : (Char.ofNat n).toNat = n := by
  rw [Char.ofNat, dif_pos (.inl (by omega))]
  rfl

/-- A byte of ASCII is the byte of its character. -/
theorem ascii_ofNat {b : UInt8} (h : b.toNat < 128) : ascii (Char.ofNat b.toNat) = b := by
  rw [ascii, toNat_ofNat h, UInt8.ofNat_toNat]

/-- The bytes of a text of ASCII characters. -/
theorem bytesOf_ofList {cs : List Char} (h : ∀ c ∈ cs, c.toNat < 128) :
    bytesOf (String.ofList cs) = cs.map ascii := by
  rw [bytesOf_eq, String.toList_ofList]
  induction cs with
  | nil => rfl
  | cons c cs ih =>
    rw [List.forall_mem_cons] at h
    rw [List.flatMap_cons, utf8EncodeChar_of_lt h.1, ih h.2, List.map_cons, List.singleton_append]

theorem bytesOf_append (s t : String) : bytesOf (s ++ t) = bytesOf s ++ bytesOf t := by
  simp [bytesOf_eq]

theorem isDigit_iff {b : UInt8} : isDigit b ↔ 48 ≤ b.toNat ∧ b.toNat ≤ 57 := by
  simp [isDigit, UInt8.le_iff_toNat_le, show (ascii '0').toNat = 48 from rfl,
    show (ascii '9').toNat = 57 from rfl]

theorem isDigit_ascii {c : Char} (h : c.isDigit) : isDigit (ascii c) := by
  obtain ⟨hlow, hhigh⟩ := Digits.toNat_bounds h
  rw [isDigit_iff, toNat_ascii (by omega)]
  exact ⟨hlow, hhigh⟩

/-- Digits among bytes are digits among characters. -/
theorem exists_chars {ds : Bytes} (h : ∀ d ∈ ds, isDigit d) :
    ∃ cs : List Char, (∀ c ∈ cs, c.isDigit) ∧ cs.map ascii = ds := by
  induction ds with
  | nil => exact ⟨[], List.forall_mem_nil _, rfl⟩
  | cons d ds ih =>
    rw [List.forall_mem_cons] at h
    obtain ⟨cs, hcs, rfl⟩ := ih h.2
    obtain ⟨hlow, hhigh⟩ := isDigit_iff.1 h.1
    refine ⟨Char.ofNat d.toNat :: cs, List.forall_mem_cons.2 ⟨?_, hcs⟩, ?_⟩
    · have hchar : (Char.ofNat d.toNat).toNat = d.toNat := toNat_ofNat (by omega)
      rw [Char.isDigit_iff_toNat, hchar]
      exact ⟨hlow, hhigh⟩
    · rw [List.map_cons, ascii_ofNat (by omega)]

/-! ### Integers -/

/-- A text is an integer: decimal digits, at least one, with a sign in front or none. -/
inductive SpellsInteger : List Char → Int → Prop
  /-- Digits alone. -/
  | bare {ds : List Char} : ds ≠ [] → (∀ c ∈ ds, c.isDigit) → SpellsInteger ds (Digits.value ds)
  /-- Digits after a plus sign. -/
  | plus {ds : List Char} : ds ≠ [] → (∀ c ∈ ds, c.isDigit) →
    SpellsInteger ('+' :: ds) (Digits.value ds)
  /-- Digits after a minus sign. -/
  | minus {ds : List Char} : ds ≠ [] → (∀ c ∈ ds, c.isDigit) →
    SpellsInteger ('-' :: ds) (-(Digits.value ds : Int))

theorem natural?_eq_some_iff {ds : List Char} {n : Nat} :
    natural? ds = some n ↔ (ds ≠ [] ∧ ∀ c ∈ ds, c.isDigit) ∧ Digits.value ds = n := by
  simp [natural?, and_assoc]

/-- An integer is read from its texts and nothing else. -/
theorem integer?_eq_some_iff {cs : List Char} {n : Int} :
    integer? cs = some n ↔ SpellsInteger cs n := by
  constructor
  · intro h
    unfold integer? at h
    split at h <;> obtain ⟨_, hread, rfl⟩ := Option.map_eq_some_iff.1 h <;>
      obtain ⟨m, hm, ⟨⟩⟩ := Option.bind_eq_some_iff.1 hread <;>
      obtain ⟨⟨hne, hdigits⟩, rfl⟩ := natural?_eq_some_iff.1 hm
    · exact .minus hne hdigits
    · exact .plus hne hdigits
    · exact .bare hne hdigits
  · intro h
    cases h with
    | plus hne hdigits | minus hne hdigits =>
      rw [integer?, natural?_eq_some_iff.2 ⟨⟨hne, hdigits⟩, rfl⟩]
      rfl
    | bare hne hdigits =>
      have hsign (c : Char) (ds : List Char) (hc : ¬ c.isDigit) : cs ≠ c :: ds := by
        rintro rfl
        exact hc (hdigits c List.mem_cons_self)
      rw [integer?, natural?_eq_some_iff.2 ⟨⟨hne, hdigits⟩, rfl⟩]
      · rfl
      · exact fun ds => hsign '-' ds (by decide)
      · exact fun ds => hsign '+' ds (by decide)

/-- What is written for an integer is a text of it. -/
theorem spellsInteger_toString (n : Int) : SpellsInteger (toString n).toList n := by
  have hdigits (m : Nat) : (toString m).toList = Nat.toDigits 10 m := by
    rw [Nat.toString_eq_ofList_toDigits, String.toList_ofList]
  have hall (m : Nat) : ∀ c ∈ Nat.toDigits 10 m, c.isDigit :=
    fun _ => Digits.isDigit_of_mem_toDigits
  cases n with
  | ofNat m =>
    have h := SpellsInteger.bare Nat.toDigits_ne_nil (hall m)
    rwa [Digits.value_toDigits, ← hdigits] at h
  | negSucc m =>
    have h := SpellsInteger.minus Nat.toDigits_ne_nil (hall (m + 1))
    have htext : (toString (Int.negSucc m)).toList = '-' :: (toString (m + 1)).toList :=
      String.toList_append
    rw [Digits.value_toDigits, ← hdigits, ← htext] at h
    exact h

/-- An integer of 64 bits is read from its texts and nothing else. -/
theorem int64?_eq_some_iff {cs : List Char} {n : Int64} :
    int64? cs = some n ↔ SpellsInteger cs n.toInt := by
  constructor
  · intro h
    obtain ⟨m, hm, h⟩ := Option.bind_eq_some_iff.1 h
    obtain ⟨hbounds, ⟨⟩⟩ := Option.ite_none_right_eq_some.1 h
    rw [Int64.toInt_ofInt_of_le hbounds.1 (Int.lt_add_one_of_le hbounds.2)]
    exact integer?_eq_some_iff.1 hm
  · intro h
    have hbounds : Int64.minValue.toInt ≤ n.toInt ∧ n.toInt ≤ Int64.maxValue.toInt :=
      ⟨n.minValue_le_toInt, n.toInt_le⟩
    rw [int64?, integer?_eq_some_iff.2 h]
    exact (if_pos hbounds).trans (congrArg some (Int64.ofInt_toInt n))

/-- What is written for an integer of 64 bits is read back. -/
theorem int64?_toString (n : Int64) : int64? (toString n.toInt).toList = some n :=
  int64?_eq_some_iff.2 (spellsInteger_toString n.toInt)

end Text

end Recommender
