import Recommender.Uuid
import Mathlib.Data.List.Basic
import Mathlib.Data.List.Induction
import Mathlib.Tactic.NormNum.Pow

/-!
# The spellings of a UUID

A UUID may be spelled by its digits alone or by digits in groups, and the latter also between braces
or after a name. The letters of the digits and of the name may be small or capital. Reading accepts
just these spellings, and one of them is written: digits in groups, all letters small.

* `Uuid.Denotes` : hexadecimal digits denote a number.
* `Uuid.Grouped`, `Uuid.Spells` : the spellings of a UUID.
* `Uuid.SpellsStrictly` : those in which the name, if there is one, has small letters.
* `Uuid.parse?_eq_some_iff` : a UUID is read from its spellings and nothing else.
* `Uuid.eq_render_iff` : which of them is written.
-/

namespace Recommender.Uuid

open Text

/-! ### Hexadecimal digits -/

theorem toNat_hexDigit {n : Nat} (h : n < 16) :
    (hexDigit n).toNat = if n < 10 then n + 48 else n + 87 := by
  revert n
  decide

theorem toNat_lower (b : UInt8) :
    (lower b).toNat = if 65 ≤ b.toNat ∧ b.toNat ≤ 90 then b.toNat + 32 else b.toNat := by
  have hcodes : (ascii 'A').toNat = 65 ∧ (ascii 'Z').toNat = 90 := ⟨rfl, rfl⟩
  simp only [lower, Bool.and_eq_true, decide_eq_true_eq, UInt8.le_iff_toNat_le, hcodes]
  split_ifs
  · rw [UInt8.toNat_add]
    exact Nat.mod_eq_of_lt (show b.toNat + 32 < 256 by omega)
  · rfl

/-- The digits of a value are the one that is written for it and the capital letter of that. -/
theorem hexValue?_eq_some_iff {d : UInt8} {value : Nat} :
    hexValue? d = some value ↔ value < 16 ∧ hexDigit value = lower d := by
  have hdecimal : (ascii '0').toNat = 48 ∧ (ascii '9').toNat = 57 := ⟨rfl, rfl⟩
  have hsmall : (ascii 'a').toNat = 97 ∧ (ascii 'f').toNat = 102 := ⟨rfl, rfl⟩
  have hcapital : (ascii 'A').toNat = 65 ∧ (ascii 'F').toNat = 70 := ⟨rfl, rfl⟩
  have hchars : '0'.toNat = 48 ∧ 'a'.toNat = 97 ∧ 'A'.toNat = 65 := ⟨rfl, rfl, rfl⟩
  have hvalue : hexValue? d = some value ↔ value < 16 ∧
      (if value < 10 then value + 48 else value + 87) = (lower d).toNat := by
    simp only [hexValue?, isDigit, Bool.and_eq_true, decide_eq_true_eq, UInt8.le_iff_toNat_le,
      hdecimal, hsmall, hcapital, hchars, toNat_lower]
    split_ifs <;> simp <;> omega
  rw [hvalue]
  refine and_congr_right fun hlt => ?_
  rw [← UInt8.toNat_inj, toNat_hexDigit hlt]

theorem lower_hexDigit {n : Nat} (h : n < 16) : lower (hexDigit n) = hexDigit n := by
  revert n
  decide

/-! ### Hexadecimal numbers -/

/-- Hexadecimal digits, small or capital, denote a number. -/
inductive Denotes : Bytes → Nat → Prop
  /-- No digits denote zero. -/
  | nil : Denotes [] 0
  /-- A further digit makes the others count sixteen times as much. -/
  | snoc {digits : Bytes} {n : Nat} {d : UInt8} {value : Nat} :
    Denotes digits n → value < 16 → hexDigit value = lower d →
      Denotes (digits ++ [d]) (16 * n + value)

theorem hexNumber?_snoc (digits : Bytes) (d : UInt8) : hexNumber? (digits ++ [d]) =
    (hexNumber? digits).bind fun n => (hexValue? d).map (16 * n + ·) := by
  simp [hexNumber?, List.foldlM_append]

theorem hexNumber?_eq_some_iff {digits : Bytes} {n : Nat} :
    hexNumber? digits = some n ↔ Denotes digits n := by
  constructor
  · intro h
    induction digits using List.reverseRecOn generalizing n with
    | nil =>
      cases h
      exact .nil
    | append_singleton digits d ih =>
      rw [hexNumber?_snoc] at h
      obtain ⟨m, hm, h⟩ := Option.bind_eq_some_iff.1 h
      obtain ⟨value, hvalue, rfl⟩ := Option.map_eq_some_iff.1 h
      obtain ⟨hlt, hdigit⟩ := hexValue?_eq_some_iff.1 hvalue
      exact .snoc (ih hm) hlt hdigit
  · intro h
    induction h with
    | nil => rfl
    | snoc _ hlt hdigit ih =>
      rw [hexNumber?_snoc, ih, hexValue?_eq_some_iff.2 ⟨hlt, hdigit⟩]
      rfl

theorem length_hexDigits (count n : Nat) : (hexDigits count n).length = count := by
  induction count generalizing n with
  | zero => rfl
  | succ count ih => simp [hexDigits, ih]

theorem denotes_hexDigits (count n : Nat) : Denotes (hexDigits count n) (n % 16 ^ count) := by
  induction count generalizing n with
  | zero => simpa [hexDigits, Nat.mod_one] using Denotes.nil
  | succ count ih =>
    have hlt : n % 16 < 16 := Nat.mod_lt n (by decide)
    have hsum : n % 16 ^ (count + 1) = 16 * (n / 16 % 16 ^ count) + n % 16 := by
      rw [Nat.pow_succ', Nat.mod_mul, Nat.add_comm]
    rw [hsum]
    exact .snoc (ih (n / 16)) hlt (lower_hexDigit hlt).symm

theorem Denotes.lt {digits : Bytes} {n : Nat} (h : Denotes digits n) : n < 16 ^ digits.length := by
  induction h with
  | nil => decide
  | snoc _ hlt _ ih =>
    rw [List.length_append, List.length_singleton, Nat.pow_succ]
    omega

/-- Digits with small letters are determined by the number that they denote. -/
theorem Denotes.map_lower {digits : Bytes} {n : Nat} (h : Denotes digits n) :
    digits.map lower = hexDigits digits.length n := by
  induction h with
  | nil => rfl
  | @snoc digits n d value _ hlt hdigit ih =>
    have hdiv : (16 * n + value) / 16 = n := by omega
    have hmod : (16 * n + value) % 16 = value := by omega
    simp [hexDigits, ih, hdiv, hmod, hdigit]

/-! ### Digits in groups -/

/-- Between groups stand hyphens. -/
def hyphenated (groups : List Bytes) : Bytes :=
  [ascii '-'].intercalate groups

theorem hyphenated_cons_cons (group group' : Bytes) (groups : List Bytes) :
    hyphenated (group :: group' :: groups) =
      group ++ ascii '-' :: hyphenated (group' :: groups) := by
  simp [hyphenated, List.intercalate]

theorem length_hyphenated {groups : List Bytes} (h : groups ≠ []) :
    (hyphenated groups).length + 1 = (groups.map List.length).sum + groups.length := by
  induction groups with
  | nil => exact absurd rfl h
  | cons group groups ih =>
    cases groups with
    | nil => simp [hyphenated, List.intercalate]
    | cons group' groups =>
      have := ih (List.cons_ne_nil _ _)
      simp only [hyphenated_cons_cons, List.length_append, List.length_cons, List.map_cons,
        List.sum_cons] at this ⊢
      omega

theorem map_lower_hyphenated (groups : List Bytes) :
    (hyphenated groups).map lower = hyphenated (groups.map (·.map lower)) := by
  induction groups with
  | nil => rfl
  | cons group groups ih =>
    cases groups with
    | nil => simp [hyphenated, List.intercalate]
    | cons group' groups =>
      have hmark : lower (ascii '-') = ascii '-' := rfl
      simp only [hyphenated_cons_cons, List.map_append, List.map_cons, ih, hmark]

theorem hyphenate_flatten (groups : List Bytes) :
    hyphenate (groups.map List.length) groups.flatten = hyphenated groups := by
  induction groups with
  | nil => rfl
  | cons group groups ih =>
    cases groups with
    | nil => simp [hyphenate, hyphenated, List.intercalate]
    | cons group' groups =>
      rw [hyphenated_cons_cons, ← ih]
      simp [hyphenate]

/-- A further group stands before a hyphen. -/
theorem unhyphenate?_cons_eq_some_iff {size size' : Nat} {sizes : List Nat} {text digits : Bytes} :
    unhyphenate? (size :: size' :: sizes) text = some digits ↔ ∃ group rest digits' : Bytes,
      group.length = size ∧ text = group ++ ascii '-' :: rest ∧
      unhyphenate? (size' :: sizes) rest = some digits' ∧ digits = group ++ digits' := by
  constructor
  · intro h
    rw [unhyphenate?.eq_3 _ _ _ (by simp)] at h
    cases hdrop : text.drop size with
    | nil => simp [hdrop] at h
    | cons mark rest =>
      simp only [hdrop, Option.ite_none_right_eq_some, Option.map_eq_some_iff] at h
      obtain ⟨hmark, digits', hrest, hdigits⟩ := h
      refine ⟨text.take size, rest, digits', ?_, ?_, hrest, hdigits.symm⟩
      · have hlong : 0 < (text.drop size).length := by simp [hdrop]
        rw [List.length_drop] at hlong
        rw [List.length_take]
        omega
      · rw [← hmark, ← hdrop, List.take_append_drop]
  · rintro ⟨group, rest, digits', rfl, rfl, hrest, rfl⟩
    rw [unhyphenate?.eq_3 _ _ _ (by simp)]
    simp [hrest]

theorem unhyphenate?_eq_some_iff {sizes : List Nat} {text digits : Bytes} (hs : sizes ≠ []) :
    unhyphenate? sizes text = some digits ↔ ∃ groups : List Bytes,
      groups.map List.length = sizes ∧ groups.flatten = digits ∧ hyphenated groups = text := by
  induction sizes generalizing text digits with
  | nil => exact absurd rfl hs
  | cons size sizes ih =>
    cases sizes with
    | nil =>
      constructor
      · intro h
        simp only [unhyphenate?, Option.ite_none_right_eq_some, Option.some.injEq] at h
        exact ⟨[text], by simp [h.1], by simp [h.2], by simp [hyphenated, List.intercalate]⟩
      · rintro ⟨groups, hsizes, rfl, rfl⟩
        obtain ⟨group, rfl, rfl⟩ := List.map_eq_singleton_iff.1 hsizes
        simp [unhyphenate?, hyphenated, List.intercalate]
    | cons size' sizes =>
      rw [unhyphenate?_cons_eq_some_iff]
      constructor
      · rintro ⟨group, rest, digits', rfl, rfl, hrest, rfl⟩
        obtain ⟨groups, hsizes, rfl, rfl⟩ := (ih (by simp)).1 hrest
        obtain ⟨group', groups, rfl, -, -⟩ := List.map_eq_cons_iff.1 hsizes
        exact ⟨group :: group' :: groups, by simp [hsizes], by simp, hyphenated_cons_cons ..⟩
      · rintro ⟨groups, hsizes, rfl, rfl⟩
        obtain ⟨group, groups, rfl, hsize, hsizes⟩ := List.map_eq_cons_iff.1 hsizes
        have hrest := (ih (by simp)).2 ⟨groups, hsizes, rfl, rfl⟩
        obtain ⟨group', groups, rfl, -, -⟩ := List.map_eq_cons_iff.1 hsizes
        exact ⟨group, _, _, hsize, hyphenated_cons_cons .., hrest, List.flatten_cons⟩

/-! ### Spellings -/

/-- Digits in groups that denote the bits of a UUID. -/
def Grouped (id : Uuid) (text : Bytes) : Prop :=
  ∃ groups : List Bytes, groups.map List.length = groupSizes ∧
    Denotes groups.flatten id.bits.toNat ∧ hyphenated groups = text

/-- The spellings of a UUID. -/
inductive Spells (id : Uuid) : Bytes → Prop
  /-- Digits alone. -/
  | plain {text : Bytes} : text.length = 32 → Denotes text id.bits.toNat → Spells id text
  /-- Digits in groups. -/
  | grouped {text : Bytes} : id.Grouped text → Spells id text
  /-- Digits in groups between braces. -/
  | braced {text : Bytes} : id.Grouped text → Spells id ([ascii '\x7b'] ++ text ++ [ascii '\x7d'])
  /-- Digits in groups after the name, whose letters may be small or capital. -/
  | named {name text : Bytes} : alike name urn → id.Grouped text → Spells id (name ++ text)

/-- The spellings with the name in small letters: digits alone, digits in groups, and the latter
between braces or after the name as it is written. -/
inductive SpellsStrictly (id : Uuid) : Bytes → Prop
  /-- Digits alone. -/
  | plain {text : Bytes} : text.length = 32 → Denotes text id.bits.toNat → SpellsStrictly id text
  /-- Digits in groups. -/
  | grouped {text : Bytes} : id.Grouped text → SpellsStrictly id text
  /-- Digits in groups between braces. -/
  | braced {text : Bytes} : id.Grouped text →
    SpellsStrictly id ([ascii '\x7b'] ++ text ++ [ascii '\x7d'])
  /-- Digits in groups after the name. -/
  | named {text : Bytes} : id.Grouped text → SpellsStrictly id (urn ++ text)

variable {id id' : Uuid} {text : Bytes}

theorem Grouped.length (h : id.Grouped text) : text.length = 36 := by
  obtain ⟨groups, hsizes, -, rfl⟩ := h
  have hcount : groups.length = 5 := by rw [← List.length_map List.length, hsizes]; rfl
  have hlength := length_hyphenated (List.ne_nil_of_length_eq_add_one hcount)
  rw [hsizes, hcount] at hlength
  exact Nat.succ.inj hlength

theorem ofDigits?_eq_some_iff :
    ofDigits? text = some id ↔ text.length = 32 ∧ Denotes text id.bits.toNat := by
  simp only [ofDigits?, Option.ite_none_right_eq_some, Option.map_eq_some_iff,
    hexNumber?_eq_some_iff]
  refine and_congr_right fun hlength => ⟨?_, fun h => ⟨_, h, by simp⟩⟩
  rintro ⟨n, hn, rfl⟩
  have hlt : n < 2 ^ 128 := by
    have hlt := hn.lt
    rw [hlength] at hlt
    exact Nat.lt_of_lt_of_eq hlt (by norm_num)
  rwa [BitVec.toNat_ofNat, Nat.mod_eq_of_lt hlt]

theorem ofGroups?_eq_some_iff : ofGroups? text = some id ↔ id.Grouped text := by
  simp only [ofGroups?, Option.bind_eq_some_iff, ofDigits?_eq_some_iff,
    unhyphenate?_eq_some_iff (show groupSizes ≠ [] by decide)]
  constructor
  · rintro ⟨_, ⟨groups, hsizes, rfl, htext⟩, -, hdigits⟩
    exact ⟨groups, hsizes, hdigits, htext⟩
  · rintro ⟨groups, hsizes, hdigits, htext⟩
    refine ⟨_, ⟨groups, hsizes, rfl, htext⟩, ?_, hdigits⟩
    rw [List.length_flatten, hsizes]
    rfl

theorem ofBraces?_eq_some_iff : ofBraces? text = some id ↔
    ∃ inner, id.Grouped inner ∧ text = [ascii '\x7b'] ++ inner ++ [ascii '\x7d'] := by
  cases text with
  | nil => simp [ofBraces?]
  | cons first rest =>
    simp only [ofBraces?, Option.ite_none_right_eq_some, ofGroups?_eq_some_iff]
    constructor
    · rintro ⟨⟨rfl, hlast⟩, h⟩
      refine ⟨_, h, ?_⟩
      simp [List.dropLast_append_getLast? _ hlast]
    · rintro ⟨inner, h, htext⟩
      simp only [List.cons_append, List.nil_append, List.cons.injEq] at htext
      obtain ⟨rfl, rfl⟩ := htext
      simpa using h

theorem length_of_alike {a b : Bytes} (h : alike a b) : a.length = b.length := by
  simp only [alike, decide_eq_true_eq] at h
  simpa using congrArg List.length h

theorem ofName?_eq_some_iff :
    (if alike (text.take urn.length) urn then ofGroups? (text.drop urn.length) else none)
      = some id ↔ ∃ name inner, alike name urn ∧ id.Grouped inner ∧ text = name ++ inner := by
  rw [Option.ite_none_right_eq_some, ofGroups?_eq_some_iff]
  constructor
  · rintro ⟨hname, h⟩
    exact ⟨_, _, hname, h, (List.take_append_drop ..).symm⟩
  · rintro ⟨name, inner, hname, h, rfl⟩
    simp [← length_of_alike hname, hname, h]

/-- A UUID is read from its spellings and nothing else. -/
theorem parse?_eq_some_iff : parse? text = some id ↔ id.Spells text := by
  -- what is tried earlier reads texts of another length
  have hdigits (h : text.length ≠ 32) : ofDigits? text = none := by simp [ofDigits?, h]
  have hgroups (h : text.length ≠ 36) : ofGroups? text = none :=
    Option.eq_none_iff_forall_ne_some.2 fun _ hid => h (ofGroups?_eq_some_iff.1 hid).length
  have hbraces (h : text.length ≠ 38) : ofBraces? text = none := by
    refine Option.eq_none_iff_forall_ne_some.2 fun _ hid => h ?_
    obtain ⟨inner, hinner, rfl⟩ := ofBraces?_eq_some_iff.1 hid
    simp [hinner.length]
  simp only [parse?, Option.orElse_eq_orElse, Option.orElse_eq_or, Option.or_eq_some_iff,
    ofDigits?_eq_some_iff, ofGroups?_eq_some_iff, ofBraces?_eq_some_iff, ofName?_eq_some_iff]
  constructor
  · rintro (⟨hlength, h⟩ | ⟨-, h | ⟨-, ⟨inner, h, rfl⟩ | ⟨-, name, inner, hname, h, rfl⟩⟩⟩)
    · exact .plain hlength h
    · exact .grouped h
    · exact .braced h
    · exact .named hname h
  · intro h
    cases h with
    | plain hlength h => exact .inl ⟨hlength, h⟩
    | grouped h => exact .inr ⟨hdigits (by simp [h.length]), .inl h⟩
    | @braced inner h =>
      have hlength : ([ascii '\x7b'] ++ inner ++ [ascii '\x7d']).length = 38 := by simp [h.length]
      exact .inr ⟨hdigits (by omega), .inr ⟨hgroups (by omega), .inl ⟨inner, h, rfl⟩⟩⟩
    | @named name inner hname h =>
      have hlength : (name ++ inner).length = 45 := by
        rw [List.length_append, length_of_alike hname, h.length]
        decide +kernel
      exact .inr ⟨hdigits (by omega), .inr ⟨hgroups (by omega),
        .inr ⟨hbraces (by omega), name, inner, hname, h, rfl⟩⟩⟩

/-! ### The spelling that is written -/

theorem grouped_render (id : Uuid) : id.Grouped id.render := by
  have hread : unhyphenate? groupSizes id.render = some (hexDigits 32 id.bits.toNat) :=
    unhyphenate?_hyphenate (by decide) (length_hexDigits ..)
  obtain ⟨groups, hsizes, hdigits, hrender⟩ := (unhyphenate?_eq_some_iff (by decide)).1 hread
  have hdenotes := denotes_hexDigits 32 id.bits.toNat
  have hlt : id.bits.toNat < 16 ^ 32 := Nat.lt_of_lt_of_eq id.bits.isLt (by norm_num)
  rw [Nat.mod_eq_of_lt hlt, ← hdigits] at hdenotes
  exact ⟨groups, hsizes, hdenotes, hrender⟩

/-- With small letters, digits in groups are as they are written. -/
theorem Grouped.map_lower (h : id.Grouped text) : text.map lower = id.render := by
  obtain ⟨groups, hsizes, hdigits, rfl⟩ := h
  have hlength : groups.flatten.length = 32 := by
    rw [List.length_flatten, hsizes]
    rfl
  have hsizes : (groups.map (·.map lower)).map List.length = groupSizes := by
    rw [← hsizes, List.map_map]
    simp [Function.comp_def]
  rw [map_lower_hyphenated, ← hyphenate_flatten, hsizes, ← List.map_flatten, hdigits.map_lower,
    hlength, render]

/-- What is written are digits in groups, all letters small. -/
theorem eq_render_iff : text = id.render ↔ id.Grouped text ∧ text.map lower = text := by
  constructor
  · intro h
    rw [h]
    exact ⟨grouped_render id, (grouped_render id).map_lower⟩
  · rintro ⟨h, hlower⟩
    rw [← hlower, h.map_lower]

theorem spells_render (id : Uuid) : id.Spells id.render :=
  .grouped (grouped_render id)

/-- A text spells at most one UUID. -/
theorem Spells.eq (h : id.Spells text) (h' : id'.Spells text) : id = id' := by
  rw [← parse?_eq_some_iff] at h h'
  exact Option.some.inj (h.symm.trans h')

theorem render_inj : id.render = id'.render ↔ id = id' := by
  refine ⟨fun h => ?_, congrArg render⟩
  have hspells := spells_render id'
  rw [← h] at hspells
  exact (spells_render id).eq hspells

/-- Only the name tells the strict spellings from the others. -/
theorem spellsStrictly_iff : id.SpellsStrictly text ↔
    id.Spells text ∧ (text.length = 45 → text.take urn.length = urn) := by
  constructor
  · intro h
    cases h with
    | plain hlength h => exact ⟨.plain hlength h, by omega⟩
    | grouped h =>
      have hlength := h.length
      exact ⟨.grouped h, by omega⟩
    | @braced inner h =>
      have hlength : ([ascii '\x7b'] ++ inner ++ [ascii '\x7d']).length = 38 := by simp [h.length]
      exact ⟨.braced h, by omega⟩
    | named h =>
      have hname : alike urn urn = true := decide_eq_true rfl
      exact ⟨.named hname h, fun _ => List.take_left' rfl⟩
  · rintro ⟨h, hwritten⟩
    cases h with
    | plain hlength h => exact .plain hlength h
    | grouped h => exact .grouped h
    | braced h => exact .braced h
    | @named name inner hname h =>
      have hlength := length_of_alike hname
      rw [List.length_append, hlength, h.length] at hwritten
      have hurn : name = urn := by
        rw [← hwritten (by decide +kernel), ← hlength, List.take_left' rfl]
      rw [hurn]
      exact .named h

end Recommender.Uuid
