import Recommender.Proofs.Scanning

/-!
# Reading numbers

A number is read exactly as it is spelled: whoever reads the text of a number reads the number, and
whatever is read was spelled.

* `Numeral.attempt_read` : a number is read as it is spelled.
* `Numeral.spells_of_attempt_read` : what is read is spelled.
-/

namespace Recommender.Json

open Text

/-! ### Reading what is spelled -/

theorem takeWhile_digits {ds rest : Bytes} (hds : ∀ d ∈ ds, isDigit d)
    (hrest : ∀ b ∈ rest.head?, isDigit b = false) :
    (ds ++ rest).takeWhile isDigit = ds ∧ (ds ++ rest).dropWhile isDigit = rest := by
  rw [List.takeWhile_append_of_pos hds, List.dropWhile_append_of_pos hds]
  cases rest with
  | nil => simp
  | cons b rest => simp [hrest b rfl]

namespace Numeral

theorem attempt_someDigits_eq (input : Bytes) : attempt someDigits input =
    if input.takeWhile isDigit = [] then none
    else some (input.takeWhile isDigit, input.dropWhile isDigit) := by
  simp only [someDigits, attempt_bind, attempt_digits, Option.bind_some, attempt_ite,
    List.isEmpty_iff]
  split
  · cases h : (input.dropWhile isDigit).head? <;> simp [h]
  · simp

theorem attempt_someDigits {ds rest : Bytes} (hds : AreDigits ds)
    (hrest : ∀ b ∈ rest.head?, isDigit b = false) :
    attempt someDigits (ds ++ rest) = some (ds, rest) := by
  obtain ⟨htake, hdrop⟩ := takeWhile_digits hds.2 hrest
  rw [attempt_someDigits_eq, htake, hdrop, if_neg hds.1]

theorem attempt_readFraction {fraction : Option Bytes} {text rest : Bytes}
    (h : SpellsFraction fraction text)
    (hrest : ∀ b ∈ rest.head?, isDigit b = false ∧ b ≠ ascii '.') :
    attempt readFraction (text ++ rest) = some (fraction, rest) := by
  cases h with
  | none =>
    have hpoint : rest.head? ≠ some (ascii '.') := fun h => (hrest _ h).2 rfl
    simp [readFraction, attempt_ite, hpoint]
  | some hds => simp [readFraction, attempt_someDigits hds fun b hb => (hrest b hb).1]

theorem attempt_readExponent {exponent : Option (Bool × Bytes)} {text rest : Bytes}
    (h : SpellsExponent exponent text) (hrest : Stops rest) :
    attempt readExponent (text ++ rest) = some (exponent, rest) := by
  have hdigits {ds : Bytes} (hds : AreDigits ds) :=
    attempt_someDigits hds fun b hb => (hrest b hb).1
  cases h with
  | none =>
    have hmark : ¬ (rest.head? = some (ascii 'e') ∨ rest.head? = some (ascii 'E')) := by
      rintro (h | h)
      · exact (hrest _ h).2.2.1 rfl
      · exact (hrest _ h).2.2.2 rfl
    simp [readExponent, attempt_ite, hmark]
  | @bare mark ds hmark hds =>
    obtain ⟨d, ds, rfl⟩ := List.exists_cons_of_ne_nil hds.1
    have hne (other : UInt8) (h : isDigit other = false) : d ≠ other := by
      rintro rfl
      exact Bool.false_ne_true (h.symm.trans (hds.2 _ List.mem_cons_self))
    have hdigits := hdigits hds
    simp only [List.cons_append] at hdigits
    simp [readExponent, attempt_ite, hmark, hne (ascii '+') rfl, hne (ascii '-') rfl,
      hdigits]
  | plus hmark hds =>
    have hne : ascii '+' ≠ ascii '-' := by decide
    simp [readExponent, attempt_ite, hmark, hdigits hds, hne]
  | minus hmark hds => simp [readExponent, attempt_ite, hmark, hdigits hds]

/-- After the digits of a number comes what is no digit. -/
theorem SpellsExponent.head? {exponent : Option (Bool × Bytes)} {text rest : Bytes}
    (h : SpellsExponent exponent text) (hrest : Stops rest) :
    ∀ b ∈ (text ++ rest).head?, isDigit b = false ∧ b ≠ ascii '.' := by
  have hletter {mark : UInt8} (hmark : mark = ascii 'e' ∨ mark = ascii 'E') :
      isDigit mark = false ∧ mark ≠ ascii '.' := by
    rcases hmark with rfl | rfl <;> decide
  cases h with
  | none => exact fun b hb => ⟨(hrest b hb).1, (hrest b hb).2.1⟩
  | bare hmark | plus hmark | minus hmark =>
    rintro b hb
    obtain rfl := Option.some.inj hb
    exact hletter hmark

/-- Takes a number off, after its sign. -/
def readAfterSign (negative : Bool) : Reader Numeral := do
  let whole ← someDigits
  if whole.head? = some (ascii '0') ∧ 1 < whole.length then throw .malformed
  let fraction ← readFraction
  let exponent ← readExponent
  pure { negative, whole, fraction, exponent }

theorem attempt_read_eq (input : Bytes) : attempt read input =
    if input.head? = some (ascii '-') then attempt (readAfterSign true) input.tail
    else attempt (readAfterSign false) input := by
  simp only [read, readAfterSign, attempt_bind, attempt_peek?, Option.bind_some, attempt_ite,
    attempt_advance]
  split
  · next h => simp only [h, decide_true]
  · next h => simp only [h, decide_false]

/-- A number is read as it is spelled. -/
theorem attempt_read {numeral : Numeral} {text rest : Bytes} (h : numeral.Spells text)
    (hrest : Stops rest) : attempt read (text ++ rest) = some (numeral, rest) := by
  obtain @⟨negative, whole, fraction, exponent, point, power, hwhole, hzero, hpoint, hpower⟩ := h
  have hend := hpower.head? hrest
  have hdigits : attempt someDigits (whole ++ (point ++ (power ++ rest))) =
      some (whole, point ++ (power ++ rest)) := by
    refine attempt_someDigits hwhole ?_
    cases hpoint with
    | none => exact fun b hb => (hend b hb).1
    | some =>
      rintro b hb
      obtain rfl := Option.some.inj hb
      rfl
  have hone : ¬ (whole.head? = some (ascii '0') ∧ 1 < whole.length) := by
    rintro ⟨h, hlt⟩
    exact absurd (hzero h) (Nat.ne_of_gt hlt)
  have hafter : attempt (readAfterSign negative) (whole ++ (point ++ (power ++ rest))) =
      some (⟨negative, whole, fraction, exponent⟩, rest) := by
    simp only [readAfterSign, attempt_bind, hdigits, Option.bind_some, if_neg hone,
      attempt_readFraction hpoint hend, attempt_readExponent hpower hrest, attempt_pure]
  simp only [List.append_assoc]
  rw [attempt_read_eq]
  cases negative with
  | true => exact hafter
  | false =>
    obtain ⟨d, ds, rfl⟩ := List.exists_cons_of_ne_nil hwhole.1
    have hne : some d ≠ some (ascii '-') := by
      rintro ⟨⟩
      exact Bool.false_ne_true (hwhole.2 _ List.mem_cons_self)
    exact (if_neg hne).trans hafter

/-! ### Spelling what is read -/

theorem areDigits_of_attempt_someDigits {input ds rest : Bytes}
    (h : attempt someDigits input = some (ds, rest)) : AreDigits ds ∧ input = ds ++ rest := by
  rw [attempt_someDigits_eq, Option.ite_none_left_eq_some] at h
  obtain ⟨hne, h⟩ := h
  cases h
  exact ⟨⟨hne, List.all_eq_true.1 List.all_takeWhile⟩, List.takeWhile_append_dropWhile.symm⟩

theorem spells_of_attempt_readFraction {input rest : Bytes} {fraction : Option Bytes}
    (h : attempt readFraction input = some (fraction, rest)) :
    ∃ text, SpellsFraction fraction text ∧ input = text ++ rest := by
  simp only [readFraction, attempt_bind, attempt_peek?, Option.bind_some, attempt_ite,
    attempt_advance, attempt_map] at h
  split at h
  · next hpoint =>
    obtain ⟨⟨ds, rest⟩, hread, h⟩ := Option.map_eq_some_iff.1 h
    cases h
    obtain ⟨hds, htail⟩ := areDigits_of_attempt_someDigits hread
    exact ⟨_, .some hds, by rw [List.eq_cons_of_mem_head? hpoint, htail, List.cons_append]⟩
  · cases h
    exact ⟨[], .none, rfl⟩

theorem spells_of_attempt_readExponent {input rest : Bytes} {exponent : Option (Bool × Bytes)}
    (h : attempt readExponent input = some (exponent, rest)) :
    ∃ text, SpellsExponent exponent text ∧ input = text ++ rest := by
  simp only [readExponent, attempt_bind, attempt_peek?, Option.bind_some, attempt_ite,
    attempt_advance, attempt_pure] at h
  split at h
  · next hmark =>
    obtain ⟨mark, input, rfl⟩ : ∃ mark input', input = mark :: input' := by
      rcases hmark with h | h <;> exact ⟨_, _, List.eq_cons_of_mem_head? h⟩
    simp only [List.head?_cons, Option.some.injEq] at hmark
    rw [List.tail_cons] at h
    split at h
    · next hsign =>
      obtain ⟨⟨ds, rest⟩, hread, h⟩ := Option.bind_eq_some_iff.1 h
      cases h
      obtain ⟨hds, htail⟩ := areDigits_of_attempt_someDigits hread
      rcases hsign with hsign | hsign
      · rw [hsign, List.eq_cons_of_mem_head? hsign, htail]
        exact ⟨_, .plus hmark hds, rfl⟩
      · rw [hsign, List.eq_cons_of_mem_head? hsign, htail]
        exact ⟨_, .minus hmark hds, rfl⟩
    · next hsign =>
      obtain ⟨⟨ds, rest⟩, hread, h⟩ := Option.bind_eq_some_iff.1 h
      cases h
      obtain ⟨hds, rfl⟩ := areDigits_of_attempt_someDigits hread
      rw [decide_eq_false fun h => hsign (.inr h)]
      exact ⟨_, .bare hmark hds, rfl⟩
  · cases h
    exact ⟨[], .none, rfl⟩

/-- What is read is a number in front of what is left. -/
theorem spells_of_attempt_read {input rest : Bytes} {numeral : Numeral}
    (h : attempt read input = some (numeral, rest)) :
    ∃ text, numeral.Spells text ∧ input = text ++ rest := by
  have hafter {negative : Bool} {input : Bytes}
      (h : attempt (readAfterSign negative) input = some (numeral, rest)) :
      ∃ text, numeral.Spells (sign negative ++ text) ∧ input = text ++ rest := by
    rw [readAfterSign, attempt_bind] at h
    obtain ⟨⟨whole, input'⟩, hwhole, h⟩ := Option.bind_eq_some_iff.1 h
    rw [attempt_ite] at h
    split at h
    · simp at h
    · next hzero =>
      simp only [attempt_bind, attempt_pure] at h
      obtain ⟨⟨fraction, input''⟩, hfraction, h⟩ := Option.bind_eq_some_iff.1 h
      obtain ⟨⟨exponent, rest'⟩, hexponent, h⟩ := Option.bind_eq_some_iff.1 h
      cases h
      obtain ⟨hds, rfl⟩ := areDigits_of_attempt_someDigits hwhole
      obtain ⟨point, hpoint, rfl⟩ := spells_of_attempt_readFraction hfraction
      obtain ⟨power, hpower, rfl⟩ := spells_of_attempt_readExponent hexponent
      have hone (h : whole.head? = some (ascii '0')) : whole.length = 1 := by
        have := List.length_pos_iff.2 hds.1
        have : ¬ 1 < whole.length := fun hlt => hzero ⟨h, hlt⟩
        omega
      exact ⟨whole ++ point ++ power,
        by simpa only [List.append_assoc] using Spells.mk hds hone hpoint hpower, by simp⟩
  rw [attempt_read_eq] at h
  split at h
  · next hsign =>
    obtain ⟨text, htext, htail⟩ := hafter h
    exact ⟨_, htext, by rw [List.eq_cons_of_mem_head? hsign, htail]; rfl⟩
  · exact hafter h

end Numeral

end Recommender.Json
