import Recommender.Proofs.Meaning

/-!
# Scanning

What the small readers do with the texts of the grammar. A text that a reader refuses is refused for
one of several reasons, and which one is found first depends on how the text is laid out; so here an
attempt to read ends with what is read and what follows it, or with nothing.

* `attempt` : what a reader makes of a text.
* `attempt_token`, `attempt_moreElements`, `attempt_moreMembers` : blanks, commas and brackets.
* `Stops` : what may follow a number.
-/

namespace Recommender.Json

open Text

variable {β γ : Type}

/-- What a reader makes of a text, and what is left of the text. -/
def attempt (read : Reader β) (input : Bytes) : Option (β × Bytes) :=
  (read input).toOption

/-! ### Combining readers -/

@[simp]
theorem attempt_pure (x : β) (input : Bytes) : attempt (pure x) input = some (x, input) := rfl

@[simp]
theorem attempt_throw (fault : Fault) (input : Bytes) :
    attempt (throw fault : Reader β) input = none := rfl

theorem toOption_eq_some_iff {reading : Except Fault β} {x : β} :
    reading.toOption = some x ↔ reading = .ok x := by
  cases reading <;> simp [Except.toOption]

theorem toOption_bind (reading : Except Fault β) (next : β → Except Fault γ) :
    (reading >>= next).toOption = reading.toOption.bind fun x => (next x).toOption := by
  cases reading <;> rfl

@[simp]
theorem attempt_bind (read : Reader β) (next : β → Reader γ) (input : Bytes) :
    attempt (read >>= next) input = (attempt read input).bind fun r => attempt (next r.1) r.2 :=
  toOption_bind (read input) fun r => next r.1 r.2

@[simp]
theorem attempt_map (f : β → γ) (read : Reader β) (input : Bytes) :
    attempt (f <$> read) input = (attempt read input).map fun r => (f r.1, r.2) := by
  rw [← bind_pure_comp, attempt_bind, Option.map_eq_bind]
  rfl

/-- What is made of the value that is read leaves the rest as it is. -/
theorem attempt_map_of {read : Reader β} {input rest : Bytes} {x : Option β}
    (h : attempt read input = x.map (·, rest)) (f : β → γ) :
    attempt (f <$> read) input = (x.map f).map (·, rest) := by
  rw [attempt_map, h, Option.map_map, Option.map_map]
  rfl

theorem attempt_ite {p : Prop} [Decidable p] (read read' : Reader β) (input : Bytes) :
    attempt (if p then read else read') input =
      if p then attempt read input else attempt read' input :=
  apply_ite (attempt · input) ..

@[simp]
theorem attempt_advance (input : Bytes) : attempt advance input = some ((), input.tail) := rfl

@[simp]
theorem attempt_peek? (input : Bytes) : attempt peek? input = some (input.head?, input) := rfl

@[simp]
theorem attempt_blanks (input : Bytes) :
    attempt blanks input = some ((), input.dropWhile isBlank) := rfl

@[simp]
theorem attempt_digits (input : Bytes) :
    attempt digits input = some (input.takeWhile isDigit, input.dropWhile isDigit) := rfl

theorem attempt_fuelled (loop : Nat → Reader β) (input : Bytes) :
    attempt (fuelled loop) input = attempt (loop (input.length + 1)) input := rfl

/-! ### Tokens -/

theorem Blank.dropWhile_append {gap : Bytes} (h : Blank gap) (rest : Bytes) :
    (gap ++ rest).dropWhile isBlank = rest.dropWhile isBlank :=
  List.dropWhile_append_of_pos h

theorem attempt_token {gap : Bytes} (hgap : Blank gap) {b : UInt8} (hb : isBlank b = false)
    (rest : Bytes) : attempt token (gap ++ b :: rest) = some (b, b :: rest) := by
  simp [token, hgap.dropWhile_append, hb]

theorem attempt_token_cons {b : UInt8} (hb : isBlank b = false) (rest : Bytes) :
    attempt token (b :: rest) = some (b, b :: rest) :=
  attempt_token (List.forall_mem_nil _) hb rest

/-- Blanks in front do not matter to a reader that asks for a token first. -/
theorem attempt_token_bind {gap : Bytes} (hgap : Blank gap) (next : UInt8 → Reader β)
    (input : Bytes) : attempt (token >>= next) (gap ++ input) = attempt (token >>= next) input := by
  simp [token, hgap.dropWhile_append]

theorem attempt_mark {gap : Bytes} (hgap : Blank gap) (c : Char) {b : UInt8}
    (hb : isBlank b = false) (rest : Bytes) :
    attempt (mark c) (gap ++ b :: rest) = if b = ascii c then some ((), rest) else none := by
  simp [mark, attempt_token hgap hb, attempt_ite]

theorem attempt_word (expected rest : Bytes) :
    attempt (word expected) (expected ++ rest) = some ((), rest) := by
  induction expected with
  | nil => rfl
  | cons b expected ih => simp [word, ih]

theorem Blank.append {gap gap' : Bytes} (h : Blank gap) (h' : Blank gap') : Blank (gap ++ gap') :=
  List.forall_mem_append.2 ⟨h, h'⟩

theorem attempt_moreElements_end {gap : Bytes} (hgap : Blank gap) (first : Bool) (rest : Bytes) :
    attempt (moreElements first) (gap ++ ascii ']' :: rest) = some (false, ascii ']' :: rest) := by
  simp [moreElements, attempt_token hgap (show isBlank (ascii ']') = false from rfl)]

theorem attempt_moreElements {gap gap' : Bytes} (hgap : Blank gap) (hgap' : Blank gap') {b : UInt8}
    (hblank : isBlank b = false) (hend : b ≠ ascii ']') (first : Bool) (rest : Bytes) :
    attempt (moreElements first) (gap ++ (comma first ++ (gap' ++ b :: rest))) =
      some (true, b :: rest) := by
  cases first with
  | true =>
    have hopen := attempt_token (hgap.append hgap') hblank rest
    rw [List.append_assoc] at hopen
    simp [moreElements, comma, hopen, attempt_ite, hend]
  | false =>
    have hcomma := attempt_token hgap (show isBlank (ascii ',') = false from rfl)
      (gap' ++ b :: rest)
    have hne : ascii ',' ≠ ascii ']' := by decide
    simp [moreElements, comma, hcomma, attempt_token hgap' hblank, attempt_ite, hne, hend]

theorem attempt_moreMembers_end {gap : Bytes} (hgap : Blank gap) (first : Bool) (rest : Bytes) :
    attempt (moreMembers first) (gap ++ ascii '}' :: rest) = some (false, ascii '}' :: rest) := by
  simp [moreMembers, attempt_token hgap (show isBlank (ascii '}') = false from rfl)]

theorem attempt_moreMembers {gap gap' : Bytes} (hgap : Blank gap) (hgap' : Blank gap')
    (first : Bool) (rest : Bytes) :
    attempt (moreMembers first) (gap ++ (comma first ++ (gap' ++ ascii '"' :: rest))) =
      some (true, ascii '"' :: rest) := by
  have hquote := attempt_token_cons (show isBlank (ascii '"') = false from rfl) rest
  have hne : ascii '"' ≠ ascii '}' := by decide
  cases first with
  | true =>
    have hopen := attempt_token (hgap.append hgap') (show isBlank (ascii '"') = false from rfl) rest
    rw [List.append_assoc] at hopen
    simp [moreMembers, comma, hopen, hquote, attempt_ite, hne]
  | false =>
    have hcomma := attempt_token hgap (show isBlank (ascii ',') = false from rfl)
      (gap' ++ ascii '"' :: rest)
    have hopen := attempt_token hgap' (show isBlank (ascii '"') = false from rfl) rest
    have hne' : ascii ',' ≠ ascii '}' := by decide
    simp [moreMembers, comma, hcomma, hopen, attempt_ite, hne']

theorem Tree.Spells.attempt_token {t : Tree} {text : Bytes} (h : t.Spells text) (rest : Bytes) :
    ∃ b, t.Opens b ∧ attempt token (text ++ rest) = some (b, text ++ rest) := by
  obtain ⟨b, text, rfl, hopens⟩ := h.opens
  exact ⟨b, hopens, attempt_token_cons hopens.ne.1 _⟩

theorem Tree.Spells.attempt_moreElements {t : Tree} {text : Bytes} (h : t.Spells text)
    {gap gap' : Bytes} (hgap : Blank gap) (hgap' : Blank gap') (first : Bool) (rest : Bytes) :
    attempt (moreElements first) (gap ++ (comma first ++ (gap' ++ (text ++ rest)))) =
      some (true, text ++ rest) := by
  obtain ⟨b, text, rfl, hopens⟩ := h.opens
  exact Json.attempt_moreElements hgap hgap' hopens.ne.1 hopens.ne.2.1 first (text ++ rest)

theorem SpellsMember.attempt_moreMembers {Spells : Tree → Bytes → Prop}
    {member : List Piece × Tree} {text : Bytes} (h : SpellsMember Spells member text)
    {gap gap' : Bytes} (hgap : Blank gap) (hgap' : Blank gap') (first : Bool) (rest : Bytes) :
    attempt (moreMembers first) (gap ++ (comma first ++ (gap' ++ (text ++ rest)))) =
      some (true, text ++ rest) := by
  obtain ⟨text, rfl⟩ := h.opens
  exact Json.attempt_moreMembers hgap hgap' first (text ++ rest)

/-! ### What ends a number -/

/-- A number in front of these bytes ends there. -/
def Stops (rest : Bytes) : Prop :=
  ∀ b ∈ rest.head?, isDigit b = false ∧ b ≠ ascii '.' ∧ b ≠ ascii 'e' ∧ b ≠ ascii 'E'

theorem stops_nil : Stops [] := by
  rintro _ ⟨⟩

theorem stops_cons {b : UInt8} (h : isDigit b = false ∧ b ≠ ascii '.' ∧ b ≠ ascii 'e' ∧
    b ≠ ascii 'E') (rest : Bytes) : Stops (b :: rest) := by
  rintro _ ⟨⟩
  exact h

theorem stops_bracket (rest : Bytes) : Stops (ascii ']' :: rest) :=
  stops_cons (by decide) rest

theorem stops_brace (rest : Bytes) : Stops (ascii '}' :: rest) :=
  stops_cons (by decide) rest

theorem Blank.stops {gap : Bytes} (hgap : Blank gap) {rest : Bytes} (h : Stops rest) :
    Stops (gap ++ rest) := by
  cases gap with
  | nil => exact h
  | cons first gap =>
    rintro _ ⟨⟩
    have hfirst := hgap _ List.mem_cons_self
    simp only [isBlank, Bool.or_eq_true, decide_eq_true_eq] at hfirst
    rcases hfirst with ((rfl | rfl) | rfl) | rfl <;> decide

/-- After an item comes what ends a number. -/
theorem Separated.stops {Spells : β → Bytes → Prop} {items : List β} {text : Bytes}
    (h : Separated Spells false items text) {rest : Bytes} (hrest : Stops rest) :
    Stops (text ++ rest) := by
  cases h with
  | nil hgap => exact hgap.stops hrest
  | cons hgap =>
    simp only [comma, List.append_assoc]
    exact hgap.stops (stops_cons (by decide) _)

end Recommender.Json
