import Recommender.Proofs.Numerals
import Recommender.Proofs.Strings
import Recommender.Json.Ignored

/-!
# Passing over values

Every value that is spelled in JSON may be passed over, however deep it is: the fuel of the readers
that do so lasts for two rounds per byte.

* `PassesValues`, `PassesElements`, `PassesMembers` : how much fuel is enough.
* `attempt_pass` : values, elements and members are passed over with enough fuel.
* `attempt_ignoreValue` : a value of no interest is passed over.
-/

namespace Recommender.Json

open Text

theorem Numeral.attempt_ignore {numeral : Numeral} {text rest : Bytes} (h : numeral.Spells text)
    (hrest : Stops rest) : attempt ignore (text ++ rest) = some ((), rest) := by
  have hread := attempt_read h hrest
  rw [attempt] at hread
  rw [attempt, ignore]
  cases hresult : read (text ++ rest) with
  | error fault =>
    rw [hresult] at hread
    cases hread
  | ok r =>
    rw [hresult] at hread
    cases hread
    rfl

theorem attempt_passValue_blanks {gap : Bytes} (hgap : Blank gap) (fuel : Nat) (input : Bytes) :
    attempt (passValue fuel) (gap ++ input) = attempt (passValue fuel) input := by
  cases fuel with
  | zero => rfl
  | succ fuel => exact attempt_token_bind hgap _ _

/-- Values are passed over with some fuel, two rounds for each byte. -/
def PassesValues (fuel : Nat) : Prop :=
  ∀ {t : Tree} {text rest : Bytes}, t.Spells text → Stops rest → 2 * text.length ≤ fuel →
    attempt (passValue fuel) (text ++ rest) = some ((), rest)

/-- Elements are passed over with some fuel, and the bracket after them. -/
def PassesElements (fuel : Nat) : Prop :=
  ∀ {first : Bool} {ts : List Tree} {text : Bytes} (rest : Bytes),
    Separated Tree.Spells first ts text → 2 * text.length + 2 ≤ fuel →
    attempt (passElements fuel first) (text ++ ascii ']' :: rest) = some ((), rest)

/-- Members are passed over with some fuel, and the brace after them. -/
def PassesMembers (fuel : Nat) : Prop :=
  ∀ {first : Bool} {ms : List (List Piece × Tree)} {text : Bytes} (rest : Bytes),
    Separated (SpellsMember Tree.Spells) first ms text → 2 * text.length + 2 ≤ fuel →
    attempt (passMembers fuel first) (text ++ ascii '}' :: rest) = some ((), rest)

/-- The first byte of a value tells what is to be passed over. -/
theorem passesValues_succ {fuel : Nat} (elements : PassesElements fuel)
    (members : PassesMembers fuel) : PassesValues (fuel + 1) := by
  intro t text rest h hrest hfuel
  obtain ⟨b, hopens, htoken⟩ := h.attempt_token rest
  simp only [passValue, attempt_bind, htoken, Option.bind_some, attempt_ite]
  cases h with
  | null | yes | no =>
    obtain rfl := hopens
    simp +decide only [attempt_word, if_true, if_false]
  | number h =>
    have hnumber : (b = ascii '-' || isDigit b) = true := hopens
    have hne (other : UInt8) : (other = ascii '-' || isDigit other) = false → b ≠ other :=
      ne_of_opens_number hnumber
    rw [if_neg (hne _ rfl), if_neg (hne _ rfl), if_neg (hne _ rfl), if_pos hnumber,
      Numeral.attempt_ignore h hrest]
  | string h =>
    obtain rfl := hopens
    simp +decide only [if_true, if_false]
    simp [attempt_ignoreQuoted h]
  | array h =>
    obtain rfl := hopens
    have hpass := elements rest h
      (by simp only [List.length_append, List.length_cons] at hfuel; omega)
    simp +decide only [if_true, if_false]
    simp [hpass]
  | object h =>
    obtain rfl := hopens
    have hpass := members rest h
      (by simp only [List.length_append, List.length_cons] at hfuel; omega)
    simp +decide only [if_true, if_false]
    simp [hpass]

/-- An element takes a byte at least, and so one of the two rounds that are spent on each. -/
theorem passesElements_succ {fuel : Nat} (values : PassesValues fuel)
    (elements : PassesElements fuel) : PassesElements (fuel + 1) := by
  intro first ts text rest h hfuel
  cases h with
  | nil hgap => simp [passElements, attempt_moreElements_end hgap, attempt_ite]
  | @cons _ t _ gap gap' text others hgap hgap' h hothers =>
    have hlength := h.length_pos
    simp only [List.length_append] at hfuel
    have hvalue := values h (hothers.stops (stops_bracket rest)) (by omega)
    simp only [List.append_assoc, passElements, attempt_bind, attempt_ite,
      h.attempt_moreElements hgap hgap', Option.bind_some, if_true, hvalue,
      elements rest hothers (by omega)]

/-- A member is a name and a value. -/
theorem passesMembers_succ {fuel : Nat} (values : PassesValues fuel)
    (members : PassesMembers fuel) : PassesMembers (fuel + 1) := by
  intro first ms text rest h hfuel
  cases h with
  | nil hgap => simp [passMembers, attempt_moreMembers_end hgap, attempt_ite]
  | @cons _ _ _ gap gap' text others hgap hgap' h hothers =>
    obtain @⟨pieces, t, name, gap₁, gap₂, text, hname, hgap₁, hgap₂, h⟩ := h
    simp only [List.length_append, List.length_cons] at hfuel
    have hvalue := values h (hothers.stops (stops_brace rest)) (by omega)
    have hmark (rest : Bytes) :=
      attempt_mark hgap₁ ':' (show isBlank (ascii ':') = false from rfl) rest
    simp only [List.append_assoc, List.cons_append, passMembers, attempt_bind, attempt_ite,
      attempt_moreMembers hgap hgap', Option.bind_some, if_true, attempt_advance,
      List.tail_cons, attempt_ignoreQuoted hname, hmark, attempt_passValue_blanks hgap₂, hvalue,
      members rest hothers (by omega)]

/-- Each round calls readers with a round less, so all three are shown at once. -/
theorem attempt_pass (fuel : Nat) :
    PassesValues fuel ∧ PassesElements fuel ∧ PassesMembers fuel := by
  induction fuel with
  | zero =>
    refine ⟨fun h _ hfuel => ?_, fun _ _ hfuel => absurd hfuel (by omega),
      fun _ _ hfuel => absurd hfuel (by omega)⟩
    have := h.length_pos
    omega
  | succ fuel ih =>
    obtain ⟨hvalues, helements, hmembers⟩ := ih
    exact ⟨passesValues_succ helements hmembers, passesElements_succ hvalues helements,
      passesMembers_succ hvalues hmembers⟩

/-- A value of no interest is passed over. -/
theorem attempt_ignoreValue {t : Tree} {gap text rest : Bytes} (hgap : Blank gap)
    (h : t.Spells text) (hrest : Stops rest) :
    attempt ignoreValue (gap ++ (text ++ rest)) = some ((), rest) := by
  rw [ignoreValue, attempt_fuelled, attempt_passValue_blanks hgap]
  have hfuel : 2 * text.length ≤ 2 * ((gap ++ (text ++ rest)).length + 1) := by
    simp only [List.length_append]
    omega
  exact (attempt_pass _).1 h hrest hfuel

end Recommender.Json
