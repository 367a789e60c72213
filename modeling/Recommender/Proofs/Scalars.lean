import Recommender.Proofs.Keys
import Recommender.Proofs.Skipping

/-!
# Reading scalars

Numbers, strings, choices and names are read as they mean.

* `attempt_readInteger`, `attempt_readText`, `attempt_readChoice` : a tree is read as it means where
  a scalar is expected.
* `attempt_readKey` : the name of a member of a table is read as its pieces mean.
-/

namespace Recommender.Json

open Text

variable {β : Type}

/-! ### Numbers -/

/-- What is of the wrong kind is refused, whatever it is. -/
theorem attempt_refuse (input : Bytes) : attempt (refuse : Reader β) input = none := by
  have hthen (read : Reader PUnit) (input : Bytes) :
      attempt (do read; throw .mismatched : Reader β) input = none := by
    simp only [attempt_bind, attempt_throw, Option.bind_fun_none]
  rw [refuse, attempt_bind]
  simp only [attempt_ite, hthen, attempt_bind, attempt_throw, Option.bind_fun_none, ite_self]

theorem attempt_refuse_bind {γ : Type} (next : β → Reader γ) (input : Bytes) :
    attempt (refuse >>= next) input = none := by
  rw [attempt_bind, attempt_refuse, Option.bind_none]

theorem Numeral.attempt_readNumber (input : Bytes) : attempt readNumber input =
    (attempt read input).bind fun r => r.1.number?.map (·, r.2) := by
  rw [readNumber, attempt_bind]
  refine Option.bind_congr fun r _ => ?_
  cases r.1.number? <;> rfl

/-- A minus sign or a digit starts a number. -/
theorem attempt_readNumber_cons {b : UInt8} (h : b = ascii '-' || isDigit b) (rest : Bytes) :
    attempt readNumber (b :: rest) =
      (attempt Numeral.read (b :: rest)).bind fun r => r.1.number?.map (·, r.2) := by
  rw [readNumber, attempt_bind, attempt_token_cons (isBlank_of_opens_number h), Option.bind_some,
    attempt_ite, if_pos h, Numeral.attempt_readNumber]

theorem attempt_readNumber {t : Tree} {text rest : Bytes} (h : t.Spells text) (hrest : Stops rest) :
    attempt readNumber (text ++ rest) = t.number?.map (·, rest) := by
  obtain ⟨b, hopens, htoken⟩ := h.attempt_token rest
  rw [readNumber, attempt_bind, htoken, Option.bind_some, attempt_ite]
  match t, h, hopens with
  | .number _, .number h, hopens =>
    have hnumber : (b = ascii '-' || isDigit b) = true := hopens
    rw [if_pos hnumber, Numeral.attempt_readNumber, Numeral.attempt_read h hrest]
    rfl
  | .null, _, rfl | .bool true, _, rfl | .bool false, _, rfl | .string _, _, rfl | .array _, _, rfl
  | .object _, _, rfl => exact attempt_refuse _

theorem attempt_readInteger_eq (low high : Int) (input : Bytes) :
    attempt (readInteger low high) input = (attempt readNumber input).bind fun r =>
      (r.1.integer? low high).map (·, r.2) := by
  rw [readInteger, attempt_bind]
  refine Option.bind_congr fun r _ => ?_
  match r with
  | (.integer n, rest) =>
    dsimp only [Number.integer?]
    rw [attempt_ite]
    split <;> rfl
  | (.float _, rest) => rfl

theorem attempt_readInteger {t : Tree} {text rest : Bytes} (h : t.Spells text)
    (hrest : Stops rest) (low high : Int) :
    attempt (readInteger low high) (text ++ rest) = (t.integer? low high).map (·, rest) := by
  rw [attempt_readInteger_eq, attempt_readNumber h hrest, Tree.integer?]
  cases t.number? <;> rfl

theorem Tree.integer?_number_eq_some_iff {numeral : Numeral} {low high n : Int} :
    (number numeral).integer? low high = some n ↔
      numeral.number? = some (.integer n) ∧ low ≤ n ∧ n ≤ high := by
  rw [integer?, number?, Option.bind_eq_some_iff]
  constructor
  · rintro ⟨number, hnumber, hn⟩
    cases number with
    | integer m =>
      obtain ⟨hbounds, ⟨⟩⟩ := Option.ite_none_right_eq_some.1 hn
      exact ⟨hnumber, hbounds⟩
    | float => cases hn
  · rintro ⟨hnumber, hbounds⟩
    exact ⟨_, hnumber, if_pos hbounds⟩

/-! ### Strings -/

theorem attempt_readText {t : Tree} {text : Bytes} (h : t.Spells text) (rest : Bytes) :
    attempt readText (text ++ rest) = t.text?.map (·, rest) := by
  obtain ⟨b, hopens, htoken⟩ := h.attempt_token rest
  rw [readText, attempt_bind, htoken, Option.bind_some, attempt_ite]
  match t, h, hopens with
  | .string pieces, .string h, rfl =>
    simp only [if_true, attempt_bind, attempt_advance, Option.bind_some, List.cons_append,
      List.tail_cons, List.append_assoc, List.nil_append, attempt_quotedText h]
    rfl
  | .number _, _, hopens =>
    rw [if_neg (ne_of_opens_number hopens rfl)]
    exact attempt_refuse _
  | .null, _, rfl | .bool true, _, rfl | .bool false, _, rfl | .array _, _, rfl
  | .object _, _, rfl => exact attempt_refuse _

theorem attempt_readInstant {t : Tree} {text : Bytes} (h : t.Spells text) (rest : Bytes) :
    attempt readInstant (text ++ rest) = (t.text?.bind Instant.parse?).map (·, rest) := by
  rw [readInstant, attempt_bind, attempt_readText h]
  cases t.text? with
  | none => rfl
  | some name =>
    dsimp only [Option.map_some, Option.bind_some]
    cases Instant.parse? name <;> rfl

/-! ### Choices -/

theorem attempt_placeOf (names : List String) (name : String) (input : Bytes) :
    attempt (placeOf names name) input = (names.finIdxOf? name).map (·, input) := by
  rw [placeOf]
  cases names.finIdxOf? name <;> rfl

/-- Whether a member is null and no member comes after it. -/
def isOnly : Tree → List (List Piece × Tree) → Bool
  | .null, [] => true
  | _, _ => false

theorem name?_object (pieces : List Piece) (t : Tree) (ms : List (List Piece × Tree)) :
    (Tree.object ((pieces, t) :: ms)).name? =
      if isOnly t ms then Piece.text? pieces else none := by
  cases t <;> cases ms <;> rfl

/-- Reads what comes after the name of the only member of an object, which is null. -/
def readOnly (x : β) : Reader β := do
  mark ':'
  if (← token) = ascii 'n' then word (bytesOf "null") else refuse
  mark '}'
  pure x

/-- Nothing but a brace comes after the last member. -/
theorem attempt_mark_brace {ms : List (List Piece × Tree)} {text : Bytes}
    (h : Separated (SpellsMember Tree.Spells) false ms text) (rest : Bytes) :
    attempt (mark '}') (text ++ ascii '}' :: rest) =
      match ms with
      | [] => some ((), rest)
      | _ :: _ => none := by
  cases h with
  | nil hgap => exact attempt_mark hgap '}' rfl rest
  | cons hgap =>
    simp only [List.append_assoc]
    exact attempt_mark hgap '}' rfl _

theorem attempt_readOnly {t : Tree} {ms : List (List Piece × Tree)} {gap gap' text others : Bytes}
    (hgap : Blank gap) (hgap' : Blank gap') (h : t.Spells text)
    (hothers : Separated (SpellsMember Tree.Spells) false ms others) (x : β) (rest : Bytes) :
    attempt (readOnly x)
        (gap ++ ascii ':' :: (gap' ++ (text ++ (others ++ ascii '}' :: rest)))) =
      if isOnly t ms then some (x, rest) else none := by
  obtain ⟨b, hopens, htoken⟩ := h.attempt_token (others ++ ascii '}' :: rest)
  have hcolon := attempt_mark hgap ':' (show isBlank (ascii ':') = false from rfl)
  rw [readOnly, attempt_bind, hcolon, if_pos rfl, Option.bind_some, attempt_token_bind hgap',
    attempt_bind, htoken, Option.bind_some, attempt_ite]
  match t, h, hopens with
  | .null, .null, rfl =>
    rw [if_pos rfl, attempt_bind, attempt_word, Option.bind_some, attempt_bind,
      attempt_mark_brace hothers]
    cases ms <;> rfl
  | .number _, _, hopens =>
    rw [if_neg (ne_of_opens_number hopens rfl)]
    exact attempt_refuse_bind ..
  | .bool true, _, rfl | .bool false, _, rfl | .string _, _, rfl | .array _, _, rfl
  | .object _, _, rfl => exact attempt_refuse_bind ..

/-- Reads one of a list of names, as the name of the only member of an object. -/
def readNamed (names : List String) : Reader (Fin names.length) := do
  advance
  mark '"'
  readOnly (← placeOf names (← quotedText))

theorem attempt_readNamed {members : List (List Piece × Tree)} {text : Bytes}
    (h : Separated (SpellsMember Tree.Spells) true members text) (names : List String)
    (rest : Bytes) : attempt (readNamed names) (ascii '{' :: (text ++ ascii '}' :: rest)) =
      ((Tree.object members).name?.bind names.finIdxOf?).map (·, rest) := by
  rw [readNamed, attempt_bind, attempt_advance, Option.bind_some, List.tail_cons, attempt_bind]
  cases h with
  | nil hgap =>
    rw [attempt_mark hgap '"' rfl]
    rfl
  | @cons _ member members gap gap' text others hgap hgap' h hothers =>
    obtain @⟨pieces, t, name, gap₁, gap₂, text, hname, hgap₁, hgap₂, h⟩ := h
    have hopen := attempt_mark (hgap.append hgap') '"' (show isBlank (ascii '"') = false from rfl)
    simp only [List.append_assoc] at hopen
    simp only [comma, if_true, List.nil_append, List.append_assoc, List.cons_append, hopen,
      attempt_bind, Option.bind_some, attempt_quotedText hname, name?_object]
    cases Piece.text? pieces with
    | none => split <;> rfl
    | some name =>
      simp only [Option.map_some, Option.bind_some, attempt_placeOf]
      cases hplace : names.finIdxOf? name with
      | none => split <;> simp [hplace]
      | some i =>
        simp only [Option.map_some, Option.bind_some, attempt_readOnly hgap₁ hgap₂ h hothers]
        split <;> simp [hplace]

theorem attempt_readChoice {t : Tree} {text : Bytes} (h : t.Spells text) (names : List String)
    (rest : Bytes) : attempt (readChoice names) (text ++ rest) =
      (t.name?.bind names.finIdxOf?).map (·, rest) := by
  obtain ⟨b, hopens, htoken⟩ := h.attempt_token rest
  rw [readChoice, attempt_bind, htoken, Option.bind_some, attempt_ite]
  match t, h, hopens with
  | .string pieces, .string h, rfl =>
    simp only [if_true, attempt_bind, attempt_advance, Option.bind_some, List.cons_append,
      List.tail_cons, List.append_assoc, List.nil_append, attempt_quotedText h, Tree.name?]
    cases Piece.text? pieces with
    | none => rfl
    | some name => exact attempt_placeOf names name rest
  | .object members, .object h, rfl =>
    simp only [List.cons_append, List.append_assoc, List.nil_append]
    exact attempt_readNamed h names rest
  | .number _, _, hopens =>
    rw [if_neg (ne_of_opens_number hopens rfl), if_neg (ne_of_opens_number hopens rfl)]
    rfl
  | .null, _, rfl | .bool true, _, rfl | .bool false, _, rfl | .array _, _, rfl => rfl

/-! ### Names of tables -/

theorem attempt_readInt64_cons {b : UInt8} (h : b = ascii '-' || isDigit b) (rest : Bytes) :
    attempt readInt64 (b :: rest) = (attempt Numeral.read (b :: rest)).bind fun r =>
      ((Tree.number r.1).integer? Int64.minValue.toInt Int64.maxValue.toInt).map
        fun n => (Int64.ofInt n, r.2) := by
  rw [readInt64, attempt_map, attempt_readInteger_eq, attempt_readNumber_cons h, Option.bind_assoc,
    Option.map_bind]
  refine Option.bind_congr fun r _ => ?_
  simp only [Tree.integer?, Tree.number?, Function.comp_def]
  cases r.1.number? with
  | none => rfl
  | some n => simp only [Option.map_some, Option.bind_some, Option.map_map, Function.comp_def]

/-- A name is an integer right after the quote and right before the next one. -/
theorem attempt_readKey_cons {quote b : UInt8} {input rest : Bytes} {key : Int64} :
    attempt readKey (quote :: b :: input) = some (key, rest) ↔
      (b = ascii '-' || isDigit b) ∧ attempt readInt64 (b :: input) = some (key, ascii '"' :: rest)
    := by
  rw [readKey, attempt_bind, attempt_advance, Option.bind_some, attempt_bind, attempt_peek?,
    Option.bind_some]
  dsimp only [List.tail_cons, List.head?_cons]
  rw [attempt_ite]
  split
  · next h =>
    rw [attempt_bind, Option.bind_eq_some_iff]
    constructor
    · rintro ⟨⟨key', input'⟩, hread, hnext⟩
      simp only [attempt_bind, attempt_peek?, Option.bind_some, attempt_ite, attempt_advance,
        attempt_pure, attempt_throw, Option.ite_none_right_eq_some, Option.some.injEq,
        Prod.mk.injEq] at hnext
      obtain ⟨hquote, rfl, rfl⟩ := hnext
      rw [List.eq_cons_of_mem_head? hquote] at hread
      exact ⟨h, hread⟩
    · rintro ⟨-, hread⟩
      exact ⟨_, hread, by simp⟩
  · next h => simp [h]

/-- A name is read where the text of its integer stands. -/
theorem attempt_readKey_eq_some_iff {input : Bytes} {key : Int64} {rest : Bytes} :
    attempt readKey (ascii '"' :: input) = some (key, rest) ↔
      input = encodeInt key.toInt ++ ascii '"' :: rest := by
  have hlow : Int64.minValue.toInt ≤ key.toInt := key.minValue_le_toInt
  have hhigh : key.toInt ≤ Int64.maxValue.toInt := key.toInt_le
  constructor
  · intro h
    cases input with
    | nil => cases h
    | cons b input =>
      obtain ⟨hnumber, hread⟩ := attempt_readKey_cons.1 h
      rw [attempt_readInt64_cons hnumber, Option.bind_eq_some_iff] at hread
      obtain ⟨⟨numeral, input'⟩, hnumeral, hread⟩ := hread
      obtain ⟨n, hn, heq⟩ := Option.map_eq_some_iff.1 hread
      obtain ⟨hkey, rfl⟩ := Prod.mk.inj heq
      obtain ⟨text, htext, hinput⟩ := Numeral.spells_of_attempt_read hnumeral
      obtain ⟨hnumber, hbounds⟩ := Tree.integer?_number_eq_some_iff.1 hn
      obtain ⟨-, rfl⟩ := Numeral.eq_ofInt htext hnumber
      rw [hinput, ← hkey, Int64.toInt_ofInt_of_le hbounds.1 (Int.lt_add_one_of_le hbounds.2)]
  · rintro rfl
    have hspells := Numeral.spells_ofInt key.toInt
    obtain ⟨b, text, htext, hopens⟩ := (Tree.Spells.number hspells).opens
    have hnumber : (b = ascii '-' || isDigit b) = true := hopens
    have hstops : Stops (ascii '"' :: rest) := stops_cons (by decide) rest
    have hread := Numeral.attempt_read hspells hstops
    rw [htext, List.cons_append] at hread ⊢
    refine attempt_readKey_cons.2 ⟨hnumber, ?_⟩
    have hn := Numeral.number?_ofInt hlow (Int.lt_of_le_of_lt hhigh (by decide))
    rw [attempt_readInt64_cons hnumber, hread, Option.bind_some,
      Tree.integer?_number_eq_some_iff.2 ⟨hn, hlow, hhigh⟩, Option.map_some, Int64.ofInt_toInt]

/-- A name is read as its pieces mean. -/
theorem attempt_readKey {pieces : List Piece} {name : Bytes} (h : Piece.SpellAll pieces name)
    (rest : Bytes) : attempt readKey (ascii '"' :: (name ++ ascii '"' :: rest)) =
      (Piece.key? pieces).map (·, rest) := by
  refine Option.ext fun r => ?_
  obtain ⟨key, rest'⟩ := r
  rw [attempt_readKey_eq_some_iff]
  constructor
  · intro heq
    obtain ⟨hpieces, rfl⟩ := Piece.eq_of_spellAll (fun b hb => (plain_of_mem_encodeInt hb).2) h heq
    rw [Piece.key?_eq_some_iff.2 hpieces]
    rfl
  · intro hkey
    obtain ⟨key', hkey', ⟨⟩⟩ := Option.map_eq_some_iff.1 hkey
    obtain rfl := Piece.key?_eq_some_iff.1 hkey'
    rw [Piece.eq_of_spellAll_map_byte h fun _ => mem_encodeInt]

end Recommender.Json
