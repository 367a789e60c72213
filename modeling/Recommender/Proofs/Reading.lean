import Recommender.Proofs.Scalars

/-!
# Reading documents

A document is read as it means, however it is laid out; a tree without a meaning is refused.

* `attempt_readElements`, `attempt_readMembers` : the elements of an array and the members of an
  object are read one after the other.
* `Shape.attempt_read` : a tree is read as it means.
* `Shape.toOption_decode`, `Shape.toOption_decodeFront` : so are whole texts.
-/

namespace Recommender.Json

open Text

variable {β σ : Type}

/-! ### Arrays and objects -/

/-- Elements are read as they mean if each of them is. -/
theorem attempt_readElements {read : Reader β} {meaning? : Tree → Option β}
    (hread : ∀ {t text rest}, Tree.Spells t text → Stops rest →
      attempt read (text ++ rest) = (meaning? t).map (·, rest))
    {first : Bool} {ts : List Tree} {text : Bytes} (h : Separated Tree.Spells first ts text)
    {fuel : Nat} (hfuel : text.length < fuel) (rest : Bytes) :
    attempt (readElements read fuel first) (text ++ ascii ']' :: rest) =
      (ts.mapM meaning?).map (·, ascii ']' :: rest) := by
  induction h generalizing fuel with
  | @nil first gap hgap =>
    cases fuel with
    | zero => exact absurd hfuel (Nat.not_lt_zero _)
    | succ fuel =>
      rw [readElements, attempt_bind, attempt_moreElements_end hgap]
      rfl
  | @cons first t ts gap gap' text others hgap hgap' h hothers ih =>
    cases fuel with
    | zero => exact absurd hfuel (Nat.not_lt_zero _)
    | succ fuel =>
      have hlength := h.length_pos
      simp only [List.length_append] at hfuel
      have hvalue := hread h (hothers.stops (stops_bracket rest))
      have hrest := ih (show others.length < fuel by omega)
      simp only [List.append_assoc, readElements, attempt_bind, attempt_ite, if_true,
        h.attempt_moreElements hgap hgap', Option.bind_some, hvalue, List.mapM_cons]
      cases meaning? t with
      | none => rfl
      | some x =>
        rw [Option.map_some, Option.bind_some, hrest]
        cases ts.mapM meaning? <;> rfl

/-- Members are read one after the other into what is known. -/
theorem attempt_readMembers {read : σ → Reader σ} {step? : σ → List Piece × Tree → Option σ}
    (hread : ∀ {known member text rest}, SpellsMember Tree.Spells member text → Stops rest →
      attempt (read known) (text ++ rest) = (step? known member).map (·, rest))
    {first : Bool} {ms : List (List Piece × Tree)} {text : Bytes}
    (h : Separated (SpellsMember Tree.Spells) first ms text) {fuel : Nat}
    (hfuel : text.length < fuel) (known : σ) (rest : Bytes) :
    attempt (readMembers read fuel first known) (text ++ ascii '}' :: rest) =
      (ms.foldlM step? known).map (·, ascii '}' :: rest) := by
  induction h generalizing fuel known with
  | @nil first gap hgap =>
    cases fuel with
    | zero => exact absurd hfuel (Nat.not_lt_zero _)
    | succ fuel =>
      rw [readMembers, attempt_bind, attempt_moreMembers_end hgap]
      rfl
  | @cons first member ms gap gap' text others hgap hgap' h hothers ih =>
    cases fuel with
    | zero => exact absurd hfuel (Nat.not_lt_zero _)
    | succ fuel =>
      have hvalue : attempt (read known) (text ++ (others ++ ascii '}' :: rest)) = _ :=
        hread h (hothers.stops (stops_brace rest))
      have hlength : 0 < text.length := by
        obtain ⟨text, rfl⟩ := h.opens
        exact Nat.succ_pos _
      simp only [List.length_append] at hfuel
      have hrest (known : σ) := ih (show others.length < fuel by omega) known
      simp only [List.append_assoc, readMembers, attempt_bind, attempt_ite, if_true,
        h.attempt_moreMembers hgap hgap', Option.bind_some, hvalue, List.foldlM_cons]
      cases step? known member with
      | none => rfl
      | some known => exact hrest known

/-- A member of a table is read as it means if its value is. -/
theorem attempt_readEntry {read : Reader β} {meaning? : Tree → Option β}
    (hblanks : ∀ {gap input}, Blank gap → attempt read (gap ++ input) = attempt read input)
    (hread : ∀ {t text rest}, Tree.Spells t text → Stops rest →
      attempt read (text ++ rest) = (meaning? t).map (·, rest))
    {known : Table β} {member : List Piece × Tree} {text rest : Bytes}
    (h : SpellsMember Tree.Spells member text) (hrest : Stops rest) :
    attempt (readEntry read known) (text ++ rest) =
      (enter? meaning? known member).map (·, rest) := by
  obtain @⟨pieces, t, name, gap, gap', text, hname, hgap, hgap', h⟩ := h
  have hcolon := attempt_mark hgap ':' (show isBlank (ascii ':') = false from rfl)
  simp only [List.append_assoc, List.cons_append, readEntry, enter?, attempt_bind,
    attempt_readKey hname]
  cases Piece.key? pieces with
  | none => rfl
  | some key =>
    rw [Option.map_some, Option.bind_some, hcolon, if_pos rfl, Option.bind_some, hblanks hgap',
      hread h hrest]
    cases meaning? t <;> rfl

/-- Reads a list of what a reader reads. -/
def readList (read : Reader β) : Reader (List β) := do
  if (← token) = ascii '[' then do
    advance
    let xs ← fuelled fun fuel => readElements read fuel true
    advance
    pure xs
  else refuse

theorem attempt_readList {read : Reader β} {meaning? : Tree → Option β}
    (hread : ∀ {t text rest}, Tree.Spells t text → Stops rest →
      attempt read (text ++ rest) = (meaning? t).map (·, rest))
    {t : Tree} {text : Bytes} (h : t.Spells text) (rest : Bytes) :
    attempt (readList read) (text ++ rest) =
      (t.elements?.bind fun ts => ts.mapM meaning?).map (·, rest) := by
  obtain ⟨b, hopens, htoken⟩ := h.attempt_token rest
  rw [readList, attempt_bind, htoken, Option.bind_some, attempt_ite]
  match t, h, hopens with
  | .array ts, .array h, rfl =>
    rw [if_pos rfl, attempt_bind, attempt_advance, Option.bind_some, attempt_bind, attempt_fuelled]
    simp only [List.cons_append, List.append_assoc, List.nil_append, List.tail_cons]
    rw [attempt_readElements hread h (by rw [List.length_append]; omega), Tree.elements?,
      Option.bind_some]
    cases ts.mapM meaning? <;> rfl
  | .number _, _, hopens =>
    rw [if_neg (ne_of_opens_number hopens rfl)]
    exact attempt_refuse _
  | .null, _, rfl | .bool true, _, rfl | .bool false, _, rfl | .string _, _, rfl
  | .object _, _, rfl => exact attempt_refuse _

/-- Reads a table of what a reader reads. -/
def readTable (read : Reader β) : Reader (Table β) := do
  if (← token) = ascii '{' then do
    advance
    let t ← fuelled fun fuel => readMembers (readEntry read) fuel true Table.empty
    advance
    pure t
  else refuse

theorem attempt_readTable {read : Reader β} {meaning? : Tree → Option β}
    (hblanks : ∀ {gap input}, Blank gap → attempt read (gap ++ input) = attempt read input)
    (hread : ∀ {t text rest}, Tree.Spells t text → Stops rest →
      attempt read (text ++ rest) = (meaning? t).map (·, rest))
    {t : Tree} {text : Bytes} (h : t.Spells text) (rest : Bytes) :
    attempt (readTable read) (text ++ rest) =
      (t.members?.bind fun ms => ms.foldlM (enter? meaning?) Table.empty).map (·, rest) := by
  obtain ⟨b, hopens, htoken⟩ := h.attempt_token rest
  rw [readTable, attempt_bind, htoken, Option.bind_some, attempt_ite]
  match t, h, hopens with
  | .object ms, .object h, rfl =>
    rw [if_pos rfl, attempt_bind, attempt_advance, Option.bind_some, attempt_bind, attempt_fuelled]
    simp only [List.cons_append, List.append_assoc, List.nil_append, List.tail_cons]
    rw [attempt_readMembers (attempt_readEntry hblanks hread) h
      (by rw [List.length_append]; omega), Tree.members?, Option.bind_some]
    cases ms.foldlM (enter? meaning?) Table.empty <;> rfl
  | .number _, _, hopens =>
    rw [if_neg (ne_of_opens_number hopens rfl)]
    exact attempt_refuse _
  | .null, _, rfl | .bool true, _, rfl | .bool false, _, rfl | .string _, _, rfl
  | .array _, _, rfl => exact attempt_refuse _

/-! ### Blanks in front -/

/-- Blanks in front of a value do not matter. -/
theorem Shape.attempt_read_blanks (shape : Shape) {gap : Bytes} (hgap : Blank gap)
    (input : Bytes) : attempt shape.read (gap ++ input) = attempt shape.read input := by
  have hnumber : attempt readNumber (gap ++ input) = attempt readNumber input :=
    attempt_token_bind hgap ..
  have hinteger (low high : Int) :
      attempt (readInteger low high) (gap ++ input) = attempt (readInteger low high) input := by
    rw [attempt_readInteger_eq, attempt_readInteger_eq, hnumber]
  have htext : attempt readText (gap ++ input) = attempt readText input :=
    attempt_token_bind hgap ..
  cases shape with
  | int64 =>
    show attempt (Int64.ofInt <$> _) _ = attempt (Int64.ofInt <$> _) _
    rw [attempt_map, attempt_map, hinteger]
  | int32 =>
    show attempt (Int32.ofInt <$> _) _ = attempt (Int32.ofInt <$> _) _
    rw [attempt_map, attempt_map, hinteger]
  | float =>
    show attempt (Number.toBinary64 <$> _) _ = attempt (Number.toBinary64 <$> _) _
    rw [attempt_map, attempt_map, hnumber]
  | text => exact htext
  | instant =>
    show attempt readInstant _ = attempt readInstant _
    rw [readInstant, attempt_bind, attempt_bind, htext]
  | choice | list | table | record => exact attempt_token_bind hgap ..

/-! ### Records -/

namespace Fields

variable {own name : String} {shape : Shape} {others : Fields}

theorem readMember_free (slots : others.Slots) :
    (cons own shape others).readMember own (.cons none slots) =
      mark ':' >>= fun _ => shape.read >>= fun value => pure (.cons (some value) slots) :=
  if_pos rfl

theorem readMember_taken (value : shape.Value) (slots : others.Slots) :
    (cons own shape others).readMember own (.cons (some value) slots) = throw .mismatched :=
  if_pos rfl

theorem readMember_other (h : name ≠ own) (slot : Option shape.Value) (slots : others.Slots) :
    (cons own shape others).readMember name (.cons slot slots) =
      others.readMember name slots >>= fun slots => pure (.cons slot slots) :=
  if_neg h

theorem readInOrder_cons (own : String) (shape : Shape) (others : Fields) (first : Bool) :
    (cons own shape others).readInOrder first =
      (do
        if ← moreElements first then do
          let value ← shape.read
          let values ← others.readInOrder false
          pure (.cons value values)
        else throw .mismatched) :=
  rfl

end Fields

/-- Nothing but a bracket comes after the last element. -/
theorem attempt_mark_bracket {first : Bool} {ts : List Tree} {text : Bytes}
    (h : Separated Tree.Spells first ts text) (rest : Bytes) :
    attempt (mark ']') (text ++ ascii ']' :: rest) =
      match ts with
      | [] => some ((), rest)
      | _ :: _ => none := by
  cases h with
  | nil hgap => exact attempt_mark hgap ']' rfl rest
  | cons hgap hgap' h =>
    simp only [List.append_assoc]
    cases first with
    | true =>
      obtain ⟨b, text, rfl, hopens⟩ := h.opens
      have hmark := attempt_mark (hgap.append hgap') ']' hopens.ne.1
      simp only [List.append_assoc] at hmark
      exact (hmark _).trans (if_neg hopens.ne.2.1)
    | false => exact attempt_mark hgap ']' rfl _

/-- A member of an object is read as it means if its value is, whatever its name. -/
theorem attempt_readNamedMember {fields : Fields}
    (hread : ∀ {t : Tree} {gap gap' text rest : Bytes} (name : String) (slots : fields.Slots),
      Blank gap → Blank gap' → t.Spells text → Stops rest →
      attempt (fields.readMember name slots) (gap ++ ascii ':' :: (gap' ++ (text ++ rest))) =
        (fields.fill? name t slots).map (·, rest))
    {slots : fields.Slots} {member : List Piece × Tree} {text rest : Bytes}
    (h : SpellsMember Tree.Spells member text) (hrest : Stops rest) :
    attempt (readName >>= fun name => fields.readMember name slots) (text ++ rest) =
      (meet? fields.fill? slots member).map (·, rest) := by
  obtain @⟨pieces, t, name, gap, gap', text, hname, hgap, hgap', h⟩ := h
  simp only [List.append_assoc, List.cons_append, readName, meet?, attempt_bind, attempt_advance,
    Option.bind_some, List.tail_cons, attempt_quotedText hname]
  cases Piece.text? pieces with
  | none => rfl
  | some name => exact hread name slots hgap hgap' h hrest

theorem Fields.inOrder?_cons (own : String) (shape : Shape) (others : Fields) (t : Tree)
    (ts : List Tree) : (cons own shape others).inOrder? (t :: ts) =
      (shape.meaning? t).bind fun value =>
        (others.inOrder? ts).map fun values => .cons value values := rfl

/-- Reads an object, whose opening brace stands in front. -/
def Fields.readObject (fields : Fields) : Reader fields.Values := do
  advance
  let slots ← fuelled fun fuel => readMembers
    (fun slots => do fields.readMember (← readName) slots) fuel true fields.noSlots
  match fields.values? slots with
  | some values => do
    advance
    pure values
  | none => throw .mismatched

theorem attempt_readObject {fields : Fields}
    (hread : ∀ {t : Tree} {gap gap' text rest : Bytes} (name : String) (slots : fields.Slots),
      Blank gap → Blank gap' → t.Spells text → Stops rest →
      attempt (fields.readMember name slots) (gap ++ ascii ':' :: (gap' ++ (text ++ rest))) =
        (fields.fill? name t slots).map (·, rest))
    {ms : List (List Piece × Tree)} {text : Bytes}
    (h : Separated (SpellsMember Tree.Spells) true ms text) (rest : Bytes) :
    attempt fields.readObject (ascii '{' :: text ++ [ascii '}'] ++ rest) =
      ((ms.foldlM (meet? fields.fill?) fields.noSlots).bind fields.values?).map (·, rest) := by
  rw [Fields.readObject, attempt_bind, attempt_advance, Option.bind_some, attempt_bind,
    attempt_fuelled]
  simp only [List.cons_append, List.append_assoc, List.nil_append, List.tail_cons]
  rw [attempt_readMembers (attempt_readNamedMember hread) h (by rw [List.length_append]; omega)]
  cases ms.foldlM (meet? fields.fill?) fields.noSlots with
  | none => rfl
  | some slots =>
    rw [Option.map_some, Option.bind_some, Option.bind_some]
    cases fields.values? slots <;> rfl

mutual

/-- A tree is read as it means. -/
theorem Shape.attempt_read (shape : Shape) {t : Tree} {text rest : Bytes} (h : t.Spells text)
    (hrest : Stops rest) :
    attempt shape.read (text ++ rest) = (shape.meaning? t).map (·, rest) := by
  match shape with
  | .int64 => exact attempt_map_of (attempt_readInteger h hrest ..) Int64.ofInt
  | .int32 => exact attempt_map_of (attempt_readInteger h hrest ..) Int32.ofInt
  | .float => exact attempt_map_of (attempt_readNumber h hrest) Number.toBinary64
  | .text => exact attempt_readText h rest
  | .instant => exact attempt_readInstant h rest
  | .choice names => exact attempt_readChoice h names rest
  | .list element => exact attempt_readList element.attempt_read h rest
  | .table element =>
    exact attempt_readTable (element.attempt_read_blanks · _) element.attempt_read h rest
  | .record fields =>
    obtain ⟨b, hopens, htoken⟩ := h.attempt_token rest
    refine (attempt_bind ..).trans ?_
    rw [htoken, Option.bind_some]
    match t, h, hopens with
    | .object ms, .object h, rfl =>
      exact attempt_readObject fields.attempt_readMember h rest
    | .array ts, .array h, rfl =>
      have helements := fields.attempt_readInOrder h rest
      refine Eq.trans (attempt_bind ..) ?_
      rw [attempt_advance, Option.bind_some]
      simp only [List.cons_append, List.append_assoc, List.nil_append, List.tail_cons]
      exact helements
    | .number _, _, hopens =>
      rw [if_neg (ne_of_opens_number hopens rfl), if_neg (ne_of_opens_number hopens rfl)]
      exact attempt_refuse _
    | .null, _, rfl | .bool true, _, rfl | .bool false, _, rfl | .string _, _, rfl =>
      exact attempt_refuse _

/-- A member is read as it means. -/
theorem Fields.attempt_readMember (fields : Fields) {t : Tree} {gap gap' text rest : Bytes}
    (name : String) (slots : fields.Slots) (hgap : Blank gap) (hgap' : Blank gap')
    (h : t.Spells text) (hrest : Stops rest) :
    attempt (fields.readMember name slots) (gap ++ ascii ':' :: (gap' ++ (text ++ rest))) =
      (fields.fill? name t slots).map (·, rest) := by
  have hcolon (rest : Bytes) : attempt (mark ':') (gap ++ ascii ':' :: rest) = some ((), rest) :=
    attempt_mark hgap ':' rfl rest
  match fields with
  | .nil =>
    show attempt (mark ':' >>= fun _ => ignoreValue) _ = some ((), rest)
    rw [attempt_bind, hcolon, Option.bind_some, attempt_ignoreValue hgap' h hrest]
  | .cons own shape others =>
    obtain ⟨slot, slots⟩ := slots
    change attempt (Fields.readMember _ name (.cons slot slots)) _ =
      (Fields.fill? _ name t (.cons slot slots)).map _
    by_cases hname : name = own
    · subst hname
      cases slot with
      | some value =>
        rw [Fields.readMember_taken, Fields.fill?_taken]
        rfl
      | none =>
        rw [Fields.readMember_free, Fields.fill?_free, attempt_bind, hcolon, Option.bind_some,
          attempt_bind, shape.attempt_read_blanks hgap', shape.attempt_read h hrest]
        cases shape.meaning? t <;> rfl
    · rw [Fields.readMember_other hname, Fields.fill?_other _ _ hname, attempt_bind,
        others.attempt_readMember name slots hgap hgap' h hrest]
      cases others.fill? name t slots <;> rfl

/-- The elements of an array are read as they mean as members in order. -/
theorem Fields.attempt_readInOrder (fields : Fields) {first : Bool} {ts : List Tree} {text : Bytes}
    (h : Separated Tree.Spells first ts text) (rest : Bytes) :
    attempt (fields.readInOrder first >>= fun values => mark ']' >>= fun _ => pure values)
      (text ++ ascii ']' :: rest) = (fields.inOrder? ts).map (·, rest) := by
  match fields with
  | .nil =>
    show attempt (mark ']' >>= fun _ => pure ()) _ = _
    rw [attempt_bind, attempt_mark_bracket h]
    cases ts <;> rfl
  | .cons own shape others =>
    rw [Fields.readInOrder_cons, attempt_bind, attempt_bind]
    cases h with
    | nil hgap =>
      rw [attempt_moreElements_end hgap]
      rfl
    | @cons _ t ts gap gap' text texts hgap hgap' h hothers =>
      have hvalue := shape.attempt_read h (hothers.stops (stops_bracket rest))
      have hrest := others.attempt_readInOrder hothers rest
      simp only [List.append_assoc, h.attempt_moreElements hgap hgap', Option.bind_some, if_true,
        attempt_bind, hvalue]
      rw [Fields.inOrder?_cons]
      cases shape.meaning? t with
      | none => rfl
      | some value =>
        simp only [attempt_bind, attempt_pure] at hrest
        simp only [Option.map_some, Option.bind_some, attempt_pure, Option.bind_assoc]
        have hcons := congrArg (Option.map fun r =>
          ((.cons value r.1 : (Fields.cons own shape others).Values), r.2)) hrest
        simp only [Option.map_bind, Option.map_map, Function.comp_def, Option.map_some] at hcons
        rw [hcons, Option.map_map]
        rfl

end

/-! ### Whole texts -/

namespace Shape

variable (shape : Shape) {t : Tree} {text : Bytes}

theorem attempt_read_laidOut (h : t.LaidOut text) :
    ∃ gap, Blank gap ∧ attempt shape.read text = (shape.meaning? t).map (·, gap) := by
  obtain @⟨gap, gap', text, hgap, h, hgap'⟩ := h
  have hstops : Stops gap' := by
    have hstops := hgap'.stops stops_nil
    rwa [List.append_nil] at hstops
  exact ⟨gap', hgap', by
    rw [List.append_assoc, shape.attempt_read_blanks hgap, shape.attempt_read h hstops]⟩

/-- A text that is one document is understood as its tree, however it is laid out. -/
theorem toOption_decode (h : t.LaidOut text) :
    (shape.decode text).toOption = shape.meaning? t := by
  obtain ⟨gap, hgap, hread⟩ := shape.attempt_read_laidOut h
  have hall : gap.all isBlank := List.all_eq_true.2 hgap
  show ((shape.read text) >>= fun r =>
    if r.2.all isBlank then pure r.1 else throw Fault.malformed).toOption = _
  rw [toOption_bind, ← attempt, hread]
  cases shape.meaning? t with
  | none => rfl
  | some value => exact congrArg Except.toOption (if_pos hall)

/-- So is a text that starts with a document, if nothing else comes after it. -/
theorem toOption_decodeFront (h : t.LaidOut text) :
    (shape.decodeFront text).toOption = shape.meaning? t := by
  obtain ⟨gap, -, hread⟩ := shape.attempt_read_laidOut h
  show ((shape.read text) >>= fun r => pure r.1).toOption = _
  rw [toOption_bind, ← attempt, hread]
  cases shape.meaning? t <;> rfl

end Shape

end Recommender.Json
