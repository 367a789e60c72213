import Recommender.Proofs.Lexemes
import Recommender.Proofs.Keys
import Recommender.Proofs.Reading
import Recommender.Proofs.Variants
import Recommender.Proofs.Table

/-!
# Writing documents

What is written for a value spells a tree that means the value, if the numbers and the instants in
it are read back from their own texts.

* `Shape.isProper` : whether the names of a shape can be told apart.
* `Shape.All` : whether all numbers and instants of a value are of some kind.
* `Shape.exists_spells` : a value is written as a tree that means it.
-/

namespace Recommender.Json

open Text

variable {α : Type}

/-! ### Shapes with different names -/

mutual

/-- Whether no name is given to two members of an object or to two alternatives of a choice. -/
def Shape.isProper : Shape → Bool
  | .int64 | .int32 | .float | .text | .instant => true
  | .choice names => names.Nodup
  | .list element | .table element => element.isProper
  | .record fields => fields.names.Nodup && fields.areProper

@[inherit_doc Shape.isProper]
def Fields.areProper : Fields → Bool
  | .nil => true
  | .cons _ shape others => shape.isProper && others.areProper

end

/-! ### Numbers and instants in a value -/

section All

variable (float : Binary64 → Prop) (instant : Instant → Prop)

mutual

/-- Whether all numbers and all instants in a value are of some kind. -/
def Shape.All : (shape : Shape) → shape.Value → Prop
  | .float, (x : Binary64) => float x
  | .instant, (t : Instant) => instant t
  | .list element, (xs : List element.Value) => ∀ x ∈ xs, element.All x
  | .table element, (t : Table element.Value) => ∀ e ∈ t.entries, element.All e.2
  | .record fields, (values : fields.Values) => fields.All values
  | .int64, _ | .int32, _ | .text, _ | .choice _, _ => True

@[inherit_doc Shape.All]
def Fields.All : (fields : Fields) → fields.Values → Prop
  | .nil, () => True
  | .cons _ shape others, (value, values) => shape.All value ∧ others.All values

end

end All

/-- A number is finite and is read back from its text. -/
def FloatReadsBack (x : Binary64) : Prop :=
  x.isFinite ∧ (Shape.float.decode (encodeFloat x)).toOption = some x

/-- An instant is read back from its text. -/
def InstantReadsBack (t : Instant) : Prop :=
  Instant.parse? t.render = some t

instance : DecidablePred FloatReadsBack := fun _ =>
  @instDecidableAnd _ _ _ ((inferInstance : DecidableEq (Option Binary64)) _ _)

instance : DecidablePred InstantReadsBack := fun t =>
  inferInstanceAs (Decidable (Instant.parse? t.render = some t))

/-! ### Lists of items -/

theorem forall₂_of_forall {α β : Type} {R : α → β → Prop} {xs : List β}
    (h : ∀ x ∈ xs, ∃ t, R t x) : ∃ ts, List.Forall₂ R ts xs := by
  induction xs with
  | nil => exact ⟨[], .nil⟩
  | cons x xs ih =>
    rw [List.forall_mem_cons] at h
    obtain ⟨t, ht⟩ := h.1
    obtain ⟨ts, hts⟩ := ih h.2
    exact ⟨t :: ts, .cons ht hts⟩

theorem intercalate_cons {α : Type} (separator first : List α) (others : List (List α)) :
    separator.intercalate (first :: others) = first ++ others.flatMap (separator ++ ·) := by
  induction others generalizing first with
  | nil => simp
  | cons second others ih => simp [ih]

/-- Texts of items with commas between them. -/
theorem separated_intercalate {β : Type} {Spells : β → Bytes → Prop} {items : List β}
    {texts : List Bytes} (h : List.Forall₂ Spells items texts) :
    Separated Spells true items ([ascii ','].intercalate texts) := by
  have hblank : Blank [] := List.forall_mem_nil _
  have hothers {items : List β} {texts : List Bytes} (h : List.Forall₂ Spells items texts) :
      Separated Spells false items (texts.flatMap ([ascii ','] ++ ·)) := by
    induction h with
    | nil => exact .nil hblank
    | @cons item text items texts hitem _ ih =>
      have hcons : Separated Spells false (item :: items)
          ([] ++ comma false ++ [] ++ text ++ texts.flatMap ([ascii ','] ++ ·)) :=
        .cons hblank hblank hitem ih
      simpa [comma] using hcons
  cases h with
  | nil => exact .nil hblank
  | @cons item text items texts hitem hitems =>
    have hcons : Separated Spells true (item :: items)
        ([] ++ comma true ++ [] ++ text ++ texts.flatMap ([ascii ','] ++ ·)) :=
      .cons hblank hblank hitem (hothers hitems)
    simpa [comma, intercalate_cons] using hcons

/-! ### Names -/

/-- A text in quotes spells the pieces that are written for it. -/
theorem spells_quote (text : String) :
    (Tree.string ((bytesOf text).map Piece.quoted)).Spells (quote text) :=
  .string (Piece.spellAll_quoted (bytesOf text))

theorem spellsMember_encode {t : Tree} {value : Bytes} (h : t.Spells value) (name : String) :
    SpellsMember Tree.Spells ((bytesOf name).map Piece.quoted, t)
      (encodeMember (quote name) value) := by
  have hblank : Blank [] := List.forall_mem_nil _
  have hmember : SpellsMember Tree.Spells ((bytesOf name).map Piece.quoted, t) _ :=
    .mk (Piece.spellAll_quoted (bytesOf name)) hblank hblank h
  simpa [encodeMember, quote] using hmember

/-- The name of a member of a table is written as its identifier. -/
theorem key?_quoted (key : Int64) :
    Piece.key? ((bytesOf (toString key.toInt)).map Piece.quoted) = some key := by
  rw [Piece.key?_eq_some_iff]
  refine List.map_congr_left fun b hb => if_neg fun h => ?_
  exact (plain_of_mem_encodeInt hb).1 h.1

/-! ### Values -/

theorem integer?_ofInt {low high n : Int} (hlow : low ≤ n) (hhigh : n ≤ high)
    (hmin : Int64.minValue.toInt ≤ low) (hmax : high ≤ Int64.maxValue.toInt) :
    (Tree.number (.ofInt n)).integer? low high = some n := by
  have hsize : Int64.maxValue.toInt < UInt64.size := by decide
  exact Tree.integer?_number_eq_some_iff.2
    ⟨Numeral.number?_ofInt (by omega) (by omega), hlow, hhigh⟩

/-- The number of an integer of 64 bits means it. -/
theorem meaning?_int64 (n : Int64) : Shape.int64.meaning? (.number (.ofInt n.toInt)) = some n :=
  (congrArg (Option.map Int64.ofInt) (integer?_ofInt n.minValue_le_toInt n.toInt_le (Int.le_refl _)
    (Int.le_refl _))).trans (congrArg some (Int64.ofInt_toInt n))

theorem exists_spells_float {x : Binary64} (h : FloatReadsBack x) :
    ∃ t : Tree, t.Spells (encodeFloat x) ∧ t.number?.map Number.toBinary64 = some x := by
  obtain ⟨hfinite, hread⟩ := h
  obtain ⟨numeral, hspells⟩ := exists_spells_numberText x
  have htext : encodeFloat x = bytesOf (String.ofList x.numberText) := if_pos hfinite
  rw [← htext] at hspells
  refine ⟨.number numeral, .number hspells, ?_⟩
  exact (Shape.float.toOption_decode (Tree.Spells.number hspells).laidOut).symm.trans hread

theorem text?_quote_bind (text : String) (f : String → Option α) :
    (Piece.text? ((bytesOf text).map Piece.quoted)).bind f = f text := by
  rw [Piece.text?_quoted, Option.bind_some]

theorem finIdxOf?_getElem [BEq α] [LawfulBEq α] {names : List α} (h : names.Nodup)
    (i : Fin names.length) :
    names.finIdxOf? names[i] = some i :=
  List.finIdxOf?_eq_some_iff.2 ⟨rfl, fun _ hlt heq =>
    Nat.ne_of_lt hlt (h.getElem_inj_iff.1 heq)⟩

theorem mapM_eq_some {meaning? : Tree → Option α} {ts : List Tree} {xs : List α}
    (h : List.Forall₂ (fun t x => meaning? t = some x) ts xs) : ts.mapM meaning? = some xs := by
  induction h with
  | nil => rfl
  | cons hx _ ih =>
    rw [List.mapM_cons, hx, ih]
    rfl

theorem foldlM_enter? {meaning? : Tree → Option α} {ms : List (List Piece × Tree)}
    {entries : List (Int64 × α)}
    (h : List.Forall₂ (fun m e => Piece.key? m.1 = some e.1 ∧ meaning? m.2 = some e.2) ms entries)
    (known : Table α) : ms.foldlM (enter? meaning?) known =
      some (entries.foldl (fun t e => t.insert e.1 e.2) known) := by
  induction h generalizing known with
  | nil => rfl
  | cons hm _ ih =>
    rw [List.foldlM_cons, enter?, hm.1, hm.2]
    exact ih _

theorem meet?_named {pieces : List Piece} {name : String} (h : Piece.text? pieces = some name)
    {σ : Type} (fill? : String → Tree → σ → Option σ) (known : σ) (t : Tree) :
    meet? fill? known (pieces, t) = fill? name t known := by
  rw [meet?, h, Option.bind_some]

/-- Members of other names leave the slot of a member alone. -/
theorem foldlM_meet?_cons {own : String} {shape : Shape} {others : Fields}
    {ms : List (List Piece × Tree)}
    (h : ∀ m ∈ ms, ∃ name, Piece.text? m.1 = some name ∧ name ≠ own)
    (slot : Option shape.Value) (slots : others.Slots) :
    ms.foldlM (meet? (Fields.cons own shape others).fill?) (.cons slot slots) =
      (ms.foldlM (meet? others.fill?) slots).map fun slots => .cons slot slots := by
  induction ms generalizing slots with
  | nil => rfl
  | cons m ms ih =>
    obtain ⟨pieces, t⟩ := m
    rw [List.forall_mem_cons] at h
    obtain ⟨⟨name, hname, hne⟩, h⟩ := h
    rw [List.foldlM_cons, List.foldlM_cons, meet?_named hname, meet?_named hname,
      Fields.fill?_other _ _ hne]
    cases others.fill? name t slots with
    | none => rfl
    | some slots => exact ih h slots

theorem Fields.values?_cons {own : String} {shape : Shape} {others : Fields}
    (slot : Option shape.Value) (slots : others.Slots) :
    (cons own shape others).values? (.cons slot slots) =
      slot.bind fun value => (others.values? slots).map fun values => .cons value values := by
  cases slot <;> cases h : others.values? slots <;> simp only [values?, Slots.cons, h] <;> rfl

/-- The values of members, met one after the other. -/
def Fields.valuesOf? (fields : Fields) (ms : List (List Piece × Tree)) : Option fields.Values :=
  (ms.foldlM (meet? fields.fill?) fields.noSlots).bind fields.values?

/-- The first member is the first one of the shape, and the others have other names. -/
theorem Fields.valuesOf?_cons {own : String} {shape : Shape} {others : Fields}
    {pieces : List Piece} {t : Tree} {value : shape.Value} {ms : List (List Piece × Tree)}
    (hname : Piece.text? pieces = some own) (hvalue : shape.meaning? t = some value)
    (h : ∀ m ∈ ms, ∃ name, Piece.text? m.1 = some name ∧ name ≠ own) :
    (cons own shape others).valuesOf? ((pieces, t) :: ms) =
      (others.valuesOf? ms).map fun values => .cons value values := by
  have hfirst : meet? (cons own shape others).fill? (.cons none others.noSlots) (pieces, t) =
      some (.cons (some value) others.noSlots) := by
    rw [meet?_named hname, fill?_free, hvalue]
    rfl
  have hfold : ((pieces, t) :: ms).foldlM (meet? (cons own shape others).fill?)
        (cons own shape others).noSlots =
      (ms.foldlM (meet? others.fill?) others.noSlots).map fun slots =>
        .cons (some value) slots := by
    rw [← foldlM_meet?_cons h, List.foldlM_cons]
    exact congrArg (Option.bind · _) hfirst
  rw [valuesOf?, valuesOf?, hfold]
  cases ms.foldlM (meet? others.fill?) others.noSlots with
  | none => rfl
  | some slots => rw [Option.map_some, Option.bind_some, values?_cons, Option.bind_some]; rfl

mutual

/-- A value is written as a tree that means it. -/
theorem Shape.exists_spells (shape : Shape) (hproper : shape.isProper) (value : shape.Value)
    (hall : shape.All FloatReadsBack InstantReadsBack value) :
    ∃ t : Tree, t.Spells (shape.encode value) ∧ shape.meaning? t = some value := by
  match shape, value with
  | .int64, (n : Int64) =>
    exact ⟨_, .number (Numeral.spells_ofInt n.toInt), meaning?_int64 n⟩
  | .int32, (n : Int32) =>
    refine ⟨_, .number (Numeral.spells_ofInt n.toInt), ?_⟩
    have hn := integer?_ofInt n.minValue_le_toInt n.toInt_le (by decide) (by decide)
    exact (congrArg (Option.map Int32.ofInt) hn).trans (congrArg some (Int32.ofInt_toInt n))
  | .float, (x : Binary64) => exact exists_spells_float hall
  | .text, (text : String) => exact ⟨_, spells_quote text, Piece.text?_quoted text⟩
  | .instant, (t : Instant) =>
    exact ⟨_, spells_quote t.render, (text?_quote_bind ..).trans hall⟩
  | .choice names, (i : Fin names.length) =>
    exact ⟨_, spells_quote names[i],
      (text?_quote_bind ..).trans (finIdxOf?_getElem (of_decide_eq_true hproper) i)⟩
  | .list element, (xs : List element.Value) =>
    obtain ⟨ts, hts⟩ := forall₂_of_forall fun x hx => element.exists_spells hproper x (hall x hx)
    refine ⟨.array ts, .array (separated_intercalate (List.forall₂_map_right_iff.2 ?_)), ?_⟩
    · exact hts.imp fun _ _ h => h.1
    · exact mapM_eq_some (hts.imp fun _ _ h => h.2)
  | .table element, (t : Table element.Value) =>
    obtain ⟨ms, hms⟩ := forall₂_of_forall (R := fun m (e : Int64 × element.Value) =>
        SpellsMember Tree.Spells m
            (encodeMember (quote (toString e.1.toInt)) (element.encode e.2)) ∧
          Piece.key? m.1 = some e.1 ∧ element.meaning? m.2 = some e.2) fun e he => by
      obtain ⟨t, hspells, hmeaning⟩ := element.exists_spells hproper e.2 (hall e he)
      exact ⟨_, spellsMember_encode hspells (toString e.1.toInt), key?_quoted e.1, hmeaning⟩
    refine ⟨.object ms, .object (separated_intercalate (List.forall₂_map_right_iff.2 ?_)), ?_⟩
    · exact hms.imp fun _ _ h => h.1
    · exact (foldlM_enter? (hms.imp fun _ _ h => h.2) Table.empty).trans
        (congrArg some t.ofList_entries)
  | .record fields, (values : fields.Values) =>
    rw [Shape.isProper, Bool.and_eq_true, decide_eq_true_eq] at hproper
    obtain ⟨ms, hms, -, hmeaning⟩ := fields.exists_spells hproper.2 hproper.1 values hall
    exact ⟨.object ms, .object (separated_intercalate hms), hmeaning⟩

theorem Fields.exists_spells (fields : Fields) (hproper : fields.areProper)
    (hnodup : fields.names.Nodup) (values : fields.Values)
    (hall : fields.All FloatReadsBack InstantReadsBack values) :
    ∃ ms : List (List Piece × Tree),
      List.Forall₂ (SpellsMember Tree.Spells) ms (fields.encode values) ∧
      (∀ m ∈ ms, ∃ name, Piece.text? m.1 = some name ∧ name ∈ fields.names) ∧
      fields.valuesOf? ms = some values := by
  match fields, values with
  | .nil, () => exact ⟨[], .nil, List.forall_mem_nil _, rfl⟩
  | .cons own shape others, (value, values) =>
    rw [Fields.areProper, Bool.and_eq_true] at hproper
    rw [Fields.names, List.nodup_cons] at hnodup
    obtain ⟨t, hspells, hmeaning⟩ := shape.exists_spells hproper.1 value hall.1
    obtain ⟨ms, hms, hnames, hvalues⟩ :=
      others.exists_spells hproper.2 hnodup.2 values hall.2
    refine ⟨((bytesOf own).map Piece.quoted, t) :: ms,
      .cons (spellsMember_encode hspells own) hms, ?_, ?_⟩
    · refine List.forall_mem_cons.2 ⟨⟨own, Piece.text?_quoted own, List.mem_cons_self⟩, ?_⟩
      exact fun m hm => (hnames m hm).imp fun name h => ⟨h.1, List.mem_cons_of_mem own h.2⟩
    · have hothers : ∀ m ∈ ms, ∃ name, Piece.text? m.1 = some name ∧ name ≠ own :=
        fun m hm => (hnames m hm).imp fun name h => ⟨h.1, ne_of_mem_of_not_mem h.2 hnodup.1⟩
      rw [Fields.valuesOf?_cons (Piece.text?_quoted own) hmeaning hothers, hvalues]
      rfl

end

end Recommender.Json
