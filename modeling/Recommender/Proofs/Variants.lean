import Recommender.Proofs.Meaning

/-!
# Variants of a document

Two trees are variants of each other where a shape is expected if they differ in the order of the
members of objects and in members that the shape does not have, at any depth. Variants mean the
same.

* `Shape.Variant` : trees that are variants of each other.
* `Fields.fill?_comm`, `Fields.fill?_of_not_mem` : members may be met in any order, and others do
  not count.
* `Shape.Variant.meaning?_eq` : variants mean the same.
-/

namespace Recommender.Json

open Text

/-! ### Members by their names -/

namespace Fields

/-- The names of the members. -/
def names : Fields → List String
  | .nil => []
  | .cons name _ others => name :: others.names

/-- The shape of the member of a name. -/
def shape? : Fields → String → Option Shape
  | .nil, _ => none
  | .cons own shape others, name => if name = own then some shape else others.shape? name

/-- The shape of the member at a place. -/
def shapeAt? : Fields → Nat → Option Shape
  | .nil, _ => none
  | .cons _ shape _, 0 => some shape
  | .cons _ _ others, place + 1 => others.shapeAt? place

/-- A member that the shape does not have changes nothing. -/
theorem fill?_of_not_mem {fields : Fields} {name : String} (h : name ∉ fields.names) (t : Tree)
    (slots : fields.Slots) : fields.fill? name t slots = some slots := by
  cases fields with
  | nil => rfl
  | cons own shape others =>
    obtain ⟨slot, slots⟩ := slots
    rw [names, List.mem_cons, not_or] at h
    exact (fill?_other t slots h.1 slot).trans (by rw [fill?_of_not_mem h.2]; rfl)

/-- Members may be met in any order. -/
theorem fill?_comm (fields : Fields) (name name' : String) (t t' : Tree) (slots : fields.Slots) :
    (fields.fill? name t slots).bind (fields.fill? name' t') =
      (fields.fill? name' t' slots).bind (fields.fill? name t) := by
  cases fields with
  | nil => rfl
  | cons own shape others =>
    obtain ⟨slot, slots⟩ := slots
    change (fill? _ name t (.cons slot slots)).bind _ = (fill? _ name' t' (.cons slot slots)).bind _
    by_cases h : name = own <;> by_cases h' : name' = own
    · -- the second of two members of one name is refused
      subst h h'
      cases slot with
      | some value => simp only [fill?_taken, Option.bind_none]
      | none =>
        simp only [fill?_free, Option.bind_map, Function.comp_def, fill?_taken,
          Option.bind_fun_none]
    · subst h
      cases slot with
      | some value =>
        simp only [fill?_taken, fill?_other _ _ h', Option.bind_none, Option.bind_map,
          Function.comp_def, Option.bind_fun_none]
      | none =>
        cases hvalue : shape.meaning? t <;> cases hslots : others.fill? name' t' slots <;>
          simp [fill?_free, fill?_other _ _ h', hvalue, hslots]
    · subst h'
      cases slot with
      | some value =>
        simp only [fill?_taken, fill?_other _ _ h, Option.bind_none, Option.bind_map,
          Function.comp_def, Option.bind_fun_none]
      | none =>
        cases hvalue : shape.meaning? t' <;> cases hslots : others.fill? name t slots <;>
          simp [fill?_free, fill?_other _ _ h, hvalue, hslots]
    · have ih := congrArg
        (Option.map fun slots => (.cons slot slots : (cons own shape others).Slots))
        (fill?_comm others name name' t t' slots)
      simpa only [fill?_other _ _ h, fill?_other _ _ h', Option.bind_map, Option.map_bind,
        Function.comp_def] using ih

/-- A member counts by what it means. -/
theorem fill?_congr {fields : Fields} {name : String} {shape : Shape} {t t' : Tree}
    (hshape : fields.shape? name = some shape) (h : shape.meaning? t = shape.meaning? t')
    (slots : fields.Slots) : fields.fill? name t slots = fields.fill? name t' slots := by
  cases fields with
  | nil => cases hshape
  | cons own shape' others =>
    obtain ⟨slot, slots⟩ := slots
    change fill? _ name t (.cons slot slots) = fill? _ name t' (.cons slot slots)
    rw [shape?] at hshape
    by_cases hname : name = own
    · rw [if_pos hname] at hshape
      obtain rfl := Option.some.inj hshape
      subst hname
      cases slot with
      | some value => simp only [fill?_taken]
      | none => simp only [fill?_free, h]
    · rw [if_neg hname] at hshape
      simp only [fill?_other _ _ hname, fill?_congr hshape h]

/-- An element counts by what it means. -/
theorem inOrder?_congr {fields : Fields} {shape : Shape} {before : List Tree} {t t' : Tree}
    (after : List Tree) (hshape : fields.shapeAt? before.length = some shape)
    (h : shape.meaning? t = shape.meaning? t') :
    fields.inOrder? (before ++ t :: after) = fields.inOrder? (before ++ t' :: after) := by
  cases fields with
  | nil => cases hshape
  | cons own shape' others =>
    cases before with
    | nil =>
      obtain rfl := Option.some.inj hshape
      simp only [List.nil_append, inOrder?, h]
    | cons first before =>
      have hshape : others.shapeAt? before.length = some shape := hshape
      have ih := inOrder?_congr after hshape h
      simp only [List.cons_append, inOrder?, ih]

end Fields

/-! ### Variants -/

/-- Trees that are variants of each other where a shape is expected. -/
inductive Shape.Variant : Shape → Tree → Tree → Prop
  /-- A tree is a variant of itself. -/
  | refl (shape : Shape) (t : Tree) : Variant shape t t
  /-- Being variants goes both ways. -/
  | symm {shape : Shape} {t t' : Tree} : Variant shape t t' → Variant shape t' t
  /-- A variant of a variant is a variant. -/
  | trans {shape : Shape} {t t' t'' : Tree} : Variant shape t t' → Variant shape t' t'' →
    Variant shape t t''
  /-- Members may stand in any order. -/
  | reorder {fields : Fields} {members members' : List (List Piece × Tree)} :
    members.Perm members' → Variant (.record fields) (.object members) (.object members')
  /-- There may be a member that the shape does not have, whatever its value. -/
  | extend {fields : Fields} {pieces : List Piece} {name : String} (t : Tree)
    (members : List (List Piece × Tree)) : Piece.text? pieces = some name → name ∉ fields.names →
    Variant (.record fields) (.object members) (.object ((pieces, t) :: members))
  /-- A member may be replaced by a variant. -/
  | member {fields : Fields} {pieces : List Piece} {name : String} {shape : Shape} {t t' : Tree}
    (before after : List (List Piece × Tree)) : Piece.text? pieces = some name →
    fields.shape? name = some shape → Variant shape t t' →
    Variant (.record fields) (.object (before ++ (pieces, t) :: after))
      (.object (before ++ (pieces, t') :: after))
  /-- An element that stands for a member may be replaced by a variant. -/
  | place {fields : Fields} {shape : Shape} {before : List Tree} {t t' : Tree} (after : List Tree) :
    fields.shapeAt? before.length = some shape → Variant shape t t' →
    Variant (.record fields) (.array (before ++ t :: after)) (.array (before ++ t' :: after))
  /-- An element of a list may be replaced by a variant. -/
  | element {shape : Shape} {t t' : Tree} (before after : List Tree) : Variant shape t t' →
    Variant (.list shape) (.array (before ++ t :: after)) (.array (before ++ t' :: after))
  /-- A member of a table may be replaced by a variant. -/
  | entry {shape : Shape} {t t' : Tree} (before after : List (List Piece × Tree))
    (pieces : List Piece) : Variant shape t t' →
    Variant (.table shape) (.object (before ++ (pieces, t) :: after))
      (.object (before ++ (pieces, t') :: after))

/-- Steps that may be made in any order may be made in any order. -/
theorem foldlM_perm {σ β : Type} {step : σ → β → Option σ}
    (hcomm : ∀ s a b, (step s a).bind (step · b) = (step s b).bind (step · a)) {as bs : List β}
    (h : as.Perm bs) (s : σ) : as.foldlM step s = bs.foldlM step s := by
  induction h generalizing s with
  | nil => rfl
  | cons a _ ih => simp only [List.foldlM_cons, ih]
  | swap a b as =>
    simp only [List.foldlM_cons, Option.bind_eq_bind, ← Option.bind_assoc, hcomm s a b]
  | trans _ _ ih ih' => rw [ih, ih']

/-- A step that does the same leads to the same. -/
theorem foldlM_congr_middle {σ β : Type} {step : σ → β → Option σ} {b b' : β}
    (h : ∀ s, step s b = step s b') (before after : List β) (s : σ) :
    (before ++ b :: after).foldlM step s = (before ++ b' :: after).foldlM step s := by
  simp only [List.foldlM_append, List.foldlM_cons, h]

theorem meet?_comm (fields : Fields) (slots : fields.Slots) (a b : List Piece × Tree) :
    (meet? fields.fill? slots a).bind (meet? fields.fill? · b) =
      (meet? fields.fill? slots b).bind (meet? fields.fill? · a) := by
  simp only [meet?]
  cases Piece.text? a.1 with
  | none => cases Piece.text? b.1 <;> simp
  | some name =>
    cases Piece.text? b.1 with
    | none => simp
    | some name' => exact fields.fill?_comm name name' a.2 b.2 slots

/-- Variants mean the same. -/
theorem Shape.Variant.meaning?_eq {shape : Shape} {t t' : Tree} (h : shape.Variant t t') :
    shape.meaning? t = shape.meaning? t' := by
  induction h with
  | refl => rfl
  | symm _ ih => exact ih.symm
  | trans _ _ ih ih' => exact ih.trans ih'
  | @reorder fields members members' hperm =>
    exact congrArg (·.bind fields.values?) (foldlM_perm (meet?_comm fields) hperm _)
  | @extend fields pieces name t members hname hnot =>
    have hstep : meet? fields.fill? fields.noSlots (pieces, t) = some fields.noSlots := by
      rw [meet?, hname, Option.bind_some, Fields.fill?_of_not_mem hnot]
    have hfold : ((pieces, t) :: members).foldlM (meet? fields.fill?) fields.noSlots =
        members.foldlM (meet? fields.fill?) fields.noSlots := by
      rw [List.foldlM_cons, hstep]
      rfl
    exact congrArg (·.bind fields.values?) hfold.symm
  | @member fields pieces name shape t t' before after hname hshape _ ih =>
    have hstep (slots : fields.Slots) :
        meet? fields.fill? slots (pieces, t) = meet? fields.fill? slots (pieces, t') := by
      simp only [meet?, hname, Option.bind_some, Fields.fill?_congr hshape ih]
    exact congrArg (·.bind fields.values?) (foldlM_congr_middle hstep ..)
  | place after hshape _ ih => exact Fields.inOrder?_congr after hshape ih
  | @element shape t t' before after _ ih =>
    have hmap : (before ++ t :: after).mapM shape.meaning? =
        (before ++ t' :: after).mapM shape.meaning? := by
      simp only [List.mapM_append, List.mapM_cons, ih]
    exact hmap
  | @entry shape t t' before after pieces _ ih =>
    have hstep (known : Table shape.Value) :
        enter? shape.meaning? known (pieces, t) = enter? shape.meaning? known (pieces, t') := by
      simp only [enter?, ih]
    exact foldlM_congr_middle hstep ..

end Recommender.Json
