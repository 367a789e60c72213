import Mathlib.Data.List.Nodup
import Recommender.Settings.Loader

/-!
# Loading into slots

A field of a record of settings is a function from records to records. Read as a `Slot`, it says
what its text means and where the value stands, so that loading can be described by what a record
holds in the end: each slot holds the value of the variable that names it, or what it held before.

* `Slot.Settles` : the value of a slot in an environment. It depends on the variables that name the
  slot, and not on where they stand.
* `Slot.Layout` : slots that do not overlap and fill a record up to a rest.
* `Field.load_eq_ok_iff` : what loading leaves in a record.
* `Field.exists_load_iff` : loading fails only at a value that cannot be read.

Both hold of environments in which no slot is named twice.
-/

namespace Recommender

/-- A place of a record that a variable sets. -/
structure Slot (ρ : Type) where
  /-- The name of the variable, in lower case. -/
  name : String
  /-- What the place holds. -/
  Value : Type
  /-- The value that a text gives. -/
  parse : String → Except ValueFault Value
  /-- The value in the place. -/
  get : ρ → Value
  /-- Puts a value in the place. -/
  set : Value → ρ → ρ
  /-- What was put in the place is in it. -/
  get_set : ∀ x r, get (set x r) = x

namespace Slot

variable {ρ γ : Type}

/-- The slot as a field. -/
def toField (e : Slot ρ) : Field ρ where
  name := e.name
  assign text r := return e.set (← e.parse text) r

/-- The variables that name a slot. -/
def matching (e : Slot ρ) (environment : Environment) : Environment :=
  environment.filter fun v => lowercase v.1 = e.name

/-- The value `x` is the one that a slot has in an environment: that of the variable that names the
slot, or else `default`. -/
def Settles (e : Slot ρ) (environment : Environment) (default x : e.Value) : Prop :=
  (∀ v ∈ e.matching environment, e.parse v.2 = .ok x) ∧
    (e.matching environment = [] → x = default)

/-- No slot is named by two variables. -/
def Unambiguous (slots : List (Slot ρ)) (environment : Environment) : Prop :=
  ∀ e ∈ slots, (e.matching environment).length ≤ 1

instance {slots : List (Slot ρ)} : DecidablePred (Unambiguous slots) := fun environment =>
  inferInstanceAs (Decidable (∀ e ∈ slots, (e.matching environment).length ≤ 1))

/-- All variables that name a slot have a value of its type. -/
def Readable (slots : List (Slot ρ)) (environment : Environment) : Prop :=
  ∀ e ∈ slots, ∀ v ∈ e.matching environment, ∃ x, e.parse v.2 = .ok x

/-- Slots with names of their own that do not overlap and that make up a record, together with a
rest that they leave alone. -/
structure Layout (slots : List (Slot ρ)) (rest : ρ → γ) : Prop where
  /-- No two slots have one name. -/
  nodup : (slots.map name).Nodup
  /-- A slot is as it was when another one is set. -/
  get_set_of_ne : ∀ e ∈ slots, ∀ f ∈ slots, f.name ≠ e.name → ∀ x r, f.get (e.set x r) = f.get r
  /-- The rest is as it was when a slot is set. -/
  rest_set : ∀ e ∈ slots, ∀ x r, rest (e.set x r) = rest r
  /-- Records that hold the same are equal. -/
  ext : ∀ r s, (∀ e ∈ slots, e.get r = e.get s) → rest r = rest s → r = s

/-! ### The value of a slot -/

section

variable {e : Slot ρ} {environment others : Environment} {v : String × String}
  {default x : e.Value}

theorem matching_cons_of_eq (h : lowercase v.1 = e.name) :
    e.matching (v :: others) = v :: e.matching others :=
  List.filter_cons_of_pos (by simpa using h)

theorem matching_cons_of_ne (h : lowercase v.1 ≠ e.name) :
    e.matching (v :: others) = e.matching others :=
  List.filter_cons_of_neg (by simpa using h)

theorem settles_of_unnamed (h : e.matching environment = []) :
    e.Settles environment default x ↔ x = default := by
  simp [Settles, h]

theorem settles_of_named (h : e.matching environment = [v]) :
    e.Settles environment default x ↔ e.parse v.2 = .ok x := by
  simp [Settles, h]

end

/-! ### Variables that stand elsewhere -/

section

variable {slots : List (Slot ρ)} {environment environment' : Environment}

theorem Unambiguous.of_perm (h : Unambiguous slots environment)
    (same : ∀ e ∈ slots, (e.matching environment).Perm (e.matching environment')) :
    Unambiguous slots environment' :=
  fun e he => (same e he).length_eq ▸ h e he

theorem settles_congr {e : Slot ρ} {default x : e.Value}
    (same : (e.matching environment).Perm (e.matching environment')) :
    e.Settles environment default x ↔ e.Settles environment' default x := by
  have hempty : e.matching environment = [] ↔ e.matching environment' = [] :=
    ⟨fun h => (h ▸ same).nil_eq.symm, fun h => (h ▸ same).eq_nil⟩
  simp only [Settles, same.mem_iff, hempty]

end

end Slot

/-! ### Loading -/

namespace Field

open Slot

variable {ρ γ : Type} {slots : List (Slot ρ)} {rest : ρ → γ} {taken : List String} {r : ρ}
  {v : String × String} {others : Environment} {e : Slot ρ}

theorem loadInto_cons_of_unnamed (unnamed : ∀ e ∈ slots, lowercase v.1 ≠ e.name) :
    loadInto (slots.map toField) taken r (v :: others) =
      loadInto (slots.map toField) taken r others := by
  have hfind : (slots.map toField).find? (fun f => f.name = lowercase v.1) = none := by
    refine List.find?_eq_none.mpr fun f hf => ?_
    obtain ⟨e, he, rfl⟩ := List.mem_map.mp hf
    simpa [toField, eq_comm] using unnamed e he
  rw [loadInto, hfind]

theorem find?_toField (nodup : (slots.map Slot.name).Nodup) (he : e ∈ slots) :
    (slots.map toField).find? (fun f => f.name = e.name) = some e.toField := by
  induction slots with
  | nil => simp at he
  | cons f slots ih =>
    obtain ⟨hnew, hnodup⟩ := List.nodup_cons.mp nodup
    obtain rfl | he := List.mem_cons.mp he
    · exact List.find?_cons_of_pos (by simp [toField])
    · have hne : f.name ≠ e.name := fun h => hnew (h ▸ List.mem_map_of_mem he)
      rw [List.map_cons, List.find?_cons_of_neg (by simpa [toField] using hne)]
      exact ih hnodup he

theorem loadInto_cons_of_named (nodup : (slots.map Slot.name).Nodup) (he : e ∈ slots)
    (hname : lowercase v.1 = e.name) (hfree : e.name ∉ taken) :
    loadInto (slots.map toField) taken r (v :: others) =
      match e.parse v.2 with
      | .error why => .error (.unreadable why v.2 v.1)
      | .ok x => loadInto (slots.map toField) (e.name :: taken) (e.set x r) others := by
  have hassign : e.toField.assign v.2 r = (e.parse v.2).map (e.set · r) := by
    simp only [toField]
    cases e.parse v.2 <;> rfl
  rw [loadInto, hname, find?_toField nodup he]
  simp only [show e.toField.name = e.name from rfl, if_neg hfree, hassign]
  cases e.parse v.2 <;> rfl

/-- No slot is set twice when an environment is loaded after the fields `taken`. -/
def Free (slots : List (Slot ρ)) (taken : List String) (environment : Environment) : Prop :=
  ∀ e ∈ slots, taken.count e.name + (e.matching environment).length ≤ 1

theorem Free.of_cons (free : Free slots taken (v :: others)) : Free slots taken others := by
  intro e he
  have hlength : (e.matching others).length ≤ (e.matching (v :: others)).length :=
    ((List.sublist_cons_self v others).filter _).length_le
  have := free e he
  omega

/-- The slot that the first variable names is not set before, not named again, and taken next. -/
theorem Free.named (free : Free slots taken (v :: others)) (he : e ∈ slots)
    (hname : lowercase v.1 = e.name) :
    e.name ∉ taken ∧ e.matching others = [] ∧ Free slots (e.name :: taken) others := by
  have hcount := free e he
  rw [matching_cons_of_eq hname, List.length_cons] at hcount
  refine ⟨List.count_eq_zero.mp (by omega), List.length_eq_zero_iff.mp (by omega), ?_⟩
  -- what is taken from the environment is added to the fields that are taken
  intro f hf
  by_cases hsame : lowercase v.1 = f.name
  · have := free f hf
    rw [matching_cons_of_eq hsame, List.length_cons] at this
    rw [← hname, hsame, List.count_cons_self]
    omega
  · have hne : f.name ≠ e.name := fun h => hsame (hname.trans h.symm)
    have := free f hf
    rw [matching_cons_of_ne hsame] at this
    rwa [List.count_cons_of_ne hne.symm]

/-- The slot that the first variable of an environment names, if there is one. -/
theorem named_or_unnamed (slots : List (Slot ρ)) (v : String × String) :
    (∃ e ∈ slots, lowercase v.1 = e.name) ∨ ∀ e ∈ slots, lowercase v.1 ≠ e.name := by
  by_cases h : ∃ e ∈ slots, lowercase v.1 = e.name
  · exact .inl h
  · exact .inr fun e he hname => h ⟨e, he, hname⟩

/-- A variable settles the slot that it names if no later one does, and leaves the others as they
are. -/
theorem forall_settles_set_iff (layout : Layout slots rest) (he : e ∈ slots)
    (hname : lowercase v.1 = e.name) (hlast : e.matching others = []) {x : e.Value}
    (hparse : e.parse v.2 = .ok x) (s : ρ) :
    (∀ f ∈ slots, f.Settles others (f.get (e.set x r)) (f.get s)) ↔
      ∀ f ∈ slots, f.Settles (v :: others) (f.get r) (f.get s) := by
  refine forall₂_congr fun f hf => ?_
  by_cases hsame : f.name = e.name
  · obtain rfl : f = e := List.inj_on_of_nodup_map layout.nodup hf he hsame
    have hhere : f.matching (v :: others) = [v] := by rw [matching_cons_of_eq hname, hlast]
    rw [settles_of_named hhere, settles_of_unnamed hlast, f.get_set, hparse, Except.ok.injEq,
      eq_comm]
  · have hne : lowercase v.1 ≠ f.name := fun h => hsame (h.symm.trans hname)
    rw [layout.get_set_of_ne e he f hf hsame, Settles, Settles, matching_cons_of_ne hne]

theorem readable_cons_of_named (nodup : (slots.map Slot.name).Nodup) (he : e ∈ slots)
    (hname : lowercase v.1 = e.name) :
    Readable slots (v :: others) ↔ (∃ x, e.parse v.2 = .ok x) ∧ Readable slots others := by
  constructor
  · intro h
    refine ⟨h e he v (by simp [matching_cons_of_eq hname]), fun f hf w hw => ?_⟩
    exact h f hf w (((List.sublist_cons_self v others).filter _).subset hw)
  · rintro ⟨hhere, hrest⟩ f hf w hw
    by_cases hsame : f.name = e.name
    · obtain rfl : f = e := List.inj_on_of_nodup_map nodup hf he hsame
      rw [matching_cons_of_eq hname, List.mem_cons] at hw
      obtain rfl | hw := hw
      · exact hhere
      · exact hrest f hf w hw
    · have hne : lowercase v.1 ≠ f.name := fun h => hsame (h.symm.trans hname)
      exact hrest f hf w (matching_cons_of_ne hne ▸ hw)

/-- By induction on the environment. A variable that names a slot settles it for good, as no later
one names it; for all other slots the record is as it was. -/
theorem loadInto_eq_ok_iff (layout : Layout slots rest) {environment : Environment} {s : ρ}
    (free : Free slots taken environment) :
    loadInto (slots.map toField) taken r environment = .ok s ↔
      (∀ e ∈ slots, e.Settles environment (e.get r) (e.get s)) ∧ rest s = rest r := by
  induction environment generalizing taken r with
  | nil =>
    have hsettled : ∀ e ∈ slots, (e.Settles [] (e.get r) (e.get s) ↔ e.get s = e.get r) :=
      fun e _ => settles_of_unnamed rfl
    rw [forall₂_congr hsettled, loadInto, Except.ok.injEq]
    exact ⟨fun h => by simp [h], fun ⟨hget, hrest⟩ => (layout.ext s r hget hrest).symm⟩
  | cons v others ih =>
    obtain ⟨e, he, hname⟩ | hunnamed := named_or_unnamed slots v
    · obtain ⟨hfree, hlast, hothers⟩ := free.named he hname
      rw [loadInto_cons_of_named layout.nodup he hname hfree]
      cases hparse : e.parse v.2 with
      | error why =>
        -- no record holds a value that cannot be read
        refine iff_of_false (by simp) fun ⟨hsettled, _⟩ => ?_
        have hvalue := (hsettled e he).1 v (by simp [matching_cons_of_eq hname])
        simp [hparse] at hvalue
      | ok x =>
        rw [← forall_settles_set_iff layout he hname hlast hparse, ← layout.rest_set e he x r]
        exact ih hothers
    · have hslots : ∀ f ∈ slots, (f.Settles others (f.get r) (f.get s) ↔
          f.Settles (v :: others) (f.get r) (f.get s)) := fun f hf => by
        rw [Settles, Settles, matching_cons_of_ne (hunnamed f hf)]
      rw [loadInto_cons_of_unnamed hunnamed, ← forall₂_congr hslots]
      exact ih free.of_cons

/-- Loading succeeds if every value can be read, by induction on the environment. -/
theorem exists_loadInto_iff (nodup : (slots.map Slot.name).Nodup) {environment : Environment}
    (free : Free slots taken environment) :
    (∃ s, loadInto (slots.map toField) taken r environment = .ok s) ↔
      Readable slots environment := by
  induction environment generalizing taken r with
  | nil => simp [loadInto, Readable, matching]
  | cons v others ih =>
    obtain ⟨e, he, hname⟩ | hunnamed := named_or_unnamed slots v
    · obtain ⟨hfree, -, hothers⟩ := free.named he hname
      rw [loadInto_cons_of_named nodup he hname hfree, readable_cons_of_named nodup he hname]
      cases hparse : e.parse v.2 with
      | error why => simp
      | ok x => simpa using ih hothers
    · have hreadable : Readable slots (v :: others) ↔ Readable slots others :=
        forall₂_congr fun f hf => by rw [matching_cons_of_ne (hunnamed f hf)]
      rw [loadInto_cons_of_unnamed hunnamed, hreadable]
      exact ih free.of_cons

theorem free_of_unambiguous {environment : Environment} (h : Unambiguous slots environment) :
    Free slots [] environment := by
  simpa [Free, Unambiguous] using h

/-- **What loading leaves in a record**: in each slot, the value that the environment settles. -/
theorem load_eq_ok_iff (layout : Layout slots rest) {environment : Environment}
    (once : Unambiguous slots environment) {s : ρ} :
    load (slots.map toField) r environment = .ok s ↔
      (∀ e ∈ slots, e.Settles environment (e.get r) (e.get s)) ∧ rest s = rest r :=
  loadInto_eq_ok_iff layout (free_of_unambiguous once)

/-- **Loading succeeds if every value can be read**, and only then. -/
theorem exists_load_iff (layout : Layout slots rest) {environment : Environment}
    (once : Unambiguous slots environment) :
    (∃ s, load (slots.map toField) r environment = .ok s) ↔ Readable slots environment :=
  exists_loadInto_iff layout.nodup (free_of_unambiguous once)

end Field

end Recommender
