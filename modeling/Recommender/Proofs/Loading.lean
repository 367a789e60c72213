import Recommender.Settings
import Recommender.Proofs.Slots
import Mathlib.Tactic.FinCases
import Mathlib.Tactic.MkIffOfInductiveProp

/-!
# Settings depend on what is set, not on where

The environment of a program is visited twice, for the settings and for the weights, and any of its
variables can make the loading fail. If no setting has two variables, the order of the variables
does not matter, nor do variables that name nothing.

* `Settings.slots`, `Weights.slots` : the fields of both records as slots, with the type of each.
* `Settings.Settled` : every setting and every weight has the value of its variable or the standard
  one.
* `Weights.usable_iff` : weights without a defect are finite, with a scale above zero.
* `Settings.ofEnvironment_orderless` : when loading succeeds, with what result, and which changes of
  the environment it does not notice; what it returns is usable in any case.
-/

namespace Recommender

open Slot

variable {environment environment' : Environment}

/-- A natural number up to a maximum, as a number of a type that holds it. -/
def Value.bounded {ν : Type} (max : Nat) (ofNat : Nat → ν) (text : String) :
    Except ValueFault ν :=
  return ofNat (← natural max text)

/-! ### The weights -/

namespace Weights

/-- The weights as slots. -/
def slots : List (Slot (Weights Binary64)) :=
  [⟨"like_category_weight", Binary64, Value.float, likeCategory,
    fun x w => { w with likeCategory := x }, fun _ _ => rfl⟩,
   ⟨"purchase_category_weight", Binary64, Value.float, purchaseCategory,
    fun x w => { w with purchaseCategory := x }, fun _ _ => rfl⟩,
   ⟨"co_occurrence_weight", Binary64, Value.float, coOccurrence,
    fun x w => { w with coOccurrence := x }, fun _ _ => rfl⟩,
   ⟨"max_similar_users", Nat, Value.natural (UInt64.size - 1), maxSimilarUsers,
    fun x w => { w with maxSimilarUsers := x }, fun _ _ => rfl⟩,
   ⟨"recency_weight", Binary64, Value.float, recency,
    fun x w => { w with recency := x }, fun _ _ => rfl⟩,
   ⟨"recency_scale_days", Binary64, Value.float, recencyScaleDays,
    fun x w => { w with recencyScaleDays := x }, fun _ _ => rfl⟩,
   ⟨"popularity_weight", Binary64, Value.float, popularity,
    fun x w => { w with popularity := x }, fun _ _ => rfl⟩,
   ⟨"price_weight", Binary64, Value.float, price,
    fun x w => { w with price := x }, fun _ _ => rfl⟩,
   ⟨"random_score", Binary64, Value.float, randomScore,
    fun x w => { w with randomScore := x }, fun _ _ => rfl⟩]

theorem fields_eq_map_slots : fields = slots.map toField := rfl

/-- There is nothing in weights that is not in a slot. -/
theorem layout : Layout slots fun _ => () where
  nodup := by decide
  get_set_of_ne e he f hf hne := by
    fin_cases he <;> fin_cases hf <;> first | exact fun _ _ => rfl | exact absurd rfl hne
  rest_set _ _ _ _ := rfl
  ext v w h _ := by
    simp only [slots, List.forall_mem_cons] at h
    obtain ⟨h₁, h₂, h₃, h₄, h₅, h₆, h₇, h₈, h₉, _⟩ := h
    cases v
    cases w
    simp_all

/-- All coefficients are finite, and the scale of ages is above zero. -/
def Usable (w : Weights Binary64) : Prop :=
  (∀ c ∈ w.coefficients, c.2.isFinite) ∧ Scalar.ofNat 0 < w.recencyScaleDays

theorem usable_iff {w : Weights Binary64} : w.Usable ↔ w.defect? = none := by
  rw [defect?_eq_none_iff]
  refine and_congr_right fun hfinite => ?_
  have hscale : w.recencyScaleDays.isFinite := hfinite ("recency_scale_days", _) (by
    simp [coefficients])
  have hnumber : ¬ w.recencyScaleDays.isNaN := by
    simp only [Binary64.isFinite, Binary64.isNaN, decide_eq_true_eq] at hscale ⊢
    omega
  have hzero : ¬ (Scalar.ofNat 0 : Binary64).isNaN := by decide
  -- among numbers that are no NaNs, above zero is not below it
  show (¬ _ ∧ ¬ _ ∧ _ < _) ↔ ¬ (¬ _ ∧ ¬ _ ∧ _ ≤ _)
  simp [hnumber, hzero]

end Weights

namespace Settings

/-! ### The settings -/

/-- The settings other than weights as slots. -/
def slots : List (Slot Settings) :=
  [⟨"database_url", String, pure, databaseUrl,
    fun x s => { s with databaseUrl := x }, fun _ _ => rfl⟩,
   ⟨"db_max_connections", UInt32, Value.bounded (UInt32.size - 1) .ofNat, databaseConnections,
    fun x s => { s with databaseConnections := x }, fun _ _ => rfl⟩,
   ⟨"host", String, pure, host,
    fun x s => { s with host := x }, fun _ _ => rfl⟩,
   ⟨"port", UInt16, Value.bounded (UInt16.size - 1) .ofNat, port,
    fun x s => { s with port := x }, fun _ _ => rfl⟩,
   ⟨"catalog_page_size", UInt32, Value.bounded (UInt32.size - 1) .ofNat, pageSize,
    fun x s => { s with pageSize := x }, fun _ _ => rfl⟩,
   ⟨"request_timeout_secs", UInt64, Value.bounded (UInt64.size - 1) .ofNat, timeoutSeconds,
    fun x s => { s with timeoutSeconds := x }, fun _ _ => rfl⟩,
   ⟨"random_seed", Option UInt64, Value.bounded (UInt64.size - 1) fun n => some (.ofNat n), seed,
    fun x s => { s with seed := x }, fun _ _ => rfl⟩]

theorem fields_eq_map_slots : fields = slots.map toField := by
  simp [fields, slots, toField, Value.bounded]

/-- What is in settings is in a slot or is a weight. -/
theorem layout : Layout slots Settings.weights where
  nodup := by decide
  get_set_of_ne e he f hf hne := by
    fin_cases he <;> fin_cases hf <;> first | exact fun _ _ => rfl | exact absurd rfl hne
  rest_set e he := by
    fin_cases he <;> exact fun _ _ => rfl
  ext s t h hweights := by
    simp only [slots, List.forall_mem_cons] at h
    obtain ⟨h₁, h₂, h₃, h₄, h₅, h₆, h₇, _⟩ := h
    cases s
    cases t
    simp_all

/-! ### Loading both -/

/-- The settings `s` are those that are set in an environment. -/
@[mk_iff]
structure Settled (environment : Environment) (s : Settings) : Prop where
  /-- Each setting has the value of its variable or the standard one. -/
  settings : ∀ e ∈ slots, e.Settles environment (e.get standard) (e.get s)
  /-- So has each weight. -/
  weights : ∀ e ∈ Weights.slots,
    e.Settles (weightVariables environment) (e.get Weights.standard) (e.get s.weights)

/-- No setting and no weight is named by two variables. -/
def NamedOnce (environment : Environment) : Prop :=
  Unambiguous slots environment ∧ Unambiguous Weights.slots (weightVariables environment)

instance : DecidablePred NamedOnce := fun _ =>
  inferInstanceAs (Decidable (_ ∧ _))

/-- Whether a variable names a setting, or a weight after the tag of weights. The weights as a whole
are no setting that a variable can name. -/
def isRecognised (v : String × String) : Bool :=
  lowercase v.1 ∈ fields.map Field.name ||
    "SCORING_".toList.isPrefixOf v.1.toList &&
      lowercase (String.ofList (withoutTags v.1.toList)) ∈ Weights.fields.map Field.name

theorem ofEnvironment_eq_ok_iff {s : Settings} :
    ofEnvironment environment = .ok s ↔
      ∃ t w, Field.load fields standard environment = .ok t ∧
        Field.load Weights.fields Weights.standard (weightVariables environment) = .ok w ∧
        w.Usable ∧ { t with weights := w } = s := by
  rw [ofEnvironment]
  cases Field.load fields standard environment with
  | error fault => simp [Except.mapError, bind, Except.bind]
  | ok t =>
    cases Field.load Weights.fields Weights.standard (weightVariables environment) with
    | error fault => simp [Except.mapError, bind, Except.bind]
    | ok w =>
      simp only [Except.mapError, bind, Except.bind, Weights.usable_iff]
      cases hdefect : w.defect? with
      | some defect => simp [throw, throwThe, MonadExceptOf.throw, hdefect]
      | none => simp [pure, Except.pure, hdefect]

/-- The weights of an environment whose weights are named once. -/
theorem loadWeights_eq_ok_iff (once : Unambiguous Weights.slots environment)
    {w : Weights Binary64} :
    Field.load Weights.fields Weights.standard environment = .ok w ↔
      ∀ e ∈ Weights.slots, e.Settles environment (e.get Weights.standard) (e.get w) := by
  rw [Weights.fields_eq_map_slots]
  simpa using Field.load_eq_ok_iff Weights.layout once

theorem get_weights {e : Slot Settings} (he : e ∈ slots) (t : Settings)
    (w : Weights Binary64) : e.get { t with weights := w } = e.get t := by
  fin_cases he <;> rfl

/-- What an environment yields is what is set in it, provided that the weights are usable. -/
theorem ofEnvironment_eq_ok_iff_settled (once : NamedOnce environment) {s : Settings} :
    ofEnvironment environment = .ok s ↔ Settled environment s ∧ s.weights.Usable := by
  simp only [ofEnvironment_eq_ok_iff, fields_eq_map_slots, Field.load_eq_ok_iff layout once.1,
    loadWeights_eq_ok_iff once.2]
  constructor
  · rintro ⟨t, w, ⟨hsettings, -⟩, hweights, husable, rfl⟩
    exact ⟨⟨fun e he => get_weights he t w ▸ hsettings e he, hweights⟩, husable⟩
  · rintro ⟨⟨hsettings, hweights⟩, husable⟩
    -- the fields are loaded into the standard settings, whose weights are replaced only then
    refine ⟨{ s with weights := standard.weights }, s.weights, ⟨fun e he => ?_, rfl⟩, hweights,
      husable, rfl⟩
    rw [get_weights he s]
    exact hsettings e he

/-- Loading succeeds if all values can be read and the weights that they give are usable. -/
theorem exists_ofEnvironment_iff (once : NamedOnce environment) :
    (∃ s, ofEnvironment environment = .ok s) ↔
      Readable slots environment ∧ Readable Weights.slots (weightVariables environment) ∧
        ∃ w : Weights Binary64, (∀ e ∈ Weights.slots,
          e.Settles (weightVariables environment) (e.get Weights.standard) (e.get w)) ∧
          w.Usable := by
  have hsettings := Field.exists_load_iff (r := standard) layout once.1
  have hweights := Field.exists_load_iff (r := Weights.standard) Weights.layout once.2
  rw [← fields_eq_map_slots] at hsettings
  rw [← Weights.fields_eq_map_slots] at hweights
  simp only [ofEnvironment_eq_ok_iff, ← hsettings, ← hweights, ← loadWeights_eq_ok_iff once.2]
  constructor
  · rintro ⟨s, t, w, ht, hw, husable, rfl⟩
    exact ⟨⟨t, ht⟩, ⟨w, hw⟩, w, hw, husable⟩
  · rintro ⟨⟨t, ht⟩, -, w, hw, husable⟩
    exact ⟨_, t, w, ht, hw, husable, rfl⟩

/-! ### Variables that name nothing -/

theorem isRecognised_of_slot {e : Slot Settings} (he : e ∈ slots) {v : String × String}
    (hname : lowercase v.1 = e.name) : isRecognised v := by
  have hmem : lowercase v.1 ∈ fields.map Field.name := by
    rw [hname, fields_eq_map_slots, List.map_map]
    exact List.mem_map_of_mem he
  simp [isRecognised, hmem]

theorem isRecognised_of_weight {e : Slot (Weights Binary64)} (he : e ∈ Weights.slots)
    {v : String × String} (htag : "SCORING_".toList.isPrefixOf v.1.toList)
    (hname : lowercase (String.ofList (withoutTags v.1.toList)) = e.name) : isRecognised v := by
  have hmem : lowercase (String.ofList (withoutTags v.1.toList)) ∈
      Weights.fields.map Field.name := by
    rw [hname, Weights.fields_eq_map_slots, List.map_map]
    exact List.mem_map_of_mem he
  simp only [isRecognised, htag, hmem, decide_true, Bool.and_true, Bool.or_true]

theorem matching_filter_isRecognised {e : Slot Settings} (he : e ∈ slots)
    (environment : Environment) :
    e.matching (environment.filter isRecognised) = e.matching environment := by
  rw [matching, matching, List.filter_filter]
  refine List.filter_congr fun v _ => ?_
  by_cases hname : lowercase v.1 = e.name
  · simp [hname, isRecognised_of_slot he hname]
  · simp [hname]

theorem matching_weightVariables_filter_isRecognised {e : Slot (Weights Binary64)}
    (he : e ∈ Weights.slots) (environment : Environment) :
    e.matching (weightVariables (environment.filter isRecognised)) =
      e.matching (weightVariables environment) := by
  simp only [matching, weightVariables, List.filter_map, List.filter_filter]
  refine congrArg _ (List.filter_congr fun v _ => ?_)
  by_cases h : lowercase (String.ofList (withoutTags v.1.toList)) = e.name ∧
      "SCORING_".toList.isPrefixOf v.1.toList
  · simp [h.1, isRecognised_of_weight he h.2 h.1]
  · grind

section

variable (same : (environment.filter isRecognised).Perm (environment'.filter isRecognised))
include same

theorem matching_perm {e : Slot Settings} (he : e ∈ slots) :
    (e.matching environment).Perm (e.matching environment') := by
  rw [← matching_filter_isRecognised he environment,
    ← matching_filter_isRecognised he environment']
  exact same.filter _

theorem matching_weightVariables_perm {e : Slot (Weights Binary64)} (he : e ∈ Weights.slots) :
    (e.matching (weightVariables environment)).Perm
      (e.matching (weightVariables environment')) := by
  rw [← matching_weightVariables_filter_isRecognised he environment,
    ← matching_weightVariables_filter_isRecognised he environment']
  exact ((same.filter _).map _).filter _

theorem NamedOnce.of_perm (once : NamedOnce environment) : NamedOnce environment' :=
  ⟨once.1.of_perm fun _ => matching_perm same,
    once.2.of_perm fun _ => matching_weightVariables_perm same⟩

theorem settled_congr {s : Settings} : Settled environment s ↔ Settled environment' s := by
  rw [settled_iff, settled_iff]
  exact and_congr (forall₂_congr fun _ he => settles_congr (matching_perm same he))
    (forall₂_congr fun _ he => settles_congr (matching_weightVariables_perm same he))

end

/-- If no setting is named twice, an environment yields what is set in it, it does so if all values
of settings can be read and the weights are usable, and any other environment with the same
variables that name settings, in whatever order and with whatever else among them, yields the same.
Weights without use, which values of floats can make, are never returned. -/
theorem ofEnvironment_orderless (environment : Environment) :
    (NamedOnce environment →
      (∀ s, ofEnvironment environment = .ok s ↔
        Settled environment s ∧ s.weights.Usable) ∧
      ((∃ s, ofEnvironment environment = .ok s) ↔
        Readable slots environment ∧ Readable Weights.slots (weightVariables environment) ∧
          ∃ w : Weights Binary64, (∀ e ∈ Weights.slots,
            e.Settles (weightVariables environment) (e.get Weights.standard) (e.get w)) ∧
            w.Usable) ∧
      ∀ environment' : Environment,
        (environment.filter isRecognised).Perm (environment'.filter isRecognised) →
        ∀ s, ofEnvironment environment' = .ok s ↔ ofEnvironment environment = .ok s) ∧
    (∀ s, ofEnvironment environment = .ok s → s.weights.defect? = none) ∧
    ∀ text ∈ ["NaN", "inf", "0"], ∃ x : Binary64, Value.float text = .ok x ∧
      ¬ (x.isFinite ∧ Scalar.ofNat 0 < x) := by
  refine ⟨fun once => ⟨fun s => ofEnvironment_eq_ok_iff_settled once,
    exists_ofEnvironment_iff once, fun environment' same s => ?_⟩, fun s h => ?_, ?_⟩
  · rw [ofEnvironment_eq_ok_iff_settled once, settled_congr same,
      ofEnvironment_eq_ok_iff_settled (once.of_perm same)]
  · obtain ⟨t, w, -, -, husable, rfl⟩ := ofEnvironment_eq_ok_iff.1 h
    exact Weights.usable_iff.1 husable
  · intro text htext
    fin_cases htext
    · exact ⟨.nan, rfl, by decide⟩
    · exact ⟨.infinity, rfl, by decide⟩
    · exact ⟨0.0, rfl, by decide⟩

/-- Two overrides change places, and a variable joins them that has the tag of weights and names
none. -/
theorem ofEnvironment_orderless_relocated :
    NamedOnce [("PORT", "8080"), ("SCORING_PRICE_WEIGHT", "0.5")] ∧
    ofEnvironment [("SCORING_PRICE", "NaN"), ("SCORING_PRICE_WEIGHT", "0.5"), ("PORT", "8080")] =
      .ok { standard with port := 8080, weights := { Weights.standard with price := 0.5 } } := by
  have once : NamedOnce [("PORT", "8080"), ("SCORING_PRICE_WEIGHT", "0.5")] := by decide
  have hmoved := ((ofEnvironment_orderless _).1 once).2.2
    [("SCORING_PRICE", "NaN"), ("SCORING_PRICE_WEIGHT", "0.5"), ("PORT", "8080")] (by decide)
  exact ⟨once, (hmoved _).2 rfl⟩

end Settings

end Recommender
