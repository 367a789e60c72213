import Recommender.Http.Server
import Recommender.Fallback
import Recommender.Proofs.Decimals

/-!
# Limits in queries

A limit never makes a request fail unless it is repeated. A value that is no positive integer of 64
bits stands for the default; every integer of 64 bits may be asked for, however its characters are
encoded and whatever other parameters stand around it.

* `Percent.Encodes` : the ways to write bytes in a name or a value.
* `Query.Names` : the integer that a value names.
* `Query.limit_lenient` : which limit is read from which query.
-/

namespace Recommender.Http

open Text

/-! ### Percent encoding -/

/-- Bytes that are written in a name or a value, each for itself or by its number. -/
inductive Percent.Encodes : Bytes → Bytes → Prop
  /-- Nothing. -/
  | nil : Encodes [] []
  /-- A byte stands for itself unless it parts, escapes or means a space. -/
  | plain {b : UInt8} {text bytes : Bytes} : b ∉ [ascii '%', ascii '+', ascii '&', ascii '='] →
    Encodes text bytes → Encodes (b :: text) (b :: bytes)
  /-- A byte is given by two digits after a percent sign. -/
  | escaped {high low b : UInt8} {text bytes : Bytes} : escaped? (ascii '%') high low = some b →
    Encodes text bytes → Encodes (ascii '%' :: high :: low :: text) (b :: bytes)

namespace Percent

theorem decode_cons {b : UInt8} (h : b ≠ ascii '%') (rest : Bytes) :
    decode (b :: rest) = b :: decode rest := by
  match rest with
  | [] => rfl
  | [_] => rfl
  | high :: low :: rest =>
    have hnone : escaped? b high low = none := if_pos h
    rw [decode, hnone]

theorem decode_escaped {high low b : UInt8} (h : escaped? (ascii '%') high low = some b)
    (rest : Bytes) : decode (ascii '%' :: high :: low :: rest) = b :: decode rest := by
  rw [decode, h]

/-- Two digits after a percent sign part nothing. -/
theorem ne_of_escaped? {mark high low b c : UInt8} (h : escaped? mark high low = some b)
    (hc : hexValue? c = none) : high ≠ c ∧ low ≠ c := by
  simp only [escaped?, ite_not, Option.ite_none_right_eq_some, bind,
    Option.bind_eq_some_iff] at h
  obtain ⟨-, _, hhigh, _, hlow, -⟩ := h
  constructor <;> rintro rfl <;> simp_all

end Percent

namespace Query

/-- What is encoded is decoded. -/
theorem decode_of_encodes {text bytes : Bytes} (h : Percent.Encodes text bytes) :
    decode text = bytes := by
  induction h with
  | nil => rfl
  | @plain b text bytes hb _ ih =>
    simp only [List.mem_cons, not_or] at hb
    rw [decode, List.map_cons, if_neg hb.2.1, Percent.decode_cons hb.1, ← decode, ih]
  | @escaped high low b text bytes hb _ ih =>
    obtain ⟨hhigh, hlow⟩ := Percent.ne_of_escaped? hb (show hexValue? (ascii '+') = none from rfl)
    rw [decode, List.map_cons, List.map_cons, List.map_cons, if_neg (by decide), if_neg hhigh,
      if_neg hlow, Percent.decode_escaped hb, ← decode, ih]

/-- What is encoded holds no mark that parts names, values and parameters. -/
theorem not_mem_of_encodes {text bytes : Bytes} (h : Percent.Encodes text bytes) :
    ascii '&' ∉ text ∧ ascii '=' ∉ text := by
  induction h with
  | nil => exact ⟨List.not_mem_nil, List.not_mem_nil⟩
  | plain hb _ ih =>
    simp only [List.mem_cons, not_or] at hb ⊢
    exact ⟨⟨Ne.symm hb.2.2.1, ih.1⟩, Ne.symm hb.2.2.2.1, ih.2⟩
  | escaped hb _ ih =>
    have hand := Percent.ne_of_escaped? hb (show hexValue? (ascii '&') = none from rfl)
    have hequals := Percent.ne_of_escaped? hb (show hexValue? (ascii '=') = none from rfl)
    simp only [List.mem_cons, not_or]
    exact ⟨⟨by decide, hand.1.symm, hand.2.symm, ih.1⟩,
      by decide, hequals.1.symm, hequals.2.symm, ih.2⟩

/-- The integer that a value names: decimal digits with a sign or none, blanks around them. -/
def Names (value : Bytes) (n : Int) : Prop :=
  ∃ text, textOf? value = some text ∧ SpellsInteger (trim text.toList) n

/-! ### Reading a limit -/

theorem parameter_append {name value : Bytes} (h : ascii '=' ∉ name) :
    parameter (name ++ ascii '=' :: value) = (decode name, decode value) := by
  have hname : (name ++ ascii '=' :: value).takeWhile (· ≠ ascii '=') = name := by
    have hall : ∀ b ∈ name, (b ≠ ascii '=') := fun b hb heq => h (heq ▸ hb)
    rw [List.takeWhile_append_of_pos (by simpa using hall)]
    simp
  rw [parameter, hname]
  simp

theorem parts_intercalate {separator : UInt8} {texts : List Bytes} (hne : texts ≠ [])
    (h : ∀ text ∈ texts, separator ∉ text) :
    parts separator ([separator].intercalate texts) = texts := by
  induction texts with
  | nil => exact absurd rfl hne
  | cons text texts ih =>
    rw [List.forall_mem_cons] at h
    cases texts with
    | nil => simpa using parts_of_not_mem h.1
    | cons next texts =>
      rw [List.intercalate_cons_cons, List.append_assoc, List.singleton_append,
        parts_append h.1, ih (List.cons_ne_nil _ _) h.2]

theorem names_iff {value : Bytes} {n : Int64} : Names value n.toInt ↔
    ((textOf? value).bind fun text => int64? (trim text.toList)) = some n := by
  rw [Names, Option.bind_eq_some_iff]
  simp only [int64?_eq_some_iff]

/-- The limit of a value that names an integer of 64 bits is the integer. -/
theorem lenientInt_of_names {value : Bytes} {n : Int64} (h : Names value n.toInt) :
    lenientInt value = n := by
  rw [lenientInt, names_iff.1 h]
  rfl

/-- The limit of any other value is zero. -/
theorem lenientInt_eq_zero {value : Bytes} (h : ∀ n : Int64, ¬ Names value n.toInt) :
    lenientInt value = 0 := by
  rw [lenientInt, Option.eq_none_iff_forall_ne_some.2 fun n hn => h n (names_iff.2 hn)]
  rfl

theorem trim_of_forall {cs : List Char} (h : ∀ c ∈ cs, isBlank c = false) : trim cs = cs := by
  have hdrop {cs : List Char} (h : ∀ c ∈ cs, isBlank c = false) : cs.dropWhile isBlank = cs := by
    cases cs with
    | nil => rfl
    | cons c cs => simp [h c List.mem_cons_self]
  rw [trim, hdrop h, hdrop fun c hc => h c (List.mem_reverse.1 hc), List.reverse_reverse]

theorem isBlank_of_spellsInteger {cs : List Char} {n : Int} (h : SpellsInteger cs n) :
    ∀ c ∈ cs, isBlank c = false := by
  have hdigit {c : Char} (h : c.isDigit) : isBlank c = false := by
    have := Digits.toNat_bounds h
    rw [← Bool.not_eq_true]
    simp [isBlank, blankRanges]
    omega
  cases h with
  | bare _ hdigits => exact fun c hc => hdigit (hdigits c hc)
  | plus _ hdigits | minus _ hdigits =>
    exact List.forall_mem_cons.2 ⟨by decide, fun c hc => hdigit (hdigits c hc)⟩

/-- The decimal text of an integer names it. -/
theorem names_toString (n : Int) : Names (bytesOf (toString n)) n := by
  have hspells := spellsInteger_toString n
  refine ⟨toString n, textOf?_bytesOf _, ?_⟩
  rwa [trim_of_forall (isBlank_of_spellsInteger hspells)]

theorem effectiveLimit_of_pos {n : Int64} (h : 1 ≤ n.toInt) :
    (effectiveLimit n : Int) = n.toInt := by
  have hpos : ¬ n ≤ 0 := by
    rw [Int64.le_iff_toInt_le, Int64.toInt_zero]
    omega
  rw [effectiveLimit, if_neg hpos, Int64.toNatClampNeg]
  exact Int.toNat_of_nonneg (by omega)

theorem effectiveLimit_of_nonpos {n : Int64} (h : n.toInt ≤ 0) : effectiveLimit n = 10 :=
  if_pos (Int64.le_iff_toInt_le.2 h)

/-- A value that names a positive integer of 64 bits asks for as many. -/
theorem effectiveLimit_of_names {value : Bytes} {n : Int} (hlow : 1 ≤ n) (hhigh : n ≤ 2 ^ 63 - 1)
    (h : Names value n) : (effectiveLimit (lenientInt value) : Int) = n := by
  have hn : (Int64.ofInt n).toInt = n :=
    Int64.toInt_ofInt_of_le (by omega) (by omega)
  rw [← hn] at h hlow
  rw [lenientInt_of_names h, effectiveLimit_of_pos hlow, hn]

/-- Any other value asks for the default. -/
theorem effectiveLimit_of_forall_not_names {value : Bytes}
    (h : ∀ n : Int, 1 ≤ n → n ≤ 2 ^ 63 - 1 → ¬ Names value n) :
    effectiveLimit (lenientInt value) = 10 := by
  by_cases hnames : ∃ n : Int64, Names value n.toInt
  · obtain ⟨n, hn⟩ := hnames
    rw [lenientInt_of_names hn]
    have hmax := n.toInt_lt
    by_cases hpos : 1 ≤ n.toInt
    · exact absurd hn (h _ hpos (by omega))
    · exact effectiveLimit_of_nonpos (by omega)
  · rw [lenientInt_eq_zero (not_exists.1 hnames)]
    rfl

/-- A limit that is not repeated is read, whatever it is. -/
theorem limit?_of_length_le_one {query : Bytes} (h : (valuesOf "limit" query).length ≤ 1) :
    ∃ limit, limit? query = some limit ∧
      (∀ n : Int, 1 ≤ n → n ≤ 2 ^ 63 - 1 → (∃ value ∈ valuesOf "limit" query, Names value n) →
        (effectiveLimit limit : Int) = n) ∧
      ((∀ n : Int, 1 ≤ n → n ≤ 2 ^ 63 - 1 → ∀ value ∈ valuesOf "limit" query, ¬ Names value n) →
        effectiveLimit limit = 10) := by
  rw [limit?]
  match valuesOf "limit" query, h with
  | [], _ =>
    refine ⟨0, rfl, ?_, fun _ => rfl⟩
    rintro n - - ⟨value, hmem, -⟩
    cases hmem
  | [value], _ =>
    refine ⟨lenientInt value, rfl, ?_, fun h => ?_⟩
    · rintro n hlow hhigh ⟨value', hmem, hnames⟩
      rw [List.mem_singleton.1 hmem] at hnames
      exact effectiveLimit_of_names hlow hhigh hnames
    · exact effectiveLimit_of_forall_not_names fun n hlow hhigh =>
        h n hlow hhigh value List.mem_cons_self

/-- A limit that is repeated is refused. -/
theorem limit?_of_two_le_length {query : Bytes} (h : 2 ≤ (valuesOf "limit" query).length) :
    limit? query = none := by
  rw [limit?]
  match valuesOf "limit" query, h with
  | _ :: _ :: _, _ => rfl

/-- The value of the only parameter of a name, among others. -/
theorem valuesOf_intercalate {name : String} {part : Bytes} {before after : List Bytes}
    (hpart : ascii '&' ∉ part ∧ part ≠ [] ∧ (parameter part).1 = bytesOf name)
    (hothers : ∀ other ∈ before ++ after, ascii '&' ∉ other ∧ (parameter other).1 ≠ bytesOf name) :
    valuesOf name ([ascii '&'].intercalate (before ++ part :: after)) = [(parameter part).2] := by
  rw [List.forall_mem_append] at hothers
  have hnone {others : List Bytes}
      (h : ∀ other ∈ others, ascii '&' ∉ other ∧ (parameter other).1 ≠ bytesOf name) :
      ((others.filter (· ≠ [])).map parameter).filter (·.1 = bytesOf name) = [] := by
    refine List.filter_eq_nil_iff.2 fun p hp => ?_
    obtain ⟨other, hother, rfl⟩ := List.mem_map.1 hp
    simpa using (h other (List.mem_of_mem_filter hother)).2
  have hparts : parts (ascii '&') ([ascii '&'].intercalate (before ++ part :: after)) =
      before ++ part :: after :=
    parts_intercalate (by simp) <| List.forall_mem_append.2 ⟨fun other h => (hothers.1 other h).1,
      List.forall_mem_cons.2 ⟨hpart.1, fun other h => (hothers.2 other h).1⟩⟩
  rw [valuesOf, parameters, hparts, List.filter_append, List.map_append, List.filter_append,
    hnone hothers.1, List.nil_append, List.filter_cons_of_pos (by simpa using hpart.2.1),
    List.map_cons, List.filter_cons_of_pos (by simpa using hpart.2.2), hnone hothers.2]
  rfl

/-- **A limit never makes a request fail unless it is repeated.** -/
theorem limit_lenient (request : Request) :
    let query := request.target.query.getD []
    ((valuesOf "limit" query).length ≤ 1 → ∃ limit, request.limit? = some limit ∧
      (∀ n : Int, 1 ≤ n → n ≤ 2 ^ 63 - 1 → (∃ value ∈ valuesOf "limit" query, Names value n) →
        (effectiveLimit limit : Int) = n) ∧
      ((∀ n : Int, 1 ≤ n → n ≤ 2 ^ 63 - 1 → ∀ value ∈ valuesOf "limit" query, ¬ Names value n) →
        effectiveLimit limit = 10) ∧
      ∀ service part user now entropy, userOf? part = some user →
        recommendationsFor service part request now entropy =
          (service.recommendations user limit now entropy).response fun list =>
            RecommendationsAnswer.document ⟨list⟩) ∧
    (2 ≤ (valuesOf "limit" query).length → request.limit? = none ∧
      ∀ service user now entropy,
        recommendationsFor service user request now entropy = .refusal .badRequest) ∧
    ∀ (n : Int64) (name value : Bytes) (before after : List Bytes),
      Percent.Encodes name (bytesOf "limit") →
      Percent.Encodes value (bytesOf (toString n.toInt)) →
      (∀ part ∈ before ++ after, ascii '&' ∉ part ∧ (parameter part).1 ≠ bytesOf "limit") →
      query = [ascii '&'].intercalate (before ++ (name ++ ascii '=' :: value) :: after) →
      request.limit? = some n := by
  intro query
  refine ⟨fun hlength => ?_, fun hlength => ?_, ?_⟩
  · obtain ⟨limit, hlimit, hnamed, hdefault⟩ := limit?_of_length_le_one hlength
    have hlimit : request.limit? = some limit := hlimit
    refine ⟨limit, hlimit, hnamed, hdefault, fun service part user now entropy huser => ?_⟩
    simp only [recommendationsFor, huser, hlimit]
  · have hnone : request.limit? = none := limit?_of_two_le_length hlength
    refine ⟨hnone, fun service user now entropy => ?_⟩
    rw [recommendationsFor, hnone]
    cases userOf? user <;> rfl
  · -- an encoded limit holds no mark that parts parameters, so it is one of the parts
    intro n name value before after hname hvalue hothers hquery
    obtain ⟨hnameAnd, hnameEquals⟩ := not_mem_of_encodes hname
    obtain ⟨hvalueAnd, -⟩ := not_mem_of_encodes hvalue
    have hparameter : parameter (name ++ ascii '=' :: value) = _ := parameter_append hnameEquals
    rw [decode_of_encodes hname, decode_of_encodes hvalue] at hparameter
    have hpart : ascii '&' ∉ name ++ ascii '=' :: value := by
      have hequals : ascii '&' ≠ ascii '=' := by decide
      simp [hnameAnd, hvalueAnd, hequals]
    have hvalues : valuesOf "limit" query = [bytesOf (toString n.toInt)] := by
      rw [hquery, valuesOf_intercalate ⟨hpart, by simp, by rw [hparameter]⟩ hothers, hparameter]
    show limit? query = some n
    rw [limit?, hvalues]
    exact congrArg some (lenientInt_of_names (names_toString n.toInt))

/-- A request with a query. -/
def asking (query : String) : Request where
  method := "GET"
  target := ⟨(Route.recommendations (bytesOf "1")).path, some (bytesOf query)⟩
  headers := []
  body := []
  stamp := none

/-- Seven recommendations are asked for among other parameters; one and one are refused. -/
theorem limit_lenient_seven :
    (asking "page=2&%6Cimi%74=%37&limit_=1").limit? = some 7 ∧
    (∃ limit, (asking "page=2&%6Cimi%74=%37&limit_=1").limit? = some limit ∧
      (effectiveLimit limit : Int) = 7) ∧
    (asking "limit=1&limit=1").limit? = none := by
  obtain ⟨hread, -, hencoded⟩ := limit_lenient (asking "page=2&%6Cimi%74=%37&limit_=1")
  obtain ⟨-, hrepeated, -⟩ := limit_lenient (asking "limit=1&limit=1")
  have hname : Percent.Encodes (bytesOf "%6Cimi%74") (bytesOf "limit") :=
    .escaped rfl <| .plain (by decide) <| .plain (by decide) <| .plain (by decide) <|
      .escaped rfl .nil
  have hvalue : Percent.Encodes (bytesOf "%37") (bytesOf (toString (7 : Int64).toInt)) :=
    .escaped rfl .nil
  have hvalues : valuesOf "limit" (bytesOf "page=2&%6Cimi%74=%37&limit_=1") =
      [bytesOf (toString (7 : Int))] := by decide +kernel
  obtain ⟨limit, hlimit, hseven, -⟩ := hread (by
    show (valuesOf "limit" (bytesOf "page=2&%6Cimi%74=%37&limit_=1")).length ≤ 1
    rw [hvalues]
    exact Nat.le_refl 1)
  refine ⟨hencoded 7 _ _ [bytesOf "page=2"] [bytesOf "limit_=1"] hname hvalue (by decide +kernel)
    rfl, ⟨limit, hlimit, hseven 7 (by decide) (by decide) ⟨_, ?_, names_toString 7⟩⟩,
    (hrepeated (by decide +kernel)).1⟩
  show _ ∈ valuesOf "limit" (bytesOf "page=2&%6Cimi%74=%37&limit_=1")
  rw [hvalues]
  exact List.mem_cons_self

end Query

end Recommender.Http
