import Recommender.Proofs.Numerals
import Recommender.Proofs.Decimals
import Recommender.Json.Encode
import Mathlib.Data.Int.Basic

/-!
# Integers in JSON

An integer that 64 bits hold is read from the digits that are written for it and from no other
number.

* `Numeral.ofInt`, `Numeral.spells_ofInt` : the number that is written for an integer.
* `Numeral.number?_ofInt`, `Numeral.eq_ofInt` : it is understood as the integer, and no other is.
-/

namespace Recommender.Json

open Text

/-! ### The text of an integer -/

/-- An integer is written as its sign and its digits. -/
theorem encodeInt_eq (n : Int) :
    encodeInt n = Numeral.sign (n < 0) ++ (Nat.toDigits 10 n.natAbs).map ascii := by
  have hdigits (m : Nat) : bytesOf (toString m) = (Nat.toDigits 10 m).map ascii := by
    rw [Nat.toString_eq_ofList_toDigits]
    refine bytesOf_ofList fun c hc => ?_
    have := Digits.toNat_bounds (Digits.isDigit_of_mem_toDigits hc)
    omega
  cases n with
  | ofNat m =>
    have hsign : ¬ Int.ofNat m < 0 := by simp
    simp only [Numeral.sign, hsign, decide_false, Bool.false_eq_true, if_false, List.nil_append]
    exact hdigits m
  | negSucc m =>
    have hsign : Int.negSucc m < 0 := Int.negSucc_lt_zero m
    simp only [Numeral.sign, hsign, decide_true, if_true]
    have hnegative := congrArg (ascii '-' :: ·) (hdigits (m + 1))
    exact (bytesOf_append "-" (toString (m + 1))).trans hnegative

namespace Numeral

/-- The number that is written for an integer. -/
def ofInt (n : Int) : Numeral :=
  ⟨n < 0, (Nat.toDigits 10 n.natAbs).map ascii, none, none⟩

theorem areDigits_toDigits (n : Nat) : AreDigits ((Nat.toDigits 10 n).map ascii) :=
  ⟨by simp [Nat.toDigits_ne_nil],
    List.forall_mem_map.2 fun _ hc => isDigit_ascii (Digits.isDigit_of_mem_toDigits hc)⟩

/-- Among digits, only the zero has the byte of the zero. -/
theorem eq_zero_of_ascii {c : Char} (h : c.isDigit) (hzero : ascii c = ascii '0') : c = '0' := by
  have hbounds := Digits.toNat_bounds h
  have hcode := congrArg UInt8.toNat hzero
  rw [toNat_ascii (by omega)] at hcode
  exact Char.toNat_inj.1 hcode

theorem length_toDigits_of_head? {n : Nat}
    (h : ((Nat.toDigits 10 n).map ascii).head? = some (ascii '0')) :
    ((Nat.toDigits 10 n).map ascii).length = 1 := by
  rw [List.head?_map, Option.map_eq_some_iff] at h
  obtain ⟨c, hc, hzero⟩ := h
  obtain rfl :=
    eq_zero_of_ascii (Digits.isDigit_of_mem_toDigits (List.mem_of_mem_head? hc)) hzero
  rw [Digits.eq_zero_of_head? hc]
  rfl

/-- What is written for an integer spells its number. -/
theorem spells_ofInt (n : Int) : (ofInt n).Spells (encodeInt n) := by
  have h : (ofInt n).Spells (sign (n < 0) ++ (Nat.toDigits 10 n.natAbs).map ascii ++ [] ++ []) :=
    .mk (areDigits_toDigits n.natAbs) length_toDigits_of_head? .none .none
  rwa [List.append_nil, List.append_nil, ← encodeInt_eq] at h

/-! ### The integer of a text -/

/-- The value of digits, after a number. -/
def valueAfter (sofar : Nat) (ds : Bytes) : Nat :=
  ds.foldl (fun n d => 10 * n + digitValue d) sofar

theorem valueAfter_map_ascii {cs : List Char} (h : ∀ c ∈ cs, c.isDigit) :
    valueAfter 0 (cs.map ascii) = Digits.value cs := by
  rw [valueAfter, List.foldl_map, Digits.value, Nat.ofDigitChars_eq_foldl]
  refine List.foldl_ext _ _ _ fun n c hc => ?_
  have := Digits.toNat_bounds (h c hc)
  rw [digitValue, toNat_ascii (by omega)]

theorem le_valueAfter (sofar : Nat) (ds : Bytes) : sofar ≤ valueAfter sofar ds := by
  induction ds generalizing sofar with
  | nil => exact Nat.le_refl _
  | cons d ds ih =>
    have := ih (10 * sofar + digitValue d)
    exact Nat.le_trans (by omega) this

/-- All digits are added if their value fits 64 bits. -/
theorem gather_of_lt {sofar : Nat} {ds : Bytes} (h : valueAfter sofar ds < UInt64.size) :
    gather sofar ds = (valueAfter sofar ds, 0) := by
  induction ds generalizing sofar with
  | nil => rfl
  | cons d ds ih =>
    have hnext : 10 * sofar + digitValue d < UInt64.size :=
      Nat.lt_of_le_of_lt (le_valueAfter _ ds) h
    rw [gather, if_pos hnext, ih h]
    rfl

/-- If no digit is left out, all were added. -/
theorem valueAfter_of_gather {sofar : Nat} {ds : Bytes} (h : (gather sofar ds).2 = 0) :
    (gather sofar ds).1 = valueAfter sofar ds := by
  induction ds generalizing sofar with
  | nil => rfl
  | cons d ds ih =>
    rw [gather] at h ⊢
    split at h
    · next hnext =>
      rw [if_pos hnext]
      exact ih h
    · cases h

theorem valueAfter_toDigits (n : Nat) : valueAfter 0 ((Nat.toDigits 10 n).map ascii) = n := by
  rw [valueAfter_map_ascii fun _ => Digits.isDigit_of_mem_toDigits, Digits.value_toDigits]

/-- What is written for an integer of 64 bits is understood as the integer. -/
theorem number?_ofInt {n : Int} (hlow : Int64.minValue.toInt ≤ n) (hhigh : n < UInt64.size) :
    (ofInt n).number? = some (.integer n) := by
  have hmin : Int64.minValue.toInt = -2 ^ 63 := rfl
  have hsize : UInt64.size = 2 ^ 64 := rfl
  have hgather : gather 0 ((Nat.toDigits 10 n.natAbs).map ascii) = (n.natAbs, 0) := by
    have hvalue := valueAfter_toDigits n.natAbs
    rw [gather_of_lt (by rw [hvalue]; omega), hvalue]
  simp only [number?, ofInt, hgather]
  by_cases hneg : n < 0
  · have hpos : 0 < n.natAbs ∧ n.natAbs ≤ Int64.minValue.toInt.natAbs := by omega
    have hvalue : -(n.natAbs : Int) = n := by omega
    rw [if_neg (by simp [hneg]), if_pos ⟨trivial, hpos⟩, hvalue]
  · have hvalue : (n.natAbs : Int) = n := by omega
    rw [if_pos (by simp [hneg]), hvalue]

/-- Only what is written for an integer is understood as the integer. -/
theorem eq_ofInt {numeral : Numeral} {text : Bytes} {n : Int} (h : numeral.Spells text)
    (hn : numeral.number? = some (.integer n)) : numeral = ofInt n ∧ text = encodeInt n := by
  obtain @⟨negative, whole, fraction, exponent, point, power, hwhole, hzero, hpoint, hpower⟩ := h
  obtain ⟨cs, hcs, rfl⟩ := exists_chars hwhole.2
  have hne : cs ≠ [] := by
    rintro rfl
    exact hwhole.1 rfl
  have hhead (h : cs.head? = some '0') : cs.length = 1 := by
    simpa using hzero (by rw [List.head?_map, h]; rfl)
  have hdigits : Nat.toDigits 10 (Digits.value cs) = cs := Digits.toDigits_value hne hcs hhead
  have hgather (h : (gather 0 (cs.map ascii)).2 = 0) :
      (gather 0 (cs.map ascii)).1 = Digits.value cs := by
    rw [valueAfter_of_gather h, valueAfter_map_ascii hcs]
  have hsigned (x : Option Binary64) :
      number?.signed ⟨negative, cs.map ascii, fraction, exponent⟩ x ≠ some (.integer n) := by
    cases x <;> simp [number?.signed]
  -- a number with a fraction or an exponent is a float if it has a value at all
  cases hpoint with
  | some => exact absurd hn (hsigned _)
  | none =>
    cases hpower with
    | bare | plus | minus => exact absurd hn (hsigned _)
    | none =>
      have hofInt (hsign : negative = decide (n < 0)) (habs : n.natAbs = Digits.value cs) :
          (⟨negative, cs.map ascii, none, none⟩ : Numeral) = ofInt n ∧
            sign negative ++ cs.map ascii ++ [] ++ [] = encodeInt n := by
        rw [encodeInt_eq, ofInt, habs, hdigits, hsign]
        simp
      -- the digits are all gathered, and the sign of the value is the one that is spelled
      simp only [number?] at hn
      split at hn
      · next hplain =>
        have hvalue := hgather hplain.1
        have hn : ((gather 0 (cs.map ascii)).1 : Int) = n := by simpa using hn
        refine hofInt ?_ (by omega)
        rw [decide_eq_false (by omega)]
        simpa using hplain.2
      · next hplain =>
        split at hn
        · next hnegative =>
          have hvalue := hgather hnegative.1
          have hn : -((gather 0 (cs.map ascii)).1 : Int) = n := by simpa using hn
          refine hofInt ?_ (by omega)
          rw [decide_eq_true (by omega)]
          simpa [hnegative.1] using hplain
        · exact absurd hn (hsigned _)

end Numeral

end Recommender.Json
