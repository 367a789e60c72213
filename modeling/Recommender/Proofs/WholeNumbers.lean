import Recommender.Binary64
import Recommender.Decimal.Shortest
import Mathlib

/-!
# Whole numbers as floating point numbers

A count is turned into a floating point number to serve as a score. Below `2 ^ 53` nothing is lost
by that: the bits of the count become the mantissa, moved up until the first of them stands in its
place, and no bit is rounded away.

* `Binary64.Full` : a mantissa of all 53 bits; such a number is rounded, packed and unpacked as it
  is (`Binary64.roundWithAccuracy_full`, `Binary64.unpack_pack_full`).
* `Binary64.bits_ofNat` : the bits of a whole number.
* `Binary64.totalOrder_ofNat` : whole numbers are ranked in their order.
* `Binary64.toRat`, `Binary64.toRat_ofNat` : the number that a floating point number is; that of a
  whole number is the number itself.
-/

namespace Recommender

namespace Binary64

open Float.Model Float.Model.UnpackedFloat

/-! ### Full mantissas -/

/-- The mantissa has all of its 53 bits. -/
def Full (m : Nat) : Prop :=
  2 ^ 52 ≤ m ∧ m < 2 ^ 53

theorem Full.pos {m : Nat} (h : Full m) : 0 < m := by
  unfold Full at h
  omega

theorem Full.log2_mul {m : Nat} (h : Full m) (k : Nat) : (m * 2 ^ k).log2 = 52 + k := by
  have hpow : 0 < 2 ^ k := Nat.two_pow_pos k
  rw [Nat.log2_eq_iff (Nat.mul_pos h.pos hpow).ne', Nat.pow_add, Nat.add_right_comm, Nat.pow_add]
  exact ⟨Nat.mul_le_mul_right _ h.1, Nat.mul_lt_mul_of_pos_right h.2 hpow⟩

/-- Dropping zeros from the end of a mantissa loses nothing. -/
theorem shiftRight_exact (m k : Nat) :
    (⟨m * 2 ^ k, false, false⟩ : ExtendedMantissa) >>> k = ⟨m, false, false⟩ := by
  show Nat.repeat ExtendedMantissa.shiftRightOne k _ = _
  induction k generalizing m with
  | zero => simp [Nat.repeat]
  | succ k ih =>
    have hsplit : m * 2 ^ (k + 1) = 2 * m * 2 ^ k := by rw [Nat.pow_succ]; ring
    rw [Nat.repeat, hsplit, ih]
    simp [ExtendedMantissa.shiftRightOne]

/-- A full mantissa with zeros after it is cut to itself. -/
theorem shiftToTargetExponent_full {m : Nat} {e : Int} (k : Nat) (hm : Full m)
    (he : -1074 ≤ e + k) :
    shiftToTargetExponent .binary64 (m * 2 ^ k) e .exact = (⟨m, false, false⟩, e + k) := by
  have htarget : Format.binary64.targetExponent (totalExponent (m * 2 ^ k) e) = e + k := by
    simp only [Format.targetExponent, totalExponent, Format.mantissaBits, Format.minExponent,
      hm.log2_mul]
    omega
  simp [shiftToTargetExponent, htarget, shiftToExponent, ExtendedMantissa.ofMantissaAndAccuracy,
    shiftRight_exact]

theorem roundWithAccuracy_full (s : Sign) {m : Nat} {e : Int} (k : Nat) (hm : Full m)
    (he : -1074 ≤ e + k) :
    roundWithAccuracy .binary64 s (m * 2 ^ k) e .exact = .finite s m (e + k) hm.pos := by
  have hagain := shiftToTargetExponent_full (e := e + k) 0 hm (by omega)
  rw [Nat.pow_zero, Nat.mul_one] at hagain
  simp [roundWithAccuracy, shiftToTargetExponent_full k hm he, hagain,
    ExtendedMantissa.roundedMantissa, ExtendedMantissa.accuracy, Accuracy.roundToNearestEven,
    hm.pos.ne']

/-! ### Packing -/

/-- A full mantissa is packed without its first bit, which is always set. -/
theorem pack_full {s : Sign} {m : Nat} {e : Int} (hm : Full m) (he : e ≤ 971) :
    UnpackedFloat.pack .binary64 (.finite s m e hm.pos) =
      packComponents .binary64 s (.ofNat 11 (e + 1075).toNat) (.ofNat 52 m) := by
  have hlog : m.log2 = 52 := by simpa using hm.log2_mul 0
  have hbias : e + (Format.binary64.exponentBias : Nat) + (52 : Nat) = e + 1075 := by
    simp only [Format.exponentBias]
    omega
  simp only [UnpackedFloat.pack, hbias, hlog, Format.mantissaBits]
  rw [if_neg (by norm_num; omega)]
  rfl

theorem Full.append {m : Nat} (h : Full m) : (1#1 ++ BitVec.ofNat 52 m).toNat = m := by
  obtain ⟨hle, hlt⟩ := h
  rw [BitVec.toNat_append, ← Nat.shiftLeft_add_eq_or_of_lt (BitVec.isLt _), BitVec.toNat_ofNat,
    Nat.shiftLeft_eq]
  norm_num
  omega

/-- What is packed in this way is unpacked again. -/
theorem unpack_pack_full {s : Sign} {m : Nat} {e : Int} (hm : Full m) (hlow : -1074 ≤ e)
    (hhigh : e ≤ 971) :
    (Float.Model.pack (.finite s m e hm.pos)).unpack = .finite s m e hm.pos := by
  have hexp : (BitVec.ofNat 11 (e + 1075).toNat).toNat = (e + 1075).toNat := by
    rw [BitVec.toNat_ofNat]
    omega
  -- the exponents that mark infinities and numbers without a first bit are not reached
  have hfinite : BitVec.ofNat 11 (e + 1075).toNat ≠ -1#11 := by
    intro h
    have hvalue := congrArg BitVec.toNat h
    rw [hexp] at hvalue
    norm_num at hvalue
    omega
  have hnormal : BitVec.ofNat 11 (e + 1075).toNat ≠ 0#11 := by
    intro h
    have hvalue := congrArg BitVec.toNat h
    rw [hexp] at hvalue
    norm_num at hvalue
    omega
  unfold Float.Model.unpack Float.Model.pack
  simp only [pack_full hm hhigh, UnpackedFloat.unpack, unpackExponent_packComponents,
    unpackMantissa_packComponents, unpackSign_packComponents, Sign.ofBitVec_toBitVec, hfinite,
    hnormal, if_false, hexp, hm.append, Format.exponentBias]
  congr 1
  omega

/-- The bits of a positive number with a full mantissa. -/
theorem toBits_pack_full {m : Nat} {e : Int} (hm : Full m) (he : e ≤ 971) :
    (Float.Model.pack (.finite .positive m e hm.pos)).toBits.toNat =
      (e + 1075).toNat * 2 ^ 52 + (m - 2 ^ 52) := by
  obtain ⟨hle, hlt⟩ := id hm
  have hexp : (e + 1075).toNat % 2 ^ 11 = (e + 1075).toNat := Nat.mod_eq_of_lt (by omega)
  have hrest : m % 2 ^ 52 = m - 2 ^ 52 := by omega
  show (UnpackedFloat.pack .binary64 (.finite .positive m e hm.pos)).toNat = _
  rw [pack_full hm he]
  show (0#1 ++ BitVec.ofNat 11 (e + 1075).toNat ++ BitVec.ofNat 52 m).toNat = _
  rw [BitVec.toNat_append, BitVec.toNat_append, ← Nat.shiftLeft_add_eq_or_of_lt (BitVec.isLt _),
    ← Nat.shiftLeft_add_eq_or_of_lt (BitVec.isLt _), BitVec.toNat_ofNat m, hrest,
    BitVec.toNat_ofNat (e + 1075).toNat, hexp, Nat.shiftLeft_eq]
  simp

/-! ### Whole numbers -/

theorem log2_lt {n : Nat} (hpos : 0 < n) (hn : n < 2 ^ 53) : n.log2 < 53 :=
  (Nat.log2_lt hpos.ne').2 hn

/-- The mantissa of a whole number: its bits, moved up until the first one stands in its place. -/
def mantissaOf (n : Nat) : Nat :=
  n * 2 ^ (52 - n.log2)

theorem full_mantissaOf {n : Nat} (hpos : 0 < n) (hn : n < 2 ^ 53) : Full (mantissaOf n) := by
  have hlog := log2_lt hpos hn
  have hle := Nat.log2_self_le hpos.ne'
  have hlt := Nat.lt_log2_self (n := n)
  have hpow : 0 < 2 ^ (52 - n.log2) := Nat.two_pow_pos _
  constructor
  · calc 2 ^ 52 = 2 ^ n.log2 * 2 ^ (52 - n.log2) := by rw [← Nat.pow_add]; congr 1; omega
      _ ≤ mantissaOf n := Nat.mul_le_mul_right _ hle
  · calc mantissaOf n < 2 ^ (n.log2 + 1) * 2 ^ (52 - n.log2) := Nat.mul_lt_mul_of_pos_right hlt hpow
      _ = 2 ^ 53 := by rw [← Nat.pow_add]; congr 1; omega

/-- A whole number is converted without rounding. -/
theorem ofNat_unpacked {n : Nat} (hpos : 0 < n) (hn : n < 2 ^ 53) :
    UnpackedFloat.ofNat .binary64 n =
      .finite .positive (mantissaOf n) (n.log2 - 52) (full_mantissaOf hpos hn).pos := by
  have hlog := log2_lt hpos hn
  have htarget : Format.binary64.targetExponent (totalExponent n 0) = n.log2 - 52 := by
    simp only [Format.targetExponent, totalExponent, Format.mantissaBits, Format.minExponent]
    omega
  have hshift : (0 - ((n.log2 : Int) - 52)).toNat = 52 - n.log2 := by omega
  have hexponent : (0 : Int) - (52 - n.log2 : Nat) = n.log2 - 52 := by omega
  have hround := roundWithAccuracy_full .positive (e := n.log2 - 52) 0 (full_mantissaOf hpos hn)
    (by omega)
  simp only [Nat.pow_zero, Nat.mul_one, Nat.cast_zero, Int.add_zero] at hround
  simp only [UnpackedFloat.ofNat, UnpackedFloat.ofInt, UnpackedFloat.normalize]
  rw [Int.compare_eq_gt.2 (by omega)]
  simp only [Int.toNat_natCast, UnpackedFloat.round, htarget, decreaseExponent, hshift,
    Nat.shiftLeft_eq, hexponent]
  exact hround

/-- The floating point number of a whole number. -/
theorem ofNat_toModel {n : Nat} (hpos : 0 < n) (hn : n < 2 ^ 53) :
    (Float.ofNat n).toModel =
      .pack (.finite .positive (mantissaOf n) (n.log2 - 52) (full_mantissaOf hpos hn).pos) := by
  have hlog := log2_lt hpos hn
  have hword : n.toUInt64.toNat = n := Nat.mod_eq_of_lt (by omega)
  have hfull := full_mantissaOf hpos hn
  have hfloat : Float.ofNat n = n.toUInt64.toFloat * .ofBits 0x3FF0000000000000 := by
    show Float.ofScientific n false 0 = _
    rw [Float.ofScientific, dif_pos ⟨hn, by decide⟩]
    rfl
  have hone : (Float.Model.ofBits 0x3FF0000000000000).unpack =
      .finite .positive (2 ^ 52) (-52) (by decide) := by rfl
  rw [hfloat]
  show Float.Model.pack (UnpackedFloat.mul .binary64
    (Float.Model.pack (UnpackedFloat.ofNat .binary64 n.toUInt64.toNat)).unpack
    (Float.Model.ofBits 0x3FF0000000000000).unpack) = _
  rw [hword, ofNat_unpacked hpos hn, unpack_pack_full hfull (by omega) (by omega), hone]
  -- the product has the bits of the number with 52 zeros after them
  have hproduct := roundWithAccuracy_full .positive (e := n.log2 - 52 + -52) 52 hfull (by omega)
  have hexponent : (n.log2 : Int) - 52 + -52 + (52 : Nat) = n.log2 - 52 := by omega
  simp only [hexponent] at hproduct
  exact congrArg _ hproduct

/-- The bits of a positive whole number as a floating point number. -/
theorem bits_ofNat {n : Nat} (hpos : 0 < n) (hn : n < 2 ^ 53) :
    (Scalar.ofNat n : Binary64).bits.toNat =
      (n.log2 + 1023) * 2 ^ 52 + (mantissaOf n - 2 ^ 52) := by
  have hlog := log2_lt hpos hn
  show (Float.ofNat n).toModel.toBits.toNat = _
  rw [ofNat_toModel hpos hn, toBits_pack_full (full_mantissaOf hpos hn) (by omega)]
  congr 2
  omega

theorem bits_ofNat_zero : (Scalar.ofNat 0 : Binary64).bits = 0 := by decide

/-- The sign of a whole number is not set. -/
theorem bits_ofNat_lt {n : Nat} (hn : n < 2 ^ 53) :
    (Scalar.ofNat n : Binary64).bits.toNat < signBit := by
  rcases Nat.eq_zero_or_pos n with rfl | hpos
  · rw [bits_ofNat_zero]
    decide
  · have hlog := log2_lt hpos hn
    have hfull := (full_mantissaOf hpos hn).2
    rw [bits_ofNat hpos hn, signBit]
    omega

theorem isNegative_ofNat {n : Nat} (hn : n < 2 ^ 53) :
    (Scalar.ofNat n : Binary64).isNegative = false := by
  simp [isNegative, bits_ofNat_lt hn]

theorem rank_ofNat {n : Nat} (hn : n < 2 ^ 53) :
    (Scalar.ofNat n : Binary64).rank = (Scalar.ofNat n : Binary64).bits.toNat := by
  simp [rank, isNegative_ofNat hn, magnitude, Nat.mod_eq_of_lt (bits_ofNat_lt hn)]

/-- The greater of two whole numbers has the greater rank. -/
theorem rank_ofNat_lt {m n : Nat} (h : m < n) (hn : n < 2 ^ 53) :
    (Scalar.ofNat m : Binary64).rank < (Scalar.ofNat n : Binary64).rank := by
  have hpos : 0 < n := by omega
  have hfull := full_mantissaOf hpos hn
  unfold Full at hfull
  rw [rank_ofNat (h.trans hn), rank_ofNat hn, bits_ofNat hpos hn]
  rcases Nat.eq_zero_or_pos m with rfl | hmpos
  · rw [bits_ofNat_zero, UInt64.toNat_zero]
    omega
  · have hmfull := full_mantissaOf hmpos (h.trans hn)
    unfold Full at hmfull
    rw [bits_ofNat hmpos (h.trans hn)]
    have hlog : m.log2 ≤ n.log2 := by
      rw [Nat.le_log2 hpos.ne']
      exact (Nat.log2_self_le hmpos.ne').trans h.le
    rcases Nat.eq_or_lt_of_le hlog with heq | hlt
    · -- with as many bits, the mantissas decide
      have hmantissa : mantissaOf m < mantissaOf n := by
        rw [mantissaOf, mantissaOf, heq]
        exact Nat.mul_lt_mul_of_pos_right h (Nat.two_pow_pos _)
      rw [heq]
      omega
    · omega

/-- **Rankings order whole numbers as such.** -/
theorem totalOrder_ofNat {m n : Nat} (hm : m < 2 ^ 53) (hn : n < 2 ^ 53) :
    Scalar.totalOrder (Scalar.ofNat m : Binary64) (Scalar.ofNat n) = compare m n := by
  show compare (rank _) (rank _) = _
  rcases Nat.lt_trichotomy m n with h | rfl | h
  · rw [Std.compare_eq_lt.2 h, Std.compare_eq_lt.2 (rank_ofNat_lt h hn)]
  · rw [Std.compare_self, Std.compare_self]
  · rw [Std.compare_eq_gt.2 h, Std.compare_eq_gt.2 (rank_ofNat_lt h hm)]

/-! ### Exactness -/

/-- The rational number that a finite floating point number is. -/
def toRat (x : Binary64) : ℚ :=
  let b := Binary.ofBits x.bits
  (if x.isNegative then -1 else 1) * (b.mantissa * 2 ^ b.exponent)

theorem binary_ofNat {n : Nat} (hpos : 0 < n) (hn : n < 2 ^ 53) :
    (Binary.ofBits (Scalar.ofNat n : Binary64).bits).mantissa = mantissaOf n ∧
    (Binary.ofBits (Scalar.ofNat n : Binary64).bits).exponent = n.log2 - 52 := by
  have hlog := log2_lt hpos hn
  have hfull := full_mantissaOf hpos hn
  unfold Full at hfull
  have hbiased : (Scalar.ofNat n : Binary64).bits.toNat / Binary.hiddenBit % 2048 =
      n.log2 + 1023 := by
    rw [bits_ofNat hpos hn, Binary.hiddenBit]
    omega
  have hfraction : (Scalar.ofNat n : Binary64).bits.toNat % Binary.hiddenBit =
      mantissaOf n - 2 ^ 52 := by
    rw [bits_ofNat hpos hn, Binary.hiddenBit]
    omega
  simp only [Binary.ofBits, hbiased, hfraction]
  rw [if_neg (by omega)]
  dsimp only [Binary.hiddenBit]
  constructor <;> omega

/-- **A whole number is converted exactly.** -/
theorem toRat_ofNat {n : Nat} (hn : n < 2 ^ 53) : (Scalar.ofNat n : Binary64).toRat = n := by
  rcases Nat.eq_zero_or_pos n with rfl | hpos
  · have hmantissa : (Binary.ofBits (Scalar.ofNat 0 : Binary64).bits).mantissa = 0 := by decide
    simp [toRat, hmantissa]
  · obtain ⟨hmantissa, hexponent⟩ := binary_ofNat hpos hn
    have hlog := log2_lt hpos hn
    have hscale : (2 : ℚ) ^ (52 - n.log2) * 2 ^ ((n.log2 : Int) - 52) = 1 := by
      rw [← zpow_natCast, ← zpow_add₀ two_ne_zero, Nat.cast_sub (by omega)]
      simp
    simp only [toRat, isNegative_ofNat hn, hmantissa, hexponent, mantissaOf]
    push_cast
    rw [mul_assoc, hscale]
    simp

end Binary64

end Recommender
