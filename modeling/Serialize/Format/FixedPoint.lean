import Serialize.Bits.Wrapping
import Serialize.Format.Decoders

/-!
# Fixed point bounds

The raw bounds of a fixed point field are shifted into a 128 bit word, compared there as an unsigned
offset and narrowed back to the storage type. For a legal declaration every one of these steps
stands for the same step on integers, and the whole unit capacity check is exactly that both raw
bounds are values of the storage type.
-/

namespace Serialize

open Wrapping
open Operation (rawBound)

namespace FixedPointStorage

variable (T : FixedPointStorage)

theorem bits_pos : 0 < T.bits := by
  cases T <;> decide

theorem bits_le : T.bits ≤ 128 := by
  cases T <;> decide

theorem toUnsigned_eq (raw : BitVec T.bits) : T.toUnsigned raw = BitVec.ofInt 128 (T.toInt raw) := by
  rw [toUnsigned, toInt]
  split
  · exact signExtend_eq_ofInt raw 128
  · rw [BitVec.ofInt_natCast, BitVec.ofNat_toNat]

theorem fromUnsigned_ofInt (n : Int) : T.fromUnsigned (BitVec.ofInt 128 n) = BitVec.ofInt T.bits n :=
  setWidth_ofInt T.bits_le n

theorem ofInt_toInt (raw : BitVec T.bits) : BitVec.ofInt T.bits (T.toInt raw) = raw := by
  rw [toInt]
  split
  · exact BitVec.ofInt_toInt
  · rw [BitVec.ofInt_natCast, BitVec.ofNat_toNat, BitVec.setWidth_eq]

theorem toInt_bounds (raw : BitVec T.bits) : T.minRaw ≤ T.toInt raw ∧ T.toInt raw ≤ T.maxRaw := by
  rw [minRaw, maxRaw, toInt]
  split
  · have hlt := BitVec.toInt_lt (x := raw)
    have hle := BitVec.le_toInt raw
    omega
  · have hlt : (raw.toNat : Int) < 2 ^ T.bits := by exact_mod_cast raw.isLt
    omega

theorem toInt_ofInt {n : Int} (hlow : T.minRaw ≤ n) (hhigh : n ≤ T.maxRaw) :
    T.toInt (BitVec.ofInt T.bits n) = n := by
  rw [minRaw] at hlow
  rw [maxRaw] at hhigh
  rw [toInt]
  split at hlow
  next hsigned =>
    rw [if_pos hsigned] at hhigh ⊢
    exact Wrapping.toInt_ofInt T.bits_pos hlow (by omega)
  next hsigned =>
    rw [if_neg hsigned] at hhigh ⊢
    rw [toNat_ofInt hlow (by omega), Int.toNat_of_nonneg hlow]

theorem maxRaw_sub_minRaw : T.maxRaw - T.minRaw < 2 ^ 128 := by
  cases T <;> decide

end FixedPointStorage

namespace Decoders

variable {T : FixedPointStorage} {integerBits fractionBits : U32} {minUnits maxUnits : I64}

theorem capacity_signed (hsigned : T.signed = true) (hbits : integerBits.toNat ≤ 128) :
    Capacity T integerBits minUnits maxUnits ↔
      -2 ^ (integerBits.toNat - 1) ≤ minUnits.toInt
        ∧ maxUnits.toInt ≤ 2 ^ (integerBits.toNat - 1) - 1 := by
  have hone : (1#128 : BitVec 128) = BitVec.ofInt 128 1 := rfl
  have hpow : (2 : Int) ^ (integerBits.toNat - 1) ≤ 2 ^ 127 :=
    pow_le_pow_right₀ (by decide) (by omega)
  have hpos : (0 : Int) < 2 ^ (integerBits.toNat - 1) := by positivity
  have hlow : (-(1#128 <<< (integerBits.toNat - 1))).toInt = -2 ^ (integerBits.toNat - 1) := by
    rw [hone, ofInt_shiftLeft, ← BitVec.ofInt_neg, Int.one_mul]
    exact Wrapping.toInt_ofInt (by decide) (by omega) (by omega)
  have hhigh : ((1#128 <<< (integerBits.toNat - 1)) - 1#128).toInt
      = 2 ^ (integerBits.toNat - 1) - 1 := by
    rw [hone, ofInt_shiftLeft, ← ofInt_sub, Int.one_mul]
    exact Wrapping.toInt_ofInt (by decide) (by omega) (by omega)
  rw [Capacity, if_pos hsigned, BitVec.sle_iff_toInt_le, BitVec.sle_iff_toInt_le, hlow, hhigh,
    BitVec.toInt_signExtend_of_le (by decide), BitVec.toInt_signExtend_of_le (by decide)]

theorem capacity_unsigned (hsigned : ¬T.signed = true) (horder : minUnits.toInt ≤ maxUnits.toInt) :
    Capacity T integerBits minUnits maxUnits ↔
      0 ≤ minUnits.toInt ∧ maxUnits.toInt < 2 ^ integerBits.toNat := by
  rw [Capacity, if_neg hsigned, BitVec.sle_iff_toInt_le, show (0 : I64).toInt = 0 from rfl]
  refine and_congr_right fun hmin => ?_
  have hmax : maxUnits.toInt = maxUnits.toNat := by
    have hcond := BitVec.toInt_eq_toNat_cond maxUnits
    have hlt := maxUnits.isLt
    split at hcond
    · exact hcond
    · omega
  rcases Nat.lt_or_ge integerBits.toNat 64 with hlt | hge
  · have hpow : 2 ^ integerBits.toNat < 2 ^ 64 := Nat.pow_lt_pow_right (by decide) hlt
    have hshift : (1#64 <<< integerBits.toNat).toNat = 2 ^ integerBits.toNat := by
      rw [BitVec.toNat_shiftLeft, Nat.shiftLeft_eq, BitVec.toNat_ofNat,
        Nat.mod_eq_of_lt (by decide : 1 < 2 ^ 64), Nat.one_mul, Nat.mod_eq_of_lt hpow]
    rw [BitVec.lt_def, hshift, hmax]
    constructor
    · rintro (hge | hfit)
      · omega
      · exact_mod_cast hfit
    · intro hfit
      exact Or.inr (by exact_mod_cast hfit)
  · have hpow : (2 : Int) ^ 64 ≤ 2 ^ integerBits.toNat := pow_le_pow_right₀ (by decide) hge
    have htop := BitVec.toInt_lt (x := maxUnits)
    constructor
    · intro _
      omega
    · intro _
      exact Or.inl hge

/-- **The capacity check is exact**: it passes just when both raw bounds are values of the storage
type. -/
theorem capacity_iff (hpositive : 1 ≤ integerBits.toNat)
    (hwidth : integerBits.toNat + fractionBits.toNat = T.bits)
    (horder : minUnits.toInt ≤ maxUnits.toInt) :
    Capacity T integerBits minUnits maxUnits ↔
      T.minRaw ≤ rawBound minUnits fractionBits ∧ rawBound maxUnits fractionBits ≤ T.maxRaw := by
  have hbits := T.bits_le
  have hpos : (0 : Int) < 2 ^ fractionBits.toNat := by positivity
  have hle : ∀ a b : Int, a * 2 ^ fractionBits.toNat ≤ b * 2 ^ fractionBits.toNat ↔ a ≤ b :=
    fun a b => mul_le_mul_iff_of_pos_right hpos
  have hlt : ∀ a b : Int, a * 2 ^ fractionBits.toNat ≤ b * 2 ^ fractionBits.toNat - 1 ↔ a < b :=
    fun a b => by rw [Int.le_sub_one_iff]; exact mul_lt_mul_iff_of_pos_right hpos
  rw [rawBound, rawBound, FixedPointStorage.minRaw, FixedPointStorage.maxRaw]
  by_cases hsigned : T.signed = true
  · have hsplit : (2 : Int) ^ (T.bits - 1)
        = 2 ^ (integerBits.toNat - 1) * 2 ^ fractionBits.toNat := by
      rw [← pow_add]
      congr 1
      omega
    rw [if_pos hsigned, if_pos hsigned, capacity_signed hsigned (by omega), hsplit, ← Int.neg_mul,
      hle, hlt, Int.le_sub_one_iff]
  · have hsplit : (2 : Int) ^ T.bits = 2 ^ integerBits.toNat * 2 ^ fractionBits.toNat := by
      rw [← pow_add, hwidth]
    rw [if_neg hsigned, if_neg hsigned, capacity_unsigned hsigned horder, hsplit, hlt]
    refine and_congr_left fun _ => ?_
    rw [← hle 0, Int.zero_mul]

theorem capacity_of_legal
    (h : Operation.FixedLegal T integerBits fractionBits minUnits maxUnits) :
    Capacity T integerBits minUnits maxUnits :=
  (capacity_iff h.integerBits_pos h.width h.order).mpr ⟨h.minRaw_le, h.le_maxRaw⟩

theorem rawBound_le_rawBound (fractionBits : U32) (horder : minUnits.toInt ≤ maxUnits.toInt) :
    rawBound minUnits fractionBits ≤ rawBound maxUnits fractionBits :=
  Int.mul_le_mul_of_nonneg_right horder (by positivity)

theorem rawMin_eq : (minUnits.signExtend 128 <<< fractionBits.toNat : U128)
    = BitVec.ofInt 128 (rawBound minUnits fractionBits) := by
  rw [signExtend_eq_ofInt, ofInt_shiftLeft]
  rfl

theorem rawRange_eq :
    ((maxUnits.signExtend 128 - minUnits.signExtend 128) <<< fractionBits.toNat : U128)
      = BitVec.ofInt 128 (rawBound maxUnits fractionBits - rawBound minUnits fractionBits) := by
  rw [signExtend_eq_ofInt, signExtend_eq_ofInt, ← ofInt_sub, ofInt_shiftLeft, rawBound, rawBound,
    Int.sub_mul]

theorem toNat_rawRange (hlow : T.minRaw ≤ rawBound minUnits fractionBits)
    (hhigh : rawBound maxUnits fractionBits ≤ T.maxRaw)
    (horder : minUnits.toInt ≤ maxUnits.toInt) :
    ((maxUnits.signExtend 128 - minUnits.signExtend 128) <<< fractionBits.toNat : U128).toNat
      = (rawBound maxUnits fractionBits - rawBound minUnits fractionBits).toNat := by
  have hspan := T.maxRaw_sub_minRaw
  have hraw := rawBound_le_rawBound fractionBits horder
  rw [rawRange_eq]
  exact toNat_ofInt (by omega) (by omega)

theorem toNat_bitLength_rawRange (hlow : T.minRaw ≤ rawBound minUnits fractionBits)
    (hhigh : rawBound maxUnits fractionBits ≤ T.maxRaw)
    (horder : minUnits.toInt ≤ maxUnits.toInt) :
    (bitLength ((maxUnits.signExtend 128 - minUnits.signExtend 128)
        <<< fractionBits.toNat : U128)).toNat
      = Nat.size (rawBound maxUnits fractionBits - rawBound minUnits fractionBits).toNat := by
  rw [toNat_bitLength (by decide), toNat_rawRange hlow hhigh horder]

/-- The offset of a legal range that is not degenerate has a width the offset codec takes. -/
theorem rawRange_bounds (hlow : T.minRaw ≤ rawBound minUnits fractionBits)
    (hhigh : rawBound maxUnits fractionBits ≤ T.maxRaw)
    (horder : minUnits.toInt ≤ maxUnits.toInt) (hne : minUnits ≠ maxUnits) :
    1 ≤ (bitLength ((maxUnits.signExtend 128 - minUnits.signExtend 128)
        <<< fractionBits.toNat : U128)).toNat
      ∧ (bitLength ((maxUnits.signExtend 128 - minUnits.signExtend 128)
        <<< fractionBits.toNat : U128)).toNat ≤ 128 := by
  have hlt : minUnits.toInt < maxUnits.toInt :=
    lt_of_le_of_ne horder fun heq => hne (BitVec.eq_of_toInt_eq heq)
  have hraw : rawBound minUnits fractionBits < rawBound maxUnits fractionBits :=
    Int.mul_lt_mul_of_pos_right hlt (by positivity)
  rw [toNat_bitLength (by decide)]
  refine ⟨Nat.size_pos.mpr ?_, Nat.size_le.mpr (BitVec.isLt _)⟩
  rw [toNat_rawRange hlow hhigh horder]
  omega

/-- An offset of a raw value that does not pass the raw span is the offset of a value in range. -/
theorem rawOffset_le_iff
    (hlegal : Operation.FixedLegal T integerBits fractionBits minUnits maxUnits)
    (value : BitVec T.bits) :
    T.toUnsigned value - minUnits.signExtend 128 <<< fractionBits.toNat
        ≤ (maxUnits.signExtend 128 - minUnits.signExtend 128) <<< fractionBits.toNat
      ↔ rawBound minUnits fractionBits ≤ T.toInt value
        ∧ T.toInt value ≤ rawBound maxUnits fractionBits := by
  obtain ⟨hpositive, hwidth, horder, hlow, hhigh⟩ := hlegal
  have hspan := T.maxRaw_sub_minRaw
  have hraw := T.toInt_bounds value
  have hbounds := rawBound_le_rawBound fractionBits horder
  rw [BitVec.le_def, toNat_rawRange hlow hhigh horder, T.toUnsigned_eq, rawMin_eq,
    ← ofInt_sub]
  by_cases hmin : rawBound minUnits fractionBits ≤ T.toInt value
  · rw [toNat_ofInt (by omega) (by omega)]
    omega
  · -- a value below the range wraps to an offset past every raw span
    have hwrapped : (BitVec.ofInt 128 (T.toInt value - rawBound minUnits fractionBits)).toNat
        = (T.toInt value - rawBound minUnits fractionBits + 2 ^ 128).toNat := by
      rw [BitVec.toNat_ofInt]
      omega
    rw [hwrapped]
    omega

end Decoders

end Serialize
