import Serialize.Format.FixedPoint

/-!
# Checks that hold

The checks a provided method makes on its way, on any stream, where the declaration is legal.
-/

namespace Serialize

open Machine
open Binary32 (Arithmetic)

theorem sub_le_of_not_le {width bound : U32} (h : ¬width ≤ bound) : bound ≤ width := by
  rw [BitVec.le_def] at h ⊢
  omega

theorem bitsRequired128_bounds {min max : I128} (h : min ≠ max) :
    1 ≤ (bitsRequired128 0 (max - min)).toNat ∧ (bitsRequired128 0 (max - min)).toNat ≤ 128 := by
  rw [toNat_bitsRequired128]
  refine ⟨Nat.size_pos.mpr (Nat.pos_of_ne_zero fun hzero => ?_), Nat.size_le.mpr (BitVec.isLt _)⟩
  rw [sub_zero] at hzero
  exact h (sub_eq_zero.mp (BitVec.eq_of_toNat_eq hzero)).symm

theorem declarationCheck_of {S : Type} [StreamCore S] {declared : Prop} [Decidable declared]
    (h : declared) (profile : Profile) (stream : S) :
    (declarationCheck declared : Action S Unit) profile stream = .ok () stream := by
  rw [declarationCheck, if_pos h, pure_apply]

theorem declarationCheck_congr {S : Type} [StreamCore S] {declared declared' : Prop}
    [Decidable declared] [Decidable declared'] (h : declared ↔ declared') :
    (declarationCheck declared : Action S Unit) = declarationCheck declared' := by
  by_cases hdeclared : declared
  · rw [declarationCheck, declarationCheck, if_pos hdeclared, if_pos (h.mp hdeclared)]
  · rw [declarationCheck, declarationCheck, if_neg hdeclared, if_neg (hdeclared ∘ h.mpr)]

/-- The shifts of the capacity check stay inside their words. -/
theorem capacityCheck_eq {S : Type} [StreamCore S] (T : FixedPointStorage) {integerBits : U32}
    (minUnits maxUnits : I64) (hpositive : 1 ≤ integerBits.toNat) (hbits : integerBits.toNat ≤ 128) :
    (capacityCheck T integerBits minUnits maxUnits : Action S Unit)
      = declarationCheck (Decoders.Capacity T integerBits minUnits maxUnits) := by
  have hsub : integerBits.toNat - 1 < 128 := by omega
  funext profile stream
  by_cases hsigned : T.signed = true
  · rw [capacityCheck, if_pos hsigned, bind_apply, checkedSub_of hpositive, Outcome.bind_ok,
      bind_apply, shiftAmount_of hsub, Outcome.bind_ok, bind_apply, lowMask_of hsub, Outcome.bind_ok]
    exact congrFun₂ (declarationCheck_congr (by rw [Decoders.Capacity, if_pos hsigned])) profile stream
  · rw [capacityCheck, if_neg hsigned]
    exact congrFun₂ (declarationCheck_congr (by rw [Decoders.Capacity, if_neg hsigned])) profile stream

theorem units_do_not_overflow (minUnits maxUnits : I64) :
    (maxUnits.signExtend 128).ssubOverflow (minUnits.signExtend 128) = false := by
  have hmin := BitVec.toInt_lt (x := minUnits)
  have hmin' := BitVec.le_toInt minUnits
  have hmax := BitVec.toInt_lt (x := maxUnits)
  have hmax' := BitVec.le_toInt maxUnits
  rw [BitVec.ssubOverflow, BitVec.toInt_signExtend_of_le (by decide),
    BitVec.toInt_signExtend_of_le (by decide)]
  simp only [Bool.or_eq_false_iff, decide_eq_false_iff_not]
  omega

theorem largestLength_eq {σ : Type} {bufferSize : Nat} (h : bufferSize ≤ i32Max) (profile : Profile)
    (state : σ) : (largestLength bufferSize : Action σ I32) profile state
      = .ok (BitVec.ofNat 32 bufferSize - 1) state := by
  have hne : BitVec.ofNat 32 bufferSize ≠ BitVec.intMin 32 := by
    intro heq
    have hnat := congrArg BitVec.toNat heq
    rw [BitVec.toNat_ofNat, show (BitVec.intMin 32).toNat = 2 ^ 31 from rfl] at hnat
    simp only [i32Max] at h
    omega
  rw [largestLength, bind_apply, noOverflow_of hne, Outcome.bind_ok, pure_apply]

theorem serializeCompressedFloatParams_eq [Arithmetic] {σ : Type} {min max resolution : F32}
    (horder : Binary32.lt min max = true ∧ Binary32.lt Binary32.zero resolution = true)
    (hdelta : Binary32.isFinite (Arithmetic.sub max min) = true)
    (hcount : Binary32.isFinite (Arithmetic.div (Arithmetic.sub max min) resolution) = true)
    (profile : Profile) (state : σ) :
    serializeCompressedFloatParams min max resolution profile state
      = .ok (compressedFloatParams min max resolution) state := by
  rw [serializeCompressedFloatParams, bind_apply, debugAssert_of horder, Outcome.bind_ok, bind_apply,
    debugAssert_of hdelta, Outcome.bind_ok, bind_apply, debugAssert_of hcount, Outcome.bind_ok,
    pure_apply]

end Serialize
