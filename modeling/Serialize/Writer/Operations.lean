import Serialize.Format.Checks
import Serialize.Format.Codes
import Serialize.Writer.Sink

/-!
# Every operation emits its encoding

The provided methods, on a stream that writes, append the reference encoding of a conforming value.
Each proof follows the method down to the fields it writes: the reading half of a method is no step
on a writer, its assertions hold because the value conforms, and the groups of a wide field put in a
row are one field.
-/

namespace Serialize

open Machine BitString Wrapping
open Binary32 (Arithmetic)
open Operation (rawBound)
open CoreSink
open Utf8 (Text)

section Core

variable {S δ : Type} [StreamCore S] (sink : CoreSink S)

theorem CoreSink.silent_declare {declared : Prop} [Decidable declared] {value : δ} (h : declared) :
    Silent (onState (declarationCheck (S := S) declared)) value () :=
  Silent.onState (declarationCheck_of h)

/-! ### Groups -/

theorem serializeBits_emits {value width : U32} (hwidth : 1 ≤ width.toNat ∧ width.toNat ≤ 32)
    (hvalue : value.toNat < 2 ^ width.toNat) :
    sink.Emits (serializeBits width) value () fun _ => toBits width.toNat value.toNat := by
  intro build bits _
  rw [length_toBits]
  exact ⟨sink.serializeBits_eq build bits value width hwidth hvalue,
    fun hstrict => sink.serializeBits_trap hstrict build bits value width hwidth hvalue⟩

theorem group_emits {value : δ} {initial width : U32} {n : Nat}
    (hwidth : 1 ≤ width.toNat ∧ width.toNat ≤ 32) (hinitial : initial.toNat = n)
    (hn : n < 2 ^ width.toNat) :
    sink.Emits (inLocal initial (serializeBits width)) value initial
      fun _ => toBits width.toNat n := by
  subst hinitial
  exact Emits.inLocal (serializeBits_emits sink hwidth hn)

theorem dword_emits {value : δ} {initial : U32} {n : Nat} (hinitial : initial.toNat = n)
    (hn : n < 2 ^ 32) :
    sink.Emits (inLocal initial (serializeBits 32)) value initial fun _ => toBits 32 n :=
  group_emits sink (by decide) hinitial hn

theorem toNat_setWidth_32 {w : Nat} {x : BitVec w} (h : x.toNat < 2 ^ 32) :
    (x.setWidth 32).toNat = x.toNat := by
  rw [BitVec.toNat_setWidth, Nat.mod_eq_of_lt h]

theorem toNat_group {w : Nat} (x : BitVec w) (k : Nat) :
    ((x >>> k).setWidth 32).toNat = x.toNat / 2 ^ k % 2 ^ 32 := by
  rw [BitVec.toNat_setWidth, BitVec.toNat_ushiftRight, Nat.shiftRight_eq_div_pow]

theorem toNat_lowDword (x : U64) :
    ((x &&& 0xFFFFFFFF).setWidth 32 : U32).toNat = x.toNat % 2 ^ 32 := by
  have hmask : (0xFFFFFFFF : U64).toNat = 2 ^ 32 - 1 := rfl
  rw [BitVec.toNat_setWidth, BitVec.toNat_and, hmask, Nat.and_two_pow_sub_one_eq_mod, Nat.mod_mod]

theorem div_two_pow_lt {v k n : Nat} (hk : k ≤ n) (h : v < 2 ^ n) : v / 2 ^ k < 2 ^ (n - k) := by
  rw [Nat.div_lt_iff_lt_mul (Nat.two_pow_pos k), ← pow_add, Nat.sub_add_cancel hk]
  exact h

theorem middle_emits {w : Nat} {value : δ} (offset : BitVec w) (k : Nat) :
    sink.Emits (inLocal ((offset >>> k).setWidth 32) (serializeBits 32)) value
      ((offset >>> k).setWidth 32) fun _ => toBits 32 (offset.toNat / 2 ^ k % 2 ^ 32) :=
  dword_emits sink (toNat_group offset k) (Nat.mod_lt _ (Nat.two_pow_pos _))

/-- The last group of a wide number: what its full groups left of it. -/
theorem last_emits {w : Nat} {value : δ} {offset : BitVec w} {width rest : U32} {k : Nat}
    (hoffset : offset.toNat < 2 ^ width.toNat) (hsum : width.toNat = k + rest.toNat)
    (hrest : 1 ≤ rest.toNat ∧ rest.toNat ≤ 32) :
    sink.Emits (inLocal ((offset >>> k).setWidth 32) (serializeBits rest)) value
      ((offset >>> k).setWidth 32) fun _ => toBits rest.toNat (offset.toNat / 2 ^ k) := by
  have hlt : offset.toNat / 2 ^ k < 2 ^ rest.toNat := by
    have hdiv := div_two_pow_lt (k := k) (by omega) hoffset
    rwa [hsum, Nat.add_sub_cancel_left] at hdiv
  have hsmall : offset.toNat / 2 ^ k % 2 ^ 32 = offset.toNat / 2 ^ k :=
    Nat.mod_eq_of_lt (hlt.trans_le (Decoders.two_pow_le_of_le hrest.2))
  exact group_emits sink hrest ((toNat_group offset k).trans hsmall) hlt

theorem toBits_low_dword {n m : Nat} (h : n = 32 + m) (v : Nat) :
    toBits n v = toBits 32 (v % 2 ^ 32) ++ toBits m (v / 2 ^ 32) := by
  rw [h, toBits_add, toBits_mod]

theorem serializeDwords_emits {value : δ} {offset : U64} {width : U32}
    (hwidth : 1 ≤ width.toNat ∧ width.toNat ≤ 64) (hoffset : offset.toNat < 2 ^ width.toNat) :
    ∃ result, sink.Emits (serializeDwords offset width) value result
      fun _ => toBits width.toNat offset.toNat := by
  by_cases h32 : width ≤ 32
  · have hle : width.toNat ≤ 32 := h32
    have hlow : offset.toNat < 2 ^ 32 := hoffset.trans_le (Decoders.two_pow_le_of_le hle)
    rw [serializeDwords, if_pos h32]
    exact ⟨_, Emits.after (group_emits sink ⟨hwidth.1, hle⟩ (toNat_setWidth_32 hlow) hoffset)
      (Silent.pure _)⟩
  · have hlt : 32 < width.toNat := Nat.not_le.mp h32
    have hrest : (width - 32).toNat = width.toNat - 32 :=
      Decoders.toNat_sub_of_le (Nat.le_of_lt hlt)
    rw [serializeDwords, if_neg h32, toBits_low_dword (m := (width - 32).toNat) (by omega)]
    exact ⟨_, Emits.append
      (dword_emits sink (toNat_lowDword offset) (Nat.mod_lt _ (Nat.two_pow_pos _)))
      (Emits.before (fun build stream => checkedSubBits_of (sub_le_of_not_le h32) build _)
        (Emits.after (last_emits sink hoffset (by omega) (by omega)) (Silent.pure _)))⟩

theorem serializeOffset128_emits {offset : U128} {width : U32} (hwidth : 1 ≤ width ∧ width ≤ 128)
    (hoffset : offset.toNat < 2 ^ width.toNat) :
    sink.Emits (serializeOffset128 width) offset () fun _ => toBits width.toNat offset.toNat := by
  have hpositive : 1 ≤ width.toNat := hwidth.1
  have hmost : width.toNat ≤ 128 := hwidth.2
  have hgroup0 : (offset.setWidth 32).toNat = offset.toNat % 2 ^ 32 := BitVec.toNat_setWidth ..
  have hlow := @dword_emits S U128 _ sink offset _ _ hgroup0 (Nat.mod_lt _ (Nat.two_pow_pos 32))
  refine Emits.before (Silent.debugAssert hwidth) (Emits.before Silent.load ?_)
  dsimp only
  by_cases h32 : width ≤ 32
  · have hle : width.toNat ≤ 32 := h32
    have hsmall : offset.toNat < 2 ^ 32 := hoffset.trans_le (Decoders.two_pow_le_of_le hle)
    rw [if_pos h32]
    exact Emits.after (group_emits sink ⟨hpositive, hle⟩ (toNat_setWidth_32 hsmall) hoffset)
      (silent_reading sink _)
  have hlt32 : 32 < width.toNat := Nat.not_le.mp h32
  have hrest32 : (width - 32).toNat = width.toNat - 32 :=
    Decoders.toNat_sub_of_le (Nat.le_of_lt hlt32)
  rw [if_neg h32]
  by_cases h64 : width ≤ 64
  · have hle : width.toNat ≤ 64 := h64
    rw [if_pos h64, toBits_low_dword (m := (width - 32).toNat) (by omega)]
    exact Emits.append hlow
      (Emits.before (fun build stream => checkedSubBits_of (sub_le_of_not_le h32) build _)
        (Emits.after (last_emits sink hoffset (by omega) (by omega)) (silent_reading sink _)))
  have hlt64 : 64 < width.toNat := Nat.not_le.mp h64
  have hrest64 : (width - 64).toNat = width.toNat - 64 :=
    Decoders.toNat_sub_of_le (Nat.le_of_lt hlt64)
  have hmiddle : toBits (width - 32).toNat (offset.toNat / 2 ^ 32)
      = toBits 32 (offset.toNat / 2 ^ 32 % 2 ^ 32)
        ++ toBits (width - 64).toNat (offset.toNat / 2 ^ 64) := by
    rw [toBits_low_dword (m := (width - 64).toNat) (by omega), Nat.div_div_eq_div_mul, ← pow_add]
  rw [if_neg h64, toBits_low_dword (m := (width - 32).toNat) (by omega), hmiddle]
  by_cases h96 : width ≤ 96
  · have hle : width.toNat ≤ 96 := h96
    rw [if_pos h96]
    exact Emits.append hlow (Emits.append (middle_emits sink offset 32)
      (Emits.before (fun build stream => checkedSubBits_of (sub_le_of_not_le h64) build _)
        (Emits.after (last_emits sink hoffset (by omega) (by omega)) (silent_reading sink _))))
  have hlt96 : 96 < width.toNat := Nat.not_le.mp h96
  have hrest96 : (width - 96).toNat = width.toNat - 96 :=
    Decoders.toNat_sub_of_le (Nat.le_of_lt hlt96)
  have hhigh : toBits (width - 64).toNat (offset.toNat / 2 ^ 64)
      = toBits 32 (offset.toNat / 2 ^ 64 % 2 ^ 32)
        ++ toBits (width - 96).toNat (offset.toNat / 2 ^ 96) := by
    rw [toBits_low_dword (m := (width - 96).toNat) (by omega), Nat.div_div_eq_div_mul, ← pow_add]
  rw [if_neg h96, hhigh]
  exact Emits.append hlow (Emits.append (middle_emits sink offset 32)
    (Emits.append (middle_emits sink offset 64)
      (Emits.before (fun build stream => checkedSubBits_of (sub_le_of_not_le h96) build _)
        (Emits.after (last_emits sink hoffset (by omega) (by omega)) (silent_reading sink _)))))

/-! ### Ranged integers -/

/-- The three ranged integers are one method over the writing of an offset. -/
theorem ranged_emits {w : Nat} {min max value : BitVec w}
    (writeOffset : BitVec w → Action (S × BitVec w) (BitVec w))
    (horder : min.toInt ≤ max.toInt) (hmin : min.toInt ≤ value.toInt)
    (hmax : value.toInt ≤ max.toInt)
    (hoffset : min ≠ max → (value - min).toNat < 2 ^ Nat.size (max - min).toNat →
      ∃ result, sink.Emits (writeOffset (value - min)) value result
        fun _ => toBits (Nat.size (max - min).toNat) (value - min).toNat) :
    sink.Emits (do
        onState (declarationCheck (min.sle max = true))
        if min = max then do
          onState refuseIfFailed
          whenReading (store min)
        else do
          let value ← load
          whenWriting do
            debugAssert (min.sle value = true)
            debugAssert (value.sle max = true)
          let unsignedValue ← writeOffset (if isWriting S then value - min else 0)
          whenReading
            (if max - min < unsignedValue then onState (StreamCore.fail .valueOutOfRange)
            else store (unsignedValue + min)))
      value () fun _ => rangedBits min.toInt max.toInt value.toInt := by
  refine Emits.before (silent_declare (BitVec.sle_iff_toInt_le.mpr horder)) ?_
  by_cases heq : min = max
  · subst heq
    have hcode : rangedBits min.toInt min.toInt value.toInt = [] := by simp [rangedBits]
    rw [if_pos rfl, hcode]
    exact Emits.silent (Silent.bind (silent_gate sink) (silent_reading sink _))
  · have hle : (value.toInt - min.toInt).toNat ≤ (max.toInt - min.toInt).toNat := by omega
    have hcode : rangedBits min.toInt max.toInt value.toInt
        = toBits (Nat.size (max - min).toNat) (value - min).toNat := by
      rw [rangedBits, toNat_sub horder, toNat_sub hmin]
    have hfits : (value - min).toNat < 2 ^ Nat.size (max - min).toNat := by
      rw [toNat_sub horder, toNat_sub hmin]
      exact hle.trans_lt (Nat.size_le.mp (le_refl _))
    obtain ⟨result, hresult⟩ := hoffset heq hfits
    rw [if_neg heq, hcode]
    refine Emits.before Silent.load (Emits.before (silent_writing sink ?_) ?_)
    · exact Silent.bind (Silent.debugAssert (BitVec.sle_iff_toInt_le.mpr hmin))
        (Silent.debugAssert (BitVec.sle_iff_toInt_le.mpr hmax))
    · rw [if_pos sink.writes]
      exact Emits.after hresult (silent_reading sink _)

theorem serializeInt_emits {min max value : I32} (horder : min.toInt ≤ max.toInt)
    (hmin : min.toInt ≤ value.toInt) (hmax : value.toInt ≤ max.toInt) :
    sink.Emits (serializeInt min max) value ()
      fun _ => rangedBits min.toInt max.toInt value.toInt := by
  refine ranged_emits sink (fun offset => inLocal offset (serializeBits _)) horder hmin hmax
    fun hne hfits => ?_
  have hwidth : (bitsRequired 0 (max - min)).toNat = Nat.size (max - min).toNat := by
    rw [toNat_bitsRequired, Decoders.sub_zero_toNat]
  rw [← hwidth] at hfits ⊢
  refine ⟨_, group_emits sink ?_ rfl hfits⟩
  rw [hwidth]
  exact ⟨Decoders.size_sub_pos hne, Decoders.size_sub_zero_le _⟩

theorem serializeInt64_emits {min max value : I64} (horder : min.toInt ≤ max.toInt)
    (hmin : min.toInt ≤ value.toInt) (hmax : value.toInt ≤ max.toInt) :
    sink.Emits (serializeInt64 min max) value ()
      fun _ => rangedBits min.toInt max.toInt value.toInt := by
  refine ranged_emits sink (fun offset => serializeDwords offset _) horder hmin hmax
    fun hne hfits => ?_
  have hwidth : (bitsRequired64 0 (max - min)).toNat = Nat.size (max - min).toNat := by
    rw [toNat_bitsRequired64, Decoders.sub_zero_toNat]
  rw [← hwidth] at hfits ⊢
  refine serializeDwords_emits sink ?_ hfits
  rw [hwidth]
  exact ⟨Decoders.size_sub_pos hne, Decoders.size_sub_zero_le _⟩

theorem serializeInt128_emits {min max value : I128} (horder : min.toInt ≤ max.toInt)
    (hmin : min.toInt ≤ value.toInt) (hmax : value.toInt ≤ max.toInt) :
    sink.Emits (serializeInt128 min max) value ()
      fun _ => rangedBits min.toInt max.toInt value.toInt := by
  refine ranged_emits sink (fun offset => inLocal offset (serializeOffset128 _)) horder hmin hmax
    fun hne hfits => ?_
  have hwidth : (bitsRequired128 0 (max - min)).toNat = Nat.size (max - min).toNat := by
    rw [toNat_bitsRequired128, Decoders.sub_zero_toNat]
  rw [← hwidth] at hfits ⊢
  exact ⟨_, Emits.inLocal (serializeOffset128_emits sink (bitsRequired128_bounds hne) hfits)⟩

/-! ### Raw fields -/

theorem serializeBits64_emits {value : U64} {width : U32}
    (hwidth : 1 ≤ width.toNat ∧ width.toNat ≤ 64) (hvalue : value.toNat < 2 ^ width.toNat) :
    sink.Emits (serializeBits64 width) value () fun _ => toBits width.toNat value.toNat := by
  obtain ⟨result, hresult⟩ := @serializeDwords_emits S _ _ sink value value width hwidth hvalue
  refine Emits.before (silent_declare hwidth) (Emits.before Silent.load ?_)
  refine Emits.before (silent_writing sink (Silent.inChecked ?_)) ?_
  · exact Silent.bind (Silent.noOverflow (by omega)) (Silent.require hvalue)
  · exact Emits.after hresult (silent_reading sink _)

theorem serializeBool_emits (value : Bool) :
    sink.Emits serializeBool value () fun _ => [value] := by
  have hinitial : (if isWriting S && value then 1 else 0 : U32).toNat = value.toNat := by
    rw [sink.writes]
    cases value with
    | true => rfl
    | false => rfl
  have hvalue : value.toNat < 2 ^ 1 := Nat.lt_succ_of_le (Bool.toNat_le value)
  rw [← toBits_one_toNat value]
  exact Emits.before Silent.load (Emits.after
    (@group_emits S _ _ sink _ _ 1 _ (by decide) hinitial hvalue) (silent_reading sink _))

theorem serializeNarrow_emits {w : Nat} (hw : 1 ≤ w ∧ w ≤ 32) (value : BitVec w) :
    sink.Emits (serializeNarrow w) value () fun _ => toBits w value.toNat := by
  have hwidth : (BitVec.ofNat 32 w).toNat = w := by
    rw [BitVec.toNat_ofNat, Nat.mod_eq_of_lt (by omega)]
  have hinitial : (value.setWidth 32).toNat = value.toNat :=
    toNat_setWidth_32 (value.isLt.trans_le (Decoders.two_pow_le_of_le hw.2))
  have hgroup := @group_emits S _ _ sink value _ (BitVec.ofNat 32 w) _
    (by rw [hwidth]; exact hw) hinitial (by rw [hwidth]; exact value.isLt)
  rw [hwidth] at hgroup
  exact Emits.before Silent.load (Emits.after hgroup (silent_reading sink _))

theorem serializeU32_emits (value : U32) :
    sink.Emits serializeU32 value () fun _ => toBits 32 value.toNat :=
  serializeBits_emits sink (by decide) value.isLt

theorem serializeU64_emits (value : U64) :
    sink.Emits serializeU64 value () fun _ => toBits 64 value.toNat :=
  serializeBits64_emits sink (by decide) value.isLt

theorem serializeU128_emits (value : U128) :
    sink.Emits serializeU128 value () fun _ => toBits 128 value.toNat := by
  have hlow : (value.setWidth 64 : U64).toNat = value.toNat % 2 ^ 64 := BitVec.toNat_setWidth ..
  have hhigh : ((value >>> 64).setWidth 64 : U64).toNat = value.toNat / 2 ^ 64 := by
    have hlt := value.isLt
    rw [BitVec.toNat_setWidth, BitVec.toNat_ushiftRight, Nat.shiftRight_eq_div_pow,
      Nat.mod_eq_of_lt (by omega)]
  have hcode : toBits 128 value.toNat = toBits 64 (value.setWidth 64 : U64).toNat
      ++ toBits 64 ((value >>> 64).setWidth 64 : U64).toNat := by
    rw [hlow, hhigh, toBits_mod]
    exact toBits_add 64 64 value.toNat
  rw [hcode]
  exact Emits.before Silent.load (Emits.append (Emits.inLocal (serializeU64_emits sink _))
    (Emits.after (Emits.inLocal (serializeU64_emits sink _)) (silent_reading sink _)))

theorem serializeF32_emits {value : F32} (hfinite : Binary32.isFinite value = true) :
    sink.Emits serializeF32 value () fun _ => toBits 32 value.toNat := by
  have hasserted : floatBitsAreFinite value = true := by
    rw [Decoders.floatBitsAreFinite_eq]
    exact hfinite
  refine Emits.before Silent.load (Emits.before (silent_writing sink
    (Silent.debugAssert hasserted)) ?_)
  rw [if_pos sink.writes]
  exact Emits.after (dword_emits sink rfl value.isLt) (silent_reading sink _)

theorem serializeF64_emits {value : F64} (hfinite : Binary64.isFinite value = true) :
    sink.Emits serializeF64 value () fun _ => toBits 64 value.toNat := by
  have hasserted : doubleBitsAreFinite value = true := by
    rw [Decoders.doubleBitsAreFinite_eq]
    exact hfinite
  refine Emits.before Silent.load (Emits.before (silent_writing sink
    (Silent.debugAssert hasserted)) ?_)
  rw [if_pos sink.writes]
  exact Emits.after (Emits.inLocal (serializeU64_emits sink value)) (silent_reading sink _)

/-! ### Fixed point -/

theorem serializeFixed_emits {T : FixedPointStorage} {integerBits fractionBits : U32}
    {minUnits maxUnits : I64} {value : BitVec T.bits}
    (hlegal : Operation.FixedLegal T integerBits fractionBits minUnits maxUnits)
    (hmin : rawBound minUnits fractionBits ≤ T.toInt value)
    (hmax : T.toInt value ≤ rawBound maxUnits fractionBits) :
    sink.Emits (serializeFixed T integerBits fractionBits minUnits maxUnits) value ()
      fun _ => rangedBits (rawBound minUnits fractionBits) (rawBound maxUnits fractionBits)
        (T.toInt value) := by
  have hcapacity := Decoders.capacity_of_legal hlegal
  have ⟨hpositive, hwidth, horder, hlow, hhigh⟩ := hlegal
  have hbits := T.bits_le
  have hspan := T.maxRaw_sub_minRaw
  unfold serializeFixed
  rw [capacityCheck_eq T minUnits maxUnits hpositive (by omega)]
  refine Emits.before (silent_declare hpositive) (Emits.before (silent_declare hwidth)
    (Emits.before (silent_declare (BitVec.sle_iff_toInt_le.mpr horder))
      (Emits.before (silent_declare hcapacity) (Emits.before (Silent.shiftAmount (show fractionBits.toNat < 128 by omega))
        (Emits.before (Silent.noOverflow (units_do_not_overflow minUnits maxUnits)) ?_)))))
  dsimp only
  by_cases heq : minUnits = maxUnits
  · subst heq
    have hvalue : T.toUnsigned value = minUnits.signExtend 128 <<< fractionBits.toNat := by
      rw [T.toUnsigned_eq, Decoders.rawMin_eq, le_antisymm hmax hmin]
    have hcode : rangedBits (rawBound minUnits fractionBits) (rawBound minUnits fractionBits)
        (T.toInt value) = [] := by simp [rangedBits]
    rw [if_pos rfl, hcode]
    exact Emits.silent (Silent.bind (silent_gate sink) (Silent.bind Silent.load
      (Silent.bind (silent_writing sink (Silent.debugAssert hvalue)) (silent_reading sink _))))
  · have hwidth128 := Decoders.rawRange_bounds hlow hhigh horder heq
    have hoffset : (T.toUnsigned value - minUnits.signExtend 128 <<< fractionBits.toNat : U128).toNat
        = (T.toInt value - rawBound minUnits fractionBits).toNat := by
      have hraw := T.toInt_bounds value
      rw [T.toUnsigned_eq, Decoders.rawMin_eq, ← ofInt_sub]
      exact toNat_ofInt (by omega) (by omega)
    have hle := (Decoders.rawOffset_le_iff hlegal value).mpr
      ⟨hmin, hmax⟩
    have hsize := Decoders.toNat_bitLength_rawRange hlow hhigh horder
    have hfits : (T.toUnsigned value - minUnits.signExtend 128 <<< fractionBits.toNat : U128).toNat
        < 2 ^ (bitLength ((maxUnits.signExtend 128 - minUnits.signExtend 128)
          <<< fractionBits.toNat : U128)).toNat := by
      rw [toNat_bitLength (by decide)]
      exact (BitVec.le_def.mp hle).trans_lt (Nat.size_le.mp (le_refl _))
    rw [if_neg heq, rangedBits, ← hsize, ← hoffset]
    refine Emits.before Silent.load (Emits.before (silent_writing sink (Silent.debugAssert hle)) ?_)
    rw [if_pos sink.writes]
    exact Emits.after (Emits.inLocal (serializeOffset128_emits sink hwidth128 hfits))
      (silent_reading sink _)

/-! ### Relative integers -/

theorem serializeAbsolute_emits {previous current : I32} (hcurrent : 0 ≤ current.toInt) :
    sink.Emits (serializeAbsolute previous) current ()
      fun _ => toBits 32 current.toInt.toNat := by
  have hcode : current.toInt.toNat = current.toNat := by
    have hcond := BitVec.toInt_eq_toNat_cond current
    have hlt := current.isLt
    omega
  rw [hcode]
  refine Emits.before Silent.load ?_
  rw [if_pos sink.writes]
  exact Emits.after (dword_emits sink rfl current.isLt) (silent_reading sink _)

/-- The first tier that holds the difference is the one whose flag is set. -/
theorem serializeBuckets_emits {previous current difference : I32} (hcurrent : 0 ≤ current.toInt)
    {ladder : List (U32 × I32 × I32)} {least : Int} (hladder : Decoders.Ladder least ladder)
    (hthreshold : ∀ tier ∈ ladder, (tier.1.toNat : Int) = tier.2.2.toInt)
    (hleast : least ≤ difference.toInt) (hdifference : 0 ≤ difference.toInt) :
    sink.Emits (serializeBuckets previous difference ladder) current ()
      fun _ => tierBits difference.toInt current.toInt (ladder.map Decoders.tierBounds) := by
  induction ladder generalizing least with
  | nil => exact serializeAbsolute_emits sink hcurrent
  | cons tier rest ih =>
      obtain ⟨threshold, low, high⟩ := tier
      obtain ⟨⟨rfl, -, horder⟩, hrest⟩ := hladder
      have hhigh : (threshold.toNat : Int) = high.toInt := hthreshold _ List.mem_cons_self
      have hflag : (isWriting S && decide (difference ≤ threshold))
          = decide (difference.toInt ≤ high.toInt) := by
        have hcond := BitVec.toInt_eq_toNat_cond difference
        have hlt := difference.isLt
        rw [sink.writes, Bool.true_and, decide_eq_decide, BitVec.le_def, ← hhigh]
        omega
      unfold serializeBuckets
      rw [hflag, List.map_cons]
      have hbool := @Emits.inLocal S I32 _ _ sink current _ _ _
        (serializeBool_emits sink (decide (difference.toInt ≤ high.toInt)))
      by_cases hin : difference.toInt ≤ high.toInt
      · have hcode : tierBits difference.toInt current.toInt
            (Decoders.tierBounds (threshold, low, high) :: rest.map Decoders.tierBounds)
              = [true] ++ rangedBits low.toInt high.toInt difference.toInt := if_pos hin
        rw [decide_eq_true hin] at hbool ⊢
        rw [hcode]
        refine Emits.append hbool ?_
        rw [if_pos rfl, if_pos sink.writes]
        exact Emits.after (Emits.inLocal (serializeInt_emits sink horder hleast hin))
          (silent_reading sink _)
      · have hcode : tierBits difference.toInt current.toInt
            (Decoders.tierBounds (threshold, low, high) :: rest.map Decoders.tierBounds)
              = [false] ++ tierBits difference.toInt current.toInt
                (rest.map Decoders.tierBounds) := if_neg hin
        rw [decide_eq_false hin] at hbool ⊢
        rw [hcode]
        refine Emits.append hbool ?_
        rw [if_neg Bool.false_ne_true]
        exact ih hrest (fun tier htier => hthreshold tier (List.mem_cons_of_mem _ htier)) (by omega)

theorem buckets_threshold : ∀ tier ∈ buckets, (tier.1.toNat : Int) = tier.2.2.toInt := by
  intro tier htier
  simp only [buckets, List.mem_cons, List.not_mem_nil, or_false] at htier
  rcases htier with rfl | rfl | rfl | rfl | rfl <;> rfl

theorem serializeIntRelative_emits {previous current : I32} (hprevious : 0 ≤ previous.toInt)
    (horder : previous.toInt < current.toInt) :
    sink.Emits (serializeIntRelative previous) current ()
      fun _ => relativeBits previous.toInt current.toInt := by
  have hcurrent := i32_toInt_bounds current
  have hdifference : (current - previous).toInt = current.toInt - previous.toInt := by
    rw [sub_eq_ofInt]
    exact Decoders.toInt_ofInt_i32 (by omega) (by omega)
  have hflag : (isWriting S && decide (current - previous = 1))
      = decide (current.toInt - previous.toInt = 1) := by
    rw [sink.writes, Bool.true_and, decide_eq_decide, ← hdifference, ← BitVec.toInt_inj]
    rfl
  have hbool := @Emits.inLocal S I32 _ _ sink current _ _ _
    (serializeBool_emits sink (decide (current.toInt - previous.toInt = 1)))
  refine Emits.before (silent_declare (BitVec.sle_iff_toInt_le.mpr hprevious))
    (Emits.before Silent.load (Emits.before (silent_writing sink
      (Silent.debugAssert (BitVec.slt_iff_toInt_lt.mpr horder))) ?_))
  rw [if_pos sink.writes, relativeBits]
  dsimp only
  rw [hflag]
  by_cases hone : current.toInt - previous.toInt = 1
  · rw [decide_eq_true hone] at hbool ⊢
    rw [if_pos hone]
    exact Emits.after hbool (silent_reading sink _)
  · have hbuckets := @serializeBuckets_emits S _ sink previous current (current - previous)
      (by omega) buckets 2 Decoders.buckets_ladder buckets_threshold (by omega) (by omega)
    rw [hdifference] at hbuckets
    rw [decide_eq_false hone] at hbool ⊢
    rw [if_neg hone]
    exact Emits.append hbool hbuckets

/-! ### Compressed floats -/

section CompressedFloat

variable [Arithmetic]

omit [Arithmetic] in
theorem clamp_le (value bound : U32) :
    (if bound < value then bound else value).toNat ≤ bound.toNat := by
  split
  next => exact Nat.le_refl _
  next h => exact BitVec.not_lt.mp h

theorem quantize_le (value : F32) (maxIntegerValue : U32) (delta min : F32) :
    (quantize value maxIntegerValue delta min).toNat ≤ maxIntegerValue.toNat :=
  clamp_le _ _

theorem serializeCompressedFloatPrecomputed_emits {maxIntegerValue width : U32}
    {delta min value : F32} (hlegal : Operation.PrecomputedLegal maxIntegerValue width delta)
    (hvalue : Binary32.isFinite value = true)
    (htop : Binary32.isFinite (Arithmetic.add min delta) = true) :
    sink.Emits (serializeCompressedFloatPrecomputed maxIntegerValue width delta min) value ()
      fun _ => toBits width.toNat (quantize value maxIntegerValue delta min).toNat := by
  obtain ⟨hrange, hwidth, hdelta, hfinite⟩ := hlegal
  have hbits : width = bitsRequired 0 maxIntegerValue := by
    apply BitVec.eq_of_toNat_eq
    rw [hwidth, toNat_bitsRequired, Decoders.sub_zero_toNat]
  have hsize : 1 ≤ width.toNat ∧ width.toNat ≤ 32 := by
    rw [hwidth]
    exact ⟨Nat.size_pos.mpr hrange.1, Nat.size_le.mpr maxIntegerValue.isLt⟩
  have hfits : (quantize value maxIntegerValue delta min).toNat < 2 ^ width.toNat := by
    rw [hwidth]
    exact (quantize_le value maxIntegerValue delta min).trans_lt (Nat.size_le.mp (le_refl _))
  refine Emits.before (silent_declare hrange) (Emits.before (silent_declare hbits)
    (Emits.before (silent_declare hdelta) (Emits.before (silent_declare hfinite)
      (Emits.before Silent.load (Emits.before (silent_writing sink
        (Silent.bind (Silent.debugAssert hvalue) (Silent.debugAssert htop))) ?_)))))
  rw [if_pos sink.writes]
  exact Emits.after (group_emits sink hsize rfl hfits) (silent_reading sink _)

omit [Arithmetic] in
/-- The clamped quantum count lies in `[1, 4294967040]`, whatever the division gave. -/
theorem clampQuantumCount_range (values : F32) :
    Binary32.isNaN (clampQuantumCount values) = false
      ∧ Binary32.lt (clampQuantumCount values) Binary32.one = false
      ∧ Binary32.lt Binary32.largestBelowU32 (clampQuantumCount values) = false := by
  unfold clampQuantumCount
  split
  next => decide
  next hlow =>
    rw [Bool.not_eq_true, Bool.or_eq_false_iff] at hlow
    split
    next => decide
    next hhigh => exact ⟨hlow.1, hlow.2, Bool.not_eq_true _ ▸ hhigh⟩

theorem compressedFloatParams_legal {min max resolution : F32}
    (horder : Binary32.lt min max = true)
    (hdelta : Binary32.isFinite (Arithmetic.sub max min) = true) :
    Operation.PrecomputedLegal (compressedFloatParams min max resolution).maxIntegerValue
      (compressedFloatParams min max resolution).bits
      (compressedFloatParams min max resolution).delta := by
  obtain ⟨hnan, hlow, hhigh⟩ :=
    clampQuantumCount_range (Arithmetic.div (Arithmetic.sub max min) resolution)
  refine ⟨Arithmetic.ceil_range _ hnan hlow hhigh, ?_, Arithmetic.sub_pos min max horder hdelta,
    hdelta⟩
  rw [← Decoders.sub_zero_toNat (compressedFloatParams min max resolution).maxIntegerValue,
    ← toNat_bitsRequired]
  rfl

theorem serializeCompressedFloat_emits {min max resolution value : F32}
    (hlegal : (Operation.compressedFloat min max resolution).Legal)
    (hvalue : Binary32.isFinite value = true)
    (htop : Binary32.isFinite (Arithmetic.add min (Arithmetic.sub max min)) = true) :
    sink.Emits (serializeCompressedFloat min max resolution) value ()
      fun _ => toBits (compressedFloatParams min max resolution).bits.toNat
        (quantize value (compressedFloatParams min max resolution).maxIntegerValue
          (compressedFloatParams min max resolution).delta min).toNat := by
  obtain ⟨horder, hresolution, hdelta, hcount⟩ := hlegal
  refine Emits.before (silent_declare ⟨horder, hresolution⟩) (Emits.before (silent_declare hdelta)
    (Emits.before (silent_declare hcount) (Emits.before (fun build stream =>
      serializeCompressedFloatParams_eq ⟨horder, hresolution⟩ hdelta hcount build _) ?_)))
  exact serializeCompressedFloatPrecomputed_emits sink (compressedFloatParams_legal horder hdelta)
    hvalue htop

end CompressedFloat

/-! ### String lengths -/

section Strings

variable {value : Text} {bufferSize : Nat}

omit [StreamCore S] in
theorem stringLength_silent {value' : δ} (hlegal : 1 ≤ bufferSize ∧ bufferSize ≤ i32Max)
    (hshort : value.bytes.length < bufferSize) (hnone : 0 ∉ value.bytes) :
    Silent (stringLength value bufferSize : Action (S × δ) I32) value'
      (BitVec.ofNat 32 value.bytes.length) :=
  Silent.bind (Silent.debugAssert hlegal) (Silent.bind (Silent.debugAssert hshort)
    (Silent.bind (Silent.debugAssert hnone) (Silent.pure _)))

omit [StreamCore S] in
theorem largestLength_silent {value' : δ} (hlegal : 1 ≤ bufferSize ∧ bufferSize ≤ i32Max) :
    Silent (largestLength bufferSize : Action (S × δ) I32) value'
      (BitVec.ofNat 32 bufferSize - 1) :=
  fun build stream => largestLength_eq hlegal.2 build (stream, value')

theorem length_emits {value' : δ} (hlegal : 1 ≤ bufferSize ∧ bufferSize ≤ i32Max)
    (hshort : value.bytes.length < bufferSize) :
    sink.Emits (inLocal (BitVec.ofNat 32 value.bytes.length)
        (serializeInt 0 (BitVec.ofNat 32 bufferSize - 1))) value'
      (BitVec.ofNat 32 value.bytes.length)
      fun _ => rangedBits 0 (bufferSize - 1) value.bytes.length := by
  have hmax := hlegal.2
  simp only [i32Max] at hmax
  have hzero : (0 : I32).toInt = 0 := rfl
  have hlargest := Decoders.largest_toInt hlegal
  have hlength : (BitVec.ofNat 32 value.bytes.length).toInt = value.bytes.length :=
    Decoders.toInt_ofNat_i32 (by omega)
  have hint := @serializeInt_emits S _ sink 0 (BitVec.ofNat 32 bufferSize - 1)
    (BitVec.ofNat 32 value.bytes.length) (by omega) (by omega) (by omega)
  rw [hlargest, hlength, hzero] at hint
  exact Emits.inLocal hint

theorem lengthAndPayload_emits {alignment : Nat → Nat} {payload : Action (S × Text) Unit}
    (hlegal : 1 ≤ bufferSize ∧ bufferSize ≤ i32Max) (hshort : value.bytes.length < bufferSize)
    (hpayload : sink.Emits payload value () fun position => bytesCode alignment position value.bytes) :
    sink.Emits (do
        let largest ← largestLength bufferSize
        let _ ← inLocal (BitVec.ofNat 32 value.bytes.length) (serializeInt 0 largest)
        payload)
      value () fun position => stringCode alignment bufferSize position value.bytes := by
  refine Emits.before (largestLength_silent hlegal) ?_
  exact (Emits.bind (length_emits sink hlegal hshort) hpayload).congr fun _ => rfl

end Strings

end Core

end Serialize
