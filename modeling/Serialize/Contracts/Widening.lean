import Serialize.Float.Binary32
import Serialize.Reader.Reachable
import Serialize.Writer.Reachable

/-!
# Widening a ranged field

The three ranged integers compute span, width and offset in 32, 64 and 128 bit words and split their
groups apart from each other. Over bounds that both of two widths can hold they do the same, on all
three streams.
-/

namespace Serialize

open Machine Decode Encode Wrapping
open Binary32 (Arithmetic)

/-! ### Sign extension of a range -/

section Extension

variable {w w' : Nat} {min max value : BitVec w}

theorem toInt_signExtend (h : w ≤ w') (value : BitVec w) :
    (value.signExtend w').toInt = value.toInt :=
  BitVec.toInt_signExtend_of_le h

theorem signExtend_sub (h : w ≤ w') (horder : min.toInt ≤ value.toInt) :
    value.signExtend w' - min.signExtend w' = (value - min).setWidth w' := by
  apply BitVec.eq_of_toNat_eq
  have hlt : (value - min).toNat < 2 ^ w' :=
    (value - min).isLt.trans_le (Nat.pow_le_pow_right (by decide) h)
  rw [toNat_sub (by rw [toInt_signExtend h, toInt_signExtend h]; exact horder), toInt_signExtend h,
    toInt_signExtend h, BitVec.toNat_setWidth, Nat.mod_eq_of_lt hlt, toNat_sub horder]

theorem signExtend_inj (h : w ≤ w') : min.signExtend w' = max.signExtend w' ↔ min = max := by
  constructor
  · intro heq
    have hint := congrArg BitVec.toInt heq
    rw [toInt_signExtend h, toInt_signExtend h] at hint
    exact BitVec.eq_of_toInt_eq hint
  · rintro rfl
    rfl

theorem signExtend_sle (h : w ≤ w') :
    (min.signExtend w').sle (max.signExtend w') = min.sle max := by
  rw [Bool.eq_iff_iff, BitVec.sle_iff_toInt_le, BitVec.sle_iff_toInt_le, toInt_signExtend h,
    toInt_signExtend h]

theorem signExtend_add (hw : 0 < w) (h : w ≤ w') (horder : min.toInt ≤ max.toInt)
    {offset : BitVec w} (hoffset : offset.toNat ≤ (max - min).toNat) :
    offset.setWidth w' + min.signExtend w' = (offset + min).signExtend w' := by
  have hrange := (offset_le_iff hw horder (offset + min)).mp (by rwa [BitVec.add_sub_cancel])
  have hsub := signExtend_sub h hrange.1
  rw [BitVec.add_sub_cancel] at hsub
  rw [← hsub, BitVec.sub_add_cancel]

theorem toNat_setWidth_of_le (h : w ≤ w') (value : BitVec w) :
    (value.setWidth w').toNat = value.toNat := by
  rw [BitVec.toNat_setWidth,
    Nat.mod_eq_of_lt (value.isLt.trans_le (Nat.pow_le_pow_right (by decide) h))]

end Extension

/-! ### Writing -/

section Write

variable {w w' : Nat} {min max value : BitVec w} {σ : Type} {put : U32 → U32 → Action σ Unit}
  {build : Build} {state : σ}

theorem run_ranged {offset : BitVec w → Encoder} (horder : min.toInt ≤ max.toInt)
    (hmin : min.toInt ≤ value.toInt) (hmax : value.toInt ≤ max.toInt) :
    Encoder.run put (Encoders.ranged offset min max value) build state
      = if min = max then .ok () state else Encoder.run put (offset (value - min)) build state := by
  rw [Encoders.ranged, Encoder.run_assert_of (BitVec.sle_iff_toInt_le.mpr horder)]
  split
  · rfl
  · rw [Encoder.run_assert_of (BitVec.sle_iff_toInt_le.mpr hmin),
      Encoder.run_assert_of (BitVec.sle_iff_toInt_le.mpr hmax)]

theorem run_ranged_widen (h : w ≤ w') {offset : BitVec w → Encoder} {offset' : BitVec w' → Encoder}
    (hoffset : min ≠ max → ∀ v : BitVec w, Encoder.run put (offset' (v.setWidth w')) build state
      = Encoder.run put (offset v) build state)
    (horder : min.toInt ≤ max.toInt) (hmin : min.toInt ≤ value.toInt)
    (hmax : value.toInt ≤ max.toInt) :
    Encoder.run put (Encoders.ranged offset' (min.signExtend w') (max.signExtend w')
        (value.signExtend w')) build state
      = Encoder.run put (Encoders.ranged offset min max value) build state := by
  rw [run_ranged horder hmin hmax, run_ranged]
  · by_cases heq : min = max
    · rw [if_pos heq, if_pos ((signExtend_inj h).mpr heq)]
    · rw [if_neg heq, if_neg (mt (signExtend_inj h).mp heq), signExtend_sub h hmin]
      exact hoffset heq _
  · rw [toInt_signExtend h, toInt_signExtend h]
    exact horder
  · rw [toInt_signExtend h, toInt_signExtend h]
    exact hmin
  · rw [toInt_signExtend h, toInt_signExtend h]
    exact hmax

end Write

theorem bitsRequired64_widen (x : U32) : bitsRequired64 0 (x.setWidth 64) = bitsRequired 0 x := by
  apply BitVec.eq_of_toNat_eq
  rw [toNat_bitsRequired64, toNat_bitsRequired, Decoders.sub_zero_toNat, Decoders.sub_zero_toNat,
    toNat_setWidth_of_le (by decide)]

theorem bitsRequired128_widen (x : U64) : bitsRequired128 0 (x.setWidth 128) = bitsRequired64 0 x := by
  apply BitVec.eq_of_toNat_eq
  rw [toNat_bitsRequired128, toNat_bitsRequired64, Decoders.sub_zero_toNat, Decoders.sub_zero_toNat,
    toNat_setWidth_of_le (by decide)]

theorem bitsRequired_le (x : U32) : bitsRequired 0 x ≤ 32 := by
  rw [BitVec.le_def, toNat_bitsRequired]
  exact Decoders.size_sub_zero_le _

theorem bitsRequired64_le (x : U64) : bitsRequired64 0 x ≤ 64 := by
  rw [BitVec.le_def, toNat_bitsRequired64]
  exact Decoders.size_sub_zero_le _

theorem dwords_widen (value : U32) {width : U32} (h : width ≤ 32) :
    Encoders.dwords (value.setWidth 64) width = [.field width value] := by
  rw [Encoders.dwords, if_pos h, BitVec.setWidth_setWidth_of_le _ (by decide), BitVec.setWidth_eq]

theorem offset128Groups_widen (value : U64) {width : U32} (h : width ≤ 64) :
    Encoders.offset128Groups (value.setWidth 128) width = Encoders.dwords value width := by
  have hlow : (value.setWidth 128).setWidth 32 = value.setWidth 32 :=
    BitVec.setWidth_setWidth_of_le _ (by decide)
  have hmask : ((value &&& 0xFFFFFFFF).setWidth 32 : U32) = value.setWidth 32 := by
    apply BitVec.eq_of_toNat_eq
    rw [toNat_lowDword, BitVec.toNat_setWidth]
  have hhigh : (value.setWidth 128 >>> 32).setWidth 32 = ((value >>> 32).setWidth 32 : U32) := by
    apply BitVec.eq_of_toNat_eq
    rw [toNat_group, toNat_group, toNat_setWidth_of_le (by decide)]
  rw [Encoders.offset128Groups, Encoders.dwords, hlow, hmask, hhigh, if_pos h]

section WriteInt

variable {σ : Type} {put : U32 → U32 → Action σ Unit} {build : Build} {state : σ}

theorem run_int_widen {min max value : I32} (horder : min.toInt ≤ max.toInt)
    (hmin : min.toInt ≤ value.toInt) (hmax : value.toInt ≤ max.toInt) :
    Encoder.run put (Encoders.int64 (min.signExtend 64) (max.signExtend 64) (value.signExtend 64))
        build state
      = Encoder.run put (Encoders.int min max value) build state := by
  rw [Encoders.int64, Encoders.int, signExtend_sub (by decide) horder, bitsRequired64_widen]
  refine run_ranged_widen (by decide) (fun _ offset => ?_) horder hmin hmax
  rw [dwords_widen offset (bitsRequired_le _)]

theorem run_int64_widen {min max value : I64} (horder : min.toInt ≤ max.toInt)
    (hmin : min.toInt ≤ value.toInt) (hmax : value.toInt ≤ max.toInt) :
    Encoder.run put (Encoders.int128 (min.signExtend 128) (max.signExtend 128)
        (value.signExtend 128)) build state
      = Encoder.run put (Encoders.int64 min max value) build state := by
  rw [Encoders.int64, Encoders.int128, signExtend_sub (by decide) horder, bitsRequired128_widen]
  refine run_ranged_widen (by decide) (fun hne offset => ?_) horder hmin hmax
  have hpositive : 1 ≤ (bitsRequired64 0 (max - min)).toNat := by
    rw [toNat_bitsRequired64, Decoders.sub_zero_toNat]
    exact Decoders.size_sub_pos hne
  have hle : (bitsRequired64 0 (max - min)).toNat ≤ 64 := bitsRequired64_le _
  have hwidth : 1 ≤ bitsRequired64 0 (max - min) ∧ bitsRequired64 0 (max - min) ≤ 128 :=
    ⟨hpositive, hle.trans (by decide)⟩
  rw [Encoders.offset128, Encoder.run_assert_of hwidth, offset128Groups_widen offset hle]

end WriteInt

/-! ### Reading -/

section Read

variable {w w' : Nat}

theorem ranged_widen (hw : 0 < w) (h : w ≤ w') {offset : Decoder Error (BitVec w)}
    {offset' : Decoder Error (BitVec w')}
    (hoffset : offset' = offset >>= fun value => pure (value.setWidth w')) (min max : BitVec w) :
    Decoders.ranged offset' (min.signExtend w') (max.signExtend w')
      = Decoders.ranged offset min max >>= fun value => pure (value.signExtend w') := by
  rw [Decoders.ranged, Decoders.ranged, signExtend_sle h]
  by_cases horder : min.sle max = true
  · rw [Decoders.declare, if_pos horder]
    simp only [Decoder.bind_eq, Decoder.accept_bind, Decoder.pure_eq]
    rw [BitVec.sle_iff_toInt_le] at horder
    by_cases heq : min = max
    · rw [if_pos heq, if_pos ((signExtend_inj h).mpr heq)]
      rfl
    · rw [if_neg heq, if_neg (mt (signExtend_inj h).mp heq), hoffset, signExtend_sub h horder]
      simp only [Decoder.bind_eq, Decoder.bind_assoc, Decoder.pure_eq, Decoder.accept_bind]
      congr 1
      funext value
      have hlt : (max - min).setWidth w' < value.setWidth w' ↔ max - min < value := by
        rw [BitVec.lt_def, BitVec.lt_def, toNat_setWidth_of_le h, toNat_setWidth_of_le h]
      by_cases hout : max - min < value
      · rw [if_pos hout, if_pos (hlt.mpr hout)]
        rfl
      · rw [if_neg hout, if_neg (mt hlt.mp hout), signExtend_add hw h horder]
        · rfl
        · rw [BitVec.lt_def] at hout
          exact Nat.not_lt.mp hout
  · rw [Decoders.declare, if_neg horder]
    rfl

theorem dwordsDecoder_widen {width : U32} (h : width ≤ 32) :
    Decoders.dwords width = Decoders.group width >>= fun value => pure (value.setWidth 64) := by
  rw [Decoders.dwords, if_pos h]

theorem joinGroups_dwords (low high : U32) : joinGroups low high 0 0
    = (high.setWidth 64 <<< 32 ||| low.setWidth 64).setWidth 128 := by
  have hlow := low.isLt
  have hhigh := high.isLt
  have hdwords := joinDwords_ofNat hlow hhigh
  have hgroups := joinGroups_ofNat hlow hhigh (Nat.two_pow_pos 32) (Nat.two_pow_pos 32)
  rw [BitVec.ofNat_toNat, BitVec.ofNat_toNat, BitVec.setWidth_eq, BitVec.setWidth_eq] at hdwords
  rw [BitVec.ofNat_toNat, BitVec.ofNat_toNat, BitVec.setWidth_eq, BitVec.setWidth_eq] at hgroups
  rw [hdwords, setWidth_ofNat (by decide) (by omega)]
  exact hgroups

theorem joinGroups_low (low : U32) : joinGroups low 0 0 0 = (low.setWidth 64).setWidth 128 := by
  have hzero : (0 : U32).setWidth 64 <<< 32 ||| low.setWidth 64 = low.setWidth 64 := by
    simp
  rw [joinGroups_dwords, hzero]

theorem offset128Decoder_widen {width : U32} (h : width ≤ 64) :
    Decoders.offset128 width
      = Decoders.dwords width >>= fun value => pure (value.setWidth 128) := by
  rw [Decoders.offset128, Decoders.dwords]
  by_cases h32 : width ≤ 32
  · rw [if_pos h32, if_pos h32]
    simp only [Decoder.bind_eq, Decoder.bind_assoc, Decoder.pure_eq, Decoder.accept_bind,
      joinGroups_low]
  · rw [if_neg h32, if_neg h32, if_pos h]
    simp only [Decoder.bind_eq, Decoder.bind_assoc, Decoder.pure_eq, Decoder.accept_bind,
      joinGroups_dwords]

/-- **A 64 bit range over 32 bit bounds decodes as the 32 bit one.** -/
theorem intDecoder_widen {min max : I32} (horder : min.toInt ≤ max.toInt) :
    Decoders.int64 (min.signExtend 64) (max.signExtend 64)
      = Decoders.int min max >>= fun value => pure (value.signExtend 64) := by
  rw [Decoders.int64, Decoders.int, signExtend_sub (by decide) horder, bitsRequired64_widen]
  exact ranged_widen (by decide) (by decide) (dwordsDecoder_widen (bitsRequired_le _)) min max

/-- **A 128 bit range over 64 bit bounds decodes as the 64 bit one.** -/
theorem int64Decoder_widen {min max : I64} (horder : min.toInt ≤ max.toInt) :
    Decoders.int128 (min.signExtend 128) (max.signExtend 128)
      = Decoders.int64 min max >>= fun value => pure (value.signExtend 128) := by
  rw [Decoders.int128, Decoders.int64, signExtend_sub (by decide) horder, bitsRequired128_widen]
  exact ranged_widen (by decide) (by decide) (offset128Decoder_widen (bitsRequired64_le _)) min max

end Read

/-! ### All three streams -/

/-- Two calls on a stream that writes end alike, each leaving its own value alone. -/
def WriteAlike {S δ κ : Type} (value : δ) (value' : κ) (left : Outcome Error (S × δ) Unit)
    (right : Outcome Error (S × κ) Unit) : Prop :=
  ∃ outcome : Outcome Error S Unit, left = outcome.mapState (fun stream => (stream, value))
    ∧ right = outcome.mapState fun stream => (stream, value')

/-- A ranged integer and a wider one do the same on all three streams: the value `narrow` carries
and the value `wide` carries are one integer. -/
structure SameWire {v w : Nat} (min max : BitVec v) (narrow : {S : Type} → [Stream S] →
    Action (S × BitVec v) Unit) (wide : {S : Type} → [Stream S] → Action (S × BitVec w) Unit)
    [Arithmetic] : Prop where
  writes : ∀ (build : Build) (stream : WriteStream) (value : BitVec v) (value' : BitVec w),
    min.toInt ≤ value.toInt → value.toInt ≤ max.toInt → value'.toInt = value.toInt →
    WriteAlike value value' (narrow build (stream, value)) (wide build (stream, value'))
  measures : ∀ (build : Build) (stream : MeasureStream) (value : BitVec v) (value' : BitVec w),
    min.toInt ≤ value.toInt → value.toInt ≤ max.toInt → value'.toInt = value.toInt →
    WriteAlike value value' (narrow build (stream, value)) (wide build (stream, value'))
  reads : ∀ (build : Build) (stream : ReadStream) (value : BitVec v) (value' : BitVec w),
    stream.Reachable → ReadStream.EndAlike (fun final final' => final'.toInt = final.toInt)
      (narrow build (stream, value)) (wide build (stream, value'))

theorem writeAlike_of_run {S δ κ : Type} [Stream S] {scribe : Scribe S}
    {m : Action (S × δ) Unit} {n : Action (S × κ) Unit} {value : δ} {value' : κ}
    {first second : Encoder} (hm : Writes scribe m value () first)
    (hn : Writes scribe n value' () second) (build : Build) (stream : S)
    (hrun : Encoder.run scribe.put second build stream = Encoder.run scribe.put first build stream) :
    WriteAlike value value' (m build (stream, value)) (n build (stream, value')) := by
  refine ⟨Encoder.run scribe.put first build stream, ?_, ?_⟩
  · rw [hm build stream]
    cases Encoder.run scribe.put first build stream <;> rfl
  · rw [hn build stream, hrun]
    cases Encoder.run scribe.put first build stream <;> rfl

section SameWire

variable [Arithmetic] {v w : Nat} {min max : BitVec v}
  {narrow : {S : Type} → [Stream S] → Action (S × BitVec v) Unit}
  {wide : {S : Type} → [Stream S] → Action (S × BitVec w) Unit}
  {first : BitVec v → Encoder} {second : BitVec w → Encoder} {d : Decoder Error (BitVec v)}

theorem sameWire_of (h : v ≤ w)
    (hnarrow : ∀ {S : Type} [Stream S] (scribe : Scribe S) (value : BitVec v),
      Writes scribe narrow value () (first value))
    (hwide : ∀ {S : Type} [Stream S] (scribe : Scribe S) (value : BitVec w),
      Writes scribe wide value () (second value))
    (hrun : ∀ {S : Type} [Stream S] (scribe : Scribe S) (build : Build) (stream : S)
      (value : BitVec v), min.toInt ≤ value.toInt → value.toInt ≤ max.toInt →
      Encoder.run scribe.put (second (value.signExtend w)) build stream
        = Encoder.run scribe.put (first value) build stream)
    (hstores : Stores narrow d)
    (hstores' : Stores wide (d >>= fun value => pure (value.signExtend w))) :
    SameWire min max narrow wide := by
  have hwrite : ∀ {S : Type} [Stream S] (scribe : Scribe S) (build : Build) (stream : S)
      (value : BitVec v) (value' : BitVec w), min.toInt ≤ value.toInt → value.toInt ≤ max.toInt →
      value'.toInt = value.toInt →
      WriteAlike value value' (narrow build (stream, value)) (wide build (stream, value')) := by
    intro S _ scribe build stream value value' hmin hmax hvalue
    obtain rfl : value' = value.signExtend w := by
      apply BitVec.eq_of_toInt_eq
      rw [toInt_signExtend h, hvalue]
    exact writeAlike_of_run (hnarrow scribe value) (hwide scribe _) build stream
      (hrun scribe build stream value hmin hmax)
  refine ⟨hwrite WriteStream.scribe, hwrite MeasureStream.scribe, ?_⟩
  intro build stream value value' hreachable
  exact ReadStream.endAlike_of_stores hstores hstores' hreachable.valid
    (fun final _ _ => toInt_signExtend h final) build value value'

end SameWire

/-- **Widening a ranged field never changes the wire**: over 32 bit bounds `serialize_int` and
`serialize_int64`, over 64 bit bounds `serialize_int64` and `serialize_int128`. -/
theorem widening_same_wire [Arithmetic] :
    (∀ min max : I32, min.toInt ≤ max.toInt → SameWire min max (serializeInt min max)
      (serializeInt64 (min.signExtend 64) (max.signExtend 64)))
    ∧ ∀ min max : I64, min.toInt ≤ max.toInt → SameWire min max (serializeInt64 min max)
      (serializeInt128 (min.signExtend 128) (max.signExtend 128)) := by
  constructor
  · intro min max horder
    have hwide := serializeInt64_stores (min.signExtend 64) (max.signExtend 64)
    rw [intDecoder_widen horder] at hwide
    exact sameWire_of (by decide) (fun scribe value => serializeInt_writes scribe min max value)
      (fun scribe value => serializeInt64_writes scribe _ _ value)
      (fun _ _ _ _ hmin hmax => run_int_widen horder hmin hmax) (serializeInt_stores min max) hwide
  · intro min max horder
    have hwide := serializeInt128_stores (min.signExtend 128) (max.signExtend 128)
    rw [int64Decoder_widen horder] at hwide
    exact sameWire_of (by decide) (fun scribe value => serializeInt64_writes scribe min max value)
      (fun scribe value => serializeInt128_writes scribe _ _ value)
      (fun _ _ _ _ hmin hmax => run_int64_widen horder hmin hmax) (serializeInt64_stores min max)
      hwide

/-- A small range of 32 bit integers and the whole range of 64 bit ones. -/
theorem widening_same_wire_spans :
    SameWire (-5 : I32) 10 (serializeInt (-5) 10)
        (serializeInt64 ((-5 : I32).signExtend 64) ((10 : I32).signExtend 64))
      ∧ SameWire (BitVec.intMin 64) (BitVec.intMax 64)
        (serializeInt64 (BitVec.intMin 64) (BitVec.intMax 64))
        (serializeInt128 ((BitVec.intMin 64).signExtend 128) ((BitVec.intMax 64).signExtend 128)) :=
  ⟨widening_same_wire.1 (-5) 10 (by decide), widening_same_wire.2 _ _ (by decide)⟩

end Serialize
