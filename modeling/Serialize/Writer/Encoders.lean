import Serialize.Encode.Encoder
import Serialize.Format.Checks
import Serialize.Model.MeasureStream

/-!
# The encoder of each operation

What a stream that writes does in each operation, whatever the declaration and the value: the
writing half of the operation as an encoder. A write stream and a measure stream run the same
encoders and differ in what they do with a field.
-/

namespace Serialize

open Machine Encode
open Binary32 (Arithmetic)

/-- A stream that writes: what it does with a field, leaving the caller's value alone. -/
structure Scribe (S : Type) [StreamCore S] where
  put : U32 → U32 → Action S Unit
  writes : isWriting S = true
  reads : isReading S = false
  gate_eq : ∀ (profile : Profile) (stream : S), (gate : Action S Unit) profile stream = .ok () stream
  serializeBits_eq : ∀ (build : Build) (stream : S) (value width : U32),
    serializeBits width build (stream, value)
      = (put width value build stream).mapState fun stream' => (stream', value)

section Writes

variable {S δ κ α β : Type} [StreamCore S]

/-- The computation runs an encoder, gives `result` and leaves the caller's value alone. -/
def Writes (scribe : Scribe S) (m : Action (S × δ) α) (value : δ) (result : α) (encoder : Encoder) :
    Prop :=
  ∀ (build : Build) (stream : S), m build (stream, value)
    = ((Encoder.run scribe.put encoder build stream).mapState fun stream' => (stream', value)).bind
        fun _ p => .ok result p

namespace Writes

variable {scribe : Scribe S} {value : δ} {part : α} {result : β} {first second encoder : Encoder}
  {m : Action (S × δ) α} {next : α → Action (S × δ) β}

theorem of_silent (h : Silent m value part) : Writes scribe m value part [] :=
  fun build stream => h build stream

theorem bind (h : Writes scribe m value part first)
    (hnext : Writes scribe (next part) value result second) :
    Writes scribe (m >>= next) value result (first ++ second) := by
  intro build stream
  rw [bind_apply, h build stream, Encoder.run_append]
  cases Encoder.run scribe.put first build stream with
  | ok _ stream' => exact hnext build stream'
  | err error stream' => rfl
  | trap stream' => rfl

theorem before (h : Silent m value part) (hnext : Writes scribe (next part) value result encoder) :
    Writes scribe (m >>= next) value result encoder :=
  bind (of_silent h) hnext

theorem after (h : Writes scribe m value part encoder) (hnext : Silent (next part) value result) :
    Writes scribe (m >>= next) value result encoder := by
  rw [← List.append_nil encoder]
  exact bind h (of_silent hnext)

theorem debugAssert (scribe : Scribe S) (value : δ) (c : Prop) [Decidable c] :
    Writes scribe (debugAssert c) value () [.assert (decide c)] := by
  intro build stream
  rw [debugAssert_apply, Encoder.run, bind_apply, Step.run, debugAssert_apply]
  simp only [decide_eq_true_iff]
  split <;> rfl

theorem declare (scribe : Scribe S) (value : δ) (c : Prop) [Decidable c] :
    Writes scribe (onState (declarationCheck c)) value () [.assert (decide c)] := by
  by_cases hc : c
  · have hassert := debugAssert scribe value c
    intro build stream
    rw [onState_apply, declarationCheck, if_pos hc, ← hassert build stream, debugAssert_of hc]
    rfl
  · have hassert := debugAssert scribe value False
    intro build stream
    rw [onState_apply, declarationCheck, if_neg hc, scribe.reads, if_neg Bool.false_ne_true,
      decide_eq_false hc, ← decide_eq_false not_false, ← hassert build stream, debugAssert_apply,
      debugAssert_apply]
    split <;> rfl

theorem asserting {c : Prop} [Decidable c] {next : Unit → Action (S × δ) β}
    (hnext : Writes scribe (next ()) value result encoder) :
    Writes scribe (Machine.debugAssert c >>= next) value result (.assert (decide c) :: encoder) :=
  bind (debugAssert scribe value c) hnext

theorem declaring {c : Prop} [Decidable c] {next : Unit → Action (S × δ) β}
    (hnext : Writes scribe (next ()) value result encoder) :
    Writes scribe (onState (declarationCheck c) >>= next) value result
      (.assert (decide c) :: encoder) :=
  bind (declare scribe value c) hnext

/-- A computation on machine integers: the check that it does not overflow, and then its result. -/
theorem computing {m : Action (S × δ) α} {c : Prop} [Decidable c]
    (hm : ∀ (build : Build) p, m build p = if c then .ok part p else .trap p)
    (hnext : c → Writes scribe (next part) value result encoder) :
    Writes scribe (m >>= next) value result (.demand (decide c) :: encoder) := by
  intro build stream
  rw [bind_apply, hm, Encoder.run, bind_apply, Step.run, noOverflow_apply]
  simp only [decide_eq_true_iff]
  by_cases hc : c
  · rw [if_pos hc, if_pos hc]
    exact hnext hc build stream
  · rw [if_neg hc, if_neg hc]
    rfl

theorem computingOn {m : Action S α} {c : Prop} [Decidable c]
    (hm : ∀ (build : Build) stream, m build stream = if c then .ok part stream else .trap stream)
    (hnext : c → Writes scribe (next part) value result encoder) :
    Writes scribe (onState m >>= next) value result (.demand (decide c) :: encoder) := by
  refine computing (fun build p => ?_) hnext
  rw [onState, hm]
  split <;> rfl

theorem reading (scribe : Scribe S) (value : δ) (m : Action (S × δ) Unit) :
    Silent (whenReading m) value () := by
  intro build stream
  rw [whenReading, onlyIf, scribe.reads, if_neg Bool.false_ne_true, pure_apply]

theorem writing (scribe : Scribe S) {m : Action (S × δ) Unit} (h : Writes scribe m value () encoder) :
    Writes scribe (whenWriting m) value () encoder := by
  intro build stream
  rw [whenWriting, onlyIf, if_pos scribe.writes]
  exact h build stream

theorem serializeBits (scribe : Scribe S) (width value : U32) :
    Writes scribe (serializeBits width) value () [.field width value] := by
  intro build stream
  rw [scribe.serializeBits_eq, Encoder.run, bind_apply, Step.run]
  cases scribe.put width value build stream with
  | ok _ stream' => rfl
  | err error stream' => rfl
  | trap stream' => rfl

theorem inLocal {m : Action (S × κ) Unit} {initial : κ} (h : Writes scribe m initial () encoder) :
    Writes scribe (inLocal initial m) value initial encoder := by
  intro build stream
  have hm := h build stream
  cases hrun : Encoder.run scribe.put encoder build stream with
  | ok _ stream' =>
      rw [hrun] at hm
      exact inLocal_of_ok hm value
  | err error stream' =>
      rw [hrun] at hm
      exact inLocal_of_err hm value
  | trap stream' =>
      rw [hrun] at hm
      exact inLocal_of_trap hm value

end Writes

end Writes

/-! ### The encoders -/

namespace Encoders

def dwords (value : U64) (width : U32) : Encoder :=
  if width ≤ 32 then [.field width (value.setWidth 32)]
  else [.field 32 ((value &&& 0xFFFFFFFF).setWidth 32),
    .field (width - 32) ((value >>> 32).setWidth 32)]

def offset128Groups (offset : U128) (width : U32) : Encoder :=
  let group0 : U32 := offset.setWidth 32
  let group1 : U32 := (offset >>> 32).setWidth 32
  let group2 : U32 := (offset >>> 64).setWidth 32
  let group3 : U32 := (offset >>> 96).setWidth 32
  if width ≤ 32 then [.field width group0]
  else if width ≤ 64 then [.field 32 group0, .field (width - 32) group1]
  else if width ≤ 96 then [.field 32 group0, .field 32 group1, .field (width - 64) group2]
  else [.field 32 group0, .field 32 group1, .field 32 group2, .field (width - 96) group3]

def offset128 (offset : U128) (width : U32) : Encoder :=
  .assert (decide (1 ≤ width ∧ width ≤ 128)) :: offset128Groups offset width

/-- A ranged integer of any width, given the encoder of its offset. -/
def ranged {w : Nat} (offset : BitVec w → Encoder) (min max value : BitVec w) : Encoder :=
  .assert (decide (min.sle max = true)) ::
    if min = max then []
    else .assert (decide (min.sle value = true)) :: .assert (decide (value.sle max = true))
      :: offset (value - min)

def int (min max value : I32) : Encoder :=
  ranged (fun offset => [.field (bitsRequired 0 (max - min)) offset]) min max value

def int64 (min max value : I64) : Encoder :=
  ranged (fun offset => dwords offset (bitsRequired64 0 (max - min))) min max value

def int128 (min max value : I128) : Encoder :=
  ranged (fun offset => offset128 offset (bitsRequired128 0 (max - min))) min max value

def bits64 (width : U32) (value : U64) : Encoder :=
  .assert (decide (1 ≤ width ∧ width ≤ 64)) :: .assert (decide (width.toNat < 128))
    :: .assert (decide (value.toNat < 2 ^ width.toNat)) :: dwords value width

def bool (value : Bool) : Encoder := [.field 1 (if value then 1 else 0)]

def narrow (w : Nat) (value : BitVec w) : Encoder :=
  [.field (BitVec.ofNat 32 w) (value.setWidth 32)]

def u128 (value : U128) : Encoder :=
  bits64 64 (value.setWidth 64) ++ bits64 64 ((value >>> 64).setWidth 64)

def f32 (value : F32) : Encoder :=
  [.assert (decide (floatBitsAreFinite value = true)), .field 32 value]

def f64 (value : F64) : Encoder :=
  .assert (decide (doubleBitsAreFinite value = true)) :: bits64 64 value

def capacity (T : FixedPointStorage) (integerBits : U32) (minUnits maxUnits : I64) : Encoder :=
  if T.signed then
    [.demand (decide (1 ≤ integerBits.toNat)), .demand (decide (integerBits.toNat - 1 < 128)),
      .assert (decide ((-(1#128 <<< (integerBits.toNat - 1))).sle (minUnits.signExtend 128) = true
        ∧ (maxUnits.signExtend 128).sle ((1#128 <<< (integerBits.toNat - 1)) - 1#128) = true))]
  else
    [.assert (decide ((0 : I64).sle minUnits = true
      ∧ (64 ≤ integerBits.toNat ∨ maxUnits < 1#64 <<< integerBits.toNat)))]

def fixed (T : FixedPointStorage) (integerBits fractionBits : U32) (minUnits maxUnits : I64)
    (value : BitVec T.bits) : Encoder :=
  let rawMin : U128 := minUnits.signExtend 128 <<< fractionBits.toNat
  let rawRange : U128 :=
    (maxUnits.signExtend 128 - minUnits.signExtend 128) <<< fractionBits.toNat
  .assert (decide (1 ≤ integerBits.toNat))
    :: .assert (decide (integerBits.toNat + fractionBits.toNat = T.bits))
    :: .assert (decide (minUnits.sle maxUnits = true))
    :: (capacity T integerBits minUnits maxUnits ++ .demand (decide (fractionBits.toNat < 128))
      :: if minUnits = maxUnits then [.assert (decide (T.toUnsigned value = rawMin))]
        else .assert (decide (T.toUnsigned value - rawMin ≤ rawRange))
          :: offset128 (T.toUnsigned value - rawMin) (bitLength rawRange))

def buckets (current : I32) (difference : U32) : List (U32 × I32 × I32) → Encoder
  | [] => [.field 32 current]
  | (threshold, low, high) :: rest =>
      bool (decide (difference ≤ threshold))
        ++ if difference ≤ threshold then int low high difference
          else buckets current difference rest

def intRelative (previous current : I32) : Encoder :=
  .assert (decide ((0 : I32).sle previous = true)) :: .assert (decide (previous.slt current = true))
    :: (bool (decide (current - previous = 1))
      ++ if current - previous = 1 then []
        else buckets current (current - previous) Serialize.buckets)

variable [Arithmetic]

def compressedFloatPrecomputed (maxIntegerValue width : U32) (delta min value : F32) : Encoder :=
  [.assert (decide (1 ≤ maxIntegerValue ∧ maxIntegerValue ≤ 4294967040)),
    .assert (decide (width = bitsRequired 0 maxIntegerValue)),
    .assert (decide (Binary32.lt Binary32.zero delta = true)),
    .assert (decide (Binary32.isFinite delta = true)),
    .assert (decide (Binary32.isFinite value = true)),
    .assert (decide (Binary32.isFinite (Arithmetic.add min delta) = true)),
    .field width (quantize value maxIntegerValue delta min)]

/-- The checks on the declaration of a compressed float. -/
def compressedFloatDeclared (min max resolution : F32) : Encoder :=
  [.assert (decide (Binary32.lt min max = true ∧ Binary32.lt Binary32.zero resolution = true)),
    .assert (decide (Binary32.isFinite (Arithmetic.sub max min) = true)),
    .assert (decide (Binary32.isFinite
      (Arithmetic.div (Arithmetic.sub max min) resolution) = true))]

def compressedFloat (min max resolution value : F32) : Encoder :=
  let params := compressedFloatParams min max resolution
  compressedFloatDeclared min max resolution ++ compressedFloatDeclared min max resolution
    ++ compressedFloatPrecomputed params.maxIntegerValue params.bits params.delta min value

end Encoders

/-! ### Each operation runs its encoder -/

section Operations

variable {S δ : Type} [StreamCore S] (scribe : Scribe S)

open Writes

theorem group_writes {value : δ} (initial width : U32) :
    Writes scribe (inLocal initial (serializeBits width)) value initial [.field width initial] :=
  Writes.inLocal (Writes.serializeBits scribe width initial)

theorem serializeDwords_writes {value' : δ} (value : U64) (width : U32) :
    ∃ result, Writes scribe (serializeDwords value width) value' result
      (Encoders.dwords value width) := by
  rw [Encoders.dwords, serializeDwords]
  by_cases hwidth : width ≤ 32
  · rw [if_pos hwidth, if_pos hwidth]
    exact ⟨_, Writes.after (group_writes scribe _ width) (Silent.pure _)⟩
  · rw [if_neg hwidth, if_neg hwidth]
    have hrest : Silent (checkedSubBits width 32 : Action (S × δ) U32) value' (width - 32) :=
      fun build stream => checkedSubBits_of (sub_le_of_not_le hwidth) build _
    exact ⟨_, Writes.bind (group_writes scribe _ 32) (Writes.before hrest
      (Writes.after (group_writes scribe _ (width - 32)) (Silent.pure _)))⟩

theorem serializeOffset128_writes (offset : U128) (width : U32) :
    Writes scribe (serializeOffset128 width) offset () (Encoders.offset128 offset width) := by
  have hrest : ∀ {bound : U32}, ¬width ≤ bound →
      Silent (checkedSubBits width bound : Action (S × U128) U32) offset (width - bound) :=
    fun hwide build stream => checkedSubBits_of (sub_le_of_not_le hwide) build _
  refine Writes.asserting (Writes.before Silent.load ?_)
  rw [Encoders.offset128Groups]
  by_cases h32 : width ≤ 32
  · rw [if_pos h32, if_pos h32]
    exact Writes.after (group_writes scribe _ width) (Writes.reading scribe offset _)
  by_cases h64 : width ≤ 64
  · rw [if_neg h32, if_neg h32, if_pos h64, if_pos h64]
    exact Writes.bind (group_writes scribe _ 32) (Writes.before (hrest h32)
      (Writes.after (group_writes scribe _ _) (Writes.reading scribe offset _)))
  by_cases h96 : width ≤ 96
  · rw [if_neg h32, if_neg h32, if_neg h64, if_neg h64, if_pos h96, if_pos h96]
    exact Writes.bind (group_writes scribe _ 32) (Writes.bind (group_writes scribe _ 32)
      (Writes.before (hrest h64)
        (Writes.after (group_writes scribe _ _) (Writes.reading scribe offset _))))
  · rw [if_neg h32, if_neg h32, if_neg h64, if_neg h64, if_neg h96, if_neg h96]
    exact Writes.bind (group_writes scribe _ 32) (Writes.bind (group_writes scribe _ 32)
      (Writes.bind (group_writes scribe _ 32) (Writes.before (hrest h96)
        (Writes.after (group_writes scribe _ _) (Writes.reading scribe offset _)))))

/-- The three ranged integers are one method over the writing of an offset. -/
theorem ranged_writes {w : Nat} {min max value : BitVec w}
    (writeOffset : BitVec w → Action (S × BitVec w) (BitVec w)) {offset : BitVec w → Encoder}
    (hoffset : ∃ result, Writes scribe (writeOffset (value - min)) value result
      (offset (value - min))) :
    Writes scribe (do
        onState (declarationCheck (min.sle max = true))
        if min = max then do
          onState refuseIfFailed
          whenReading (store min)
        else do
          let value ← load
          whenWriting do
            debugAssert (min.sle value = true)
            debugAssert (value.sle max = true)
          let unsignedValue ← writeOffset (if isWriting S then value - min else 0)
          whenReading
            (if max - min < unsignedValue then onState (fail .valueOutOfRange)
            else store (unsignedValue + min)))
      value () (Encoders.ranged offset min max value) := by
  refine Writes.declaring ?_
  by_cases heq : min = max
  · rw [if_pos heq, if_pos heq]
    exact Writes.before (Silent.onState scribe.gate_eq) (Writes.of_silent (Writes.reading scribe _ _))
  · rw [if_neg heq, if_neg heq]
    obtain ⟨result, hresult⟩ := hoffset
    have hchecks : Writes scribe (whenWriting do
        debugAssert (min.sle value = true)
        debugAssert (value.sle max = true)) value ()
        [.assert (decide (min.sle value = true)), .assert (decide (value.sle max = true))] :=
      Writes.writing scribe (Writes.asserting (Writes.debugAssert scribe value _))
    refine Writes.before Silent.load (Writes.bind hchecks ?_)
    rw [if_pos scribe.writes]
    exact Writes.after hresult (Writes.reading scribe _ _)

theorem serializeInt_writes (min max value : I32) :
    Writes scribe (serializeInt min max) value () (Encoders.int min max value) :=
  ranged_writes scribe (fun offset => inLocal offset (serializeBits _))
    ⟨_, group_writes scribe _ _⟩

theorem serializeInt64_writes (min max value : I64) :
    Writes scribe (serializeInt64 min max) value () (Encoders.int64 min max value) :=
  ranged_writes scribe (fun offset => serializeDwords offset _)
    (serializeDwords_writes scribe _ _)

theorem serializeInt128_writes (min max value : I128) :
    Writes scribe (serializeInt128 min max) value () (Encoders.int128 min max value) :=
  ranged_writes scribe (fun offset => inLocal offset (serializeOffset128 _))
    ⟨_, Writes.inLocal (serializeOffset128_writes scribe _ _)⟩

/-! ### Raw fields -/

theorem serializeBits64_writes (width : U32) (value : U64) :
    Writes scribe (serializeBits64 width) value () (Encoders.bits64 width value) := by
  obtain ⟨result, hresult⟩ := @serializeDwords_writes S U64 _ scribe value value width
  have hchecks : Writes scribe (whenWriting (inChecked do
      noOverflow (width.toNat < 128)
      require (value.toNat < 2 ^ width.toNat))) value ()
      [.assert (decide (width.toNat < 128)), .assert (decide (value.toNat < 2 ^ width.toNat))] := by
    rw [inChecked_bind, inChecked_noOverflow]
    exact Writes.writing scribe (Writes.asserting (Writes.debugAssert scribe value _))
  exact Writes.declaring (Writes.before Silent.load (Writes.bind hchecks
    (Writes.after hresult (Writes.reading scribe value _))))

theorem serializeBool_writes (value : Bool) :
    Writes scribe serializeBool value () (Encoders.bool value) := by
  have hgroup := @group_writes S Bool _ scribe value (if isWriting S && value then 1 else 0) 1
  rw [Encoders.bool]
  rw [scribe.writes, Bool.true_and] at hgroup
  refine Writes.before Silent.load ?_
  rw [scribe.writes, Bool.true_and]
  exact Writes.after hgroup (Writes.reading scribe value _)

theorem serializeNarrow_writes {w : Nat} (value : BitVec w) :
    Writes scribe (serializeNarrow w) value () (Encoders.narrow w value) :=
  Writes.before Silent.load
    (Writes.after (group_writes scribe _ _) (Writes.reading scribe value _))

theorem serializeU128_writes (value : U128) :
    Writes scribe serializeU128 value () (Encoders.u128 value) :=
  Writes.before Silent.load (Writes.bind (Writes.inLocal (serializeBits64_writes scribe 64 _))
    (Writes.after (Writes.inLocal (serializeBits64_writes scribe 64 _))
      (Writes.reading scribe value _)))

theorem serializeF32_writes (value : F32) :
    Writes scribe serializeF32 value () (Encoders.f32 value) := by
  refine Writes.before Silent.load
    (Writes.bind (Writes.writing scribe (Writes.debugAssert scribe value _)) ?_)
  rw [if_pos scribe.writes]
  exact Writes.after (group_writes scribe value 32) (Writes.reading scribe value _)

theorem serializeF64_writes (value : F64) :
    Writes scribe serializeF64 value () (Encoders.f64 value) := by
  refine Writes.before Silent.load
    (Writes.bind (Writes.writing scribe (Writes.debugAssert scribe value _)) ?_)
  rw [if_pos scribe.writes]
  exact Writes.after (Writes.inLocal (serializeBits64_writes scribe 64 value))
    (Writes.reading scribe value _)

/-! ### Fixed point -/

theorem capacityCheck_writes {δ : Type} (value : δ) (T : FixedPointStorage) (integerBits : U32)
    (minUnits maxUnits : I64) :
    Writes scribe (onState (capacityCheck T integerBits minUnits maxUnits)) value ()
      (Encoders.capacity T integerBits minUnits maxUnits) := by
  rw [Encoders.capacity, capacityCheck]
  by_cases hsigned : T.signed = true
  · rw [if_pos hsigned, if_pos hsigned, onState_seq]
    refine Writes.computingOn (checkedSub_apply 32 integerBits.toNat 1) fun _ => ?_
    rw [onState_seq]
    refine Writes.computingOn (shiftAmount_apply 128 (integerBits.toNat - 1)) fun hshift => ?_
    rw [onState_seq]
    exact Writes.before (Silent.onState (lowMask_of hshift)) (Writes.declare scribe value _)
  · rw [if_neg hsigned, if_neg hsigned]
    exact Writes.declare scribe value _

theorem serializeFixed_writes (T : FixedPointStorage) (integerBits fractionBits : U32)
    (minUnits maxUnits : I64) (value : BitVec T.bits) :
    Writes scribe (serializeFixed T integerBits fractionBits minUnits maxUnits) value ()
      (Encoders.fixed T integerBits fractionBits minUnits maxUnits value) := by
  refine Writes.declaring (Writes.declaring (Writes.declaring
    (Writes.bind (capacityCheck_writes scribe value T integerBits minUnits maxUnits)
      (Writes.computing (shiftAmount_apply 128 fractionBits.toNat) fun _ => ?_))))
  refine Writes.before (Silent.noOverflow (units_do_not_overflow minUnits maxUnits)) ?_
  by_cases heq : minUnits = maxUnits
  · rw [if_pos heq, if_pos heq]
    exact Writes.before (Silent.onState scribe.gate_eq) (Writes.before Silent.load
      (Writes.after (Writes.writing scribe (Writes.debugAssert scribe value _))
        (Writes.reading scribe value _)))
  · rw [if_neg heq, if_neg heq]
    have hcheck := Writes.writing scribe (Writes.debugAssert scribe value
      (T.toUnsigned value - minUnits.signExtend 128 <<< fractionBits.toNat
        ≤ (maxUnits.signExtend 128 - minUnits.signExtend 128) <<< fractionBits.toNat))
    refine Writes.before Silent.load (Writes.bind hcheck ?_)
    rw [if_pos scribe.writes]
    exact Writes.after (Writes.inLocal (serializeOffset128_writes scribe _ _))
      (Writes.reading scribe value _)

/-! ### Relative integers -/

theorem serializeAbsolute_writes (previous current : I32) :
    Writes scribe (serializeAbsolute previous) current () [.field 32 current] := by
  refine Writes.before Silent.load ?_
  rw [if_pos scribe.writes]
  exact Writes.after (group_writes scribe current 32) (Writes.reading scribe current _)

theorem flag_writes {value : δ} (holds : Bool) :
    Writes scribe (inLocal (isWriting S && holds) serializeBool) value holds
      (Encoders.bool holds) := by
  rw [scribe.writes, Bool.true_and]
  exact Writes.inLocal (serializeBool_writes scribe holds)

theorem serializeBuckets_writes (previous current : I32) (difference : U32)
    (tiers : List (U32 × I32 × I32)) :
    Writes scribe (serializeBuckets previous difference tiers) current ()
      (Encoders.buckets current difference tiers) := by
  induction tiers with
  | nil => exact serializeAbsolute_writes scribe previous current
  | cons tier rest ih =>
      obtain ⟨threshold, low, high⟩ := tier
      rw [serializeBuckets, Encoders.buckets]
      refine Writes.bind (flag_writes scribe _) ?_
      by_cases htier : difference ≤ threshold
      · rw [if_pos (decide_eq_true htier), if_pos htier, if_pos scribe.writes]
        exact Writes.after (Writes.inLocal (serializeInt_writes scribe low high difference))
          (Writes.reading scribe current _)
      · rw [if_neg (by simpa using htier), if_neg htier]
        exact ih

theorem serializeIntRelative_writes (previous current : I32) :
    Writes scribe (serializeIntRelative previous) current ()
      (Encoders.intRelative previous current) := by
  have hcheck := Writes.writing scribe
    (Writes.debugAssert scribe current (previous.slt current = true))
  refine Writes.declaring (Writes.before Silent.load (Writes.bind hcheck ?_))
  rw [if_pos scribe.writes]
  refine Writes.bind (flag_writes scribe _) ?_
  by_cases hone : current - previous = 1
  · rw [if_pos (decide_eq_true hone), if_pos hone]
    exact Writes.of_silent (Writes.reading scribe current _)
  · rw [if_neg (by simpa using hone), if_neg hone]
    exact serializeBuckets_writes scribe previous current _ _

/-! ### Compressed floats -/

variable [Arithmetic]

theorem serializeCompressedFloatPrecomputed_writes (maxIntegerValue width : U32)
    (delta min value : F32) :
    Writes scribe (serializeCompressedFloatPrecomputed maxIntegerValue width delta min) value ()
      (Encoders.compressedFloatPrecomputed maxIntegerValue width delta min value) := by
  have hchecks : Writes scribe (whenWriting do
      debugAssert (Binary32.isFinite value = true)
      debugAssert (Binary32.isFinite (Arithmetic.add min delta) = true)) value ()
      [.assert (decide (Binary32.isFinite value = true)),
        .assert (decide (Binary32.isFinite (Arithmetic.add min delta) = true))] :=
    Writes.writing scribe (Writes.asserting (Writes.debugAssert scribe value _))
  refine Writes.declaring (Writes.declaring (Writes.declaring (Writes.declaring
    (Writes.before Silent.load (Writes.bind hchecks ?_)))))
  rw [if_pos scribe.writes]
  exact Writes.after (group_writes scribe _ width) (Writes.reading scribe value _)

theorem compressedFloatDeclared_writes (min max resolution value : F32) :
    Writes scribe (serializeCompressedFloatParams min max resolution) value
      (compressedFloatParams min max resolution)
      (Encoders.compressedFloatDeclared min max resolution) :=
  Writes.asserting (Writes.asserting (Writes.asserting (Writes.of_silent (Silent.pure _))))

theorem serializeCompressedFloat_writes (min max resolution value : F32) :
    Writes scribe (serializeCompressedFloat min max resolution) value ()
      (Encoders.compressedFloat min max resolution value) := by
  refine Writes.declaring (Writes.declaring (Writes.declaring ?_))
  exact Writes.bind (compressedFloatDeclared_writes scribe min max resolution value)
    (serializeCompressedFloatPrecomputed_writes scribe _ _ _ _ _)

end Operations

/-! ### The streams that write -/

namespace WriteStream

/-- Put a field on a write stream. -/
def put (width value : U32) : Action WriteStream Unit := onWriter (BitWriter.writeBits value width)

theorem isWriting_eq : isWriting WriteStream = true := rfl

theorem isReading_eq : isReading WriteStream = false := rfl

theorem gate_eq (profile : Profile) (stream : WriteStream) :
    (gate : Action WriteStream Unit) profile stream = .ok () stream := rfl

def scribe : Scribe WriteStream where
  put := put
  writes := isWriting_eq
  reads := isReading_eq
  gate_eq := gate_eq
  serializeBits_eq _ _ _ _ := rfl

end WriteStream

namespace MeasureStream

/-- Put a field on a measure stream. -/
def put (width value : U32) : Action MeasureStream Unit := do
  debugAssert (width - 1 < 32)
  inChecked do
    noOverflow (width.toNat < 64)
    require (value.toNat < 2 ^ width.toNat)
  count width.toNat

theorem isWriting_eq : isWriting MeasureStream = true := rfl

theorem isReading_eq : isReading MeasureStream = false := rfl

theorem gate_eq (profile : Profile) (stream : MeasureStream) :
    (gate : Action MeasureStream Unit) profile stream = .ok () stream := rfl

def scribe : Scribe MeasureStream where
  put := put
  writes := isWriting_eq
  reads := isReading_eq
  gate_eq := gate_eq
  serializeBits_eq build stream value width := by
    unfold serializeBits instStreamCore put
    simp only [bind_apply, load_apply, Outcome.bind_ok, debugAssert_apply]
    split
    · cases build with
      | checked =>
          simp only [inChecked, bind_apply, noOverflow_apply, require_apply]
          split <;> split <;> simp
      | unchecked => rfl
    · rfl

end MeasureStream

/-! ### Every provided operation -/

namespace Operation

variable [Arithmetic]

/-- What a stream that writes does in a provided operation. -/
def encoder : (operation : Operation) → operation.Value → Encoder
  | .bits width, value => [.field width value]
  | .bits64 width, value => Encoders.bits64 width value
  | .bool, value => Encoders.bool value
  | .u8, value => Encoders.narrow 8 value
  | .u16, value => Encoders.narrow 16 value
  | .u32, value => [.field 32 value]
  | .u64, value => Encoders.bits64 64 value
  | .u128, value => Encoders.u128 value
  | .int min max, value => Encoders.int min max value
  | .int64 min max, value => Encoders.int64 min max value
  | .int128 min max, value => Encoders.int128 min max value
  | .fixed T integerBits fractionBits minUnits maxUnits, value =>
      Encoders.fixed T integerBits fractionBits minUnits maxUnits value
  | .intRelative previous, current => Encoders.intRelative previous current
  | .f32, value => Encoders.f32 value
  | .f64, value => Encoders.f64 value
  | .bytes _, _ | .string _, _ | .align, _ => []
  | .compressedFloat min max resolution, value =>
      Encoders.compressedFloat min max resolution value
  | .compressedFloatPrecomputed maxIntegerValue width delta min, value =>
      Encoders.compressedFloatPrecomputed maxIntegerValue width delta min value

/-- **A provided operation runs its encoder**, whatever its declaration and its value. -/
theorem run_writes {S : Type} [Stream S] (scribe : Scribe S) {operation : Operation}
    (h : ¬operation.Aligns) (value : operation.Value) :
    Writes scribe operation.run value () (operation.encoder value) := by
  cases operation with
  | bits width => exact Writes.serializeBits scribe width value
  | bits64 width => exact serializeBits64_writes scribe width value
  | bool => exact serializeBool_writes scribe value
  | u8 => exact serializeNarrow_writes scribe value
  | u16 => exact serializeNarrow_writes scribe value
  | u32 => exact Writes.serializeBits scribe 32 value
  | u64 => exact serializeBits64_writes scribe 64 value
  | u128 => exact serializeU128_writes scribe value
  | int min max => exact serializeInt_writes scribe min max value
  | int64 min max => exact serializeInt64_writes scribe min max value
  | int128 min max => exact serializeInt128_writes scribe min max value
  | fixed T integerBits fractionBits minUnits maxUnits =>
      exact serializeFixed_writes scribe T integerBits fractionBits minUnits maxUnits value
  | intRelative previous => exact serializeIntRelative_writes scribe previous value
  | f32 => exact serializeF32_writes scribe value
  | f64 => exact serializeF64_writes scribe value
  | bytes count => exact absurd trivial h
  | string bufferSize => exact absurd trivial h
  | align => exact absurd trivial h
  | compressedFloat min max resolution =>
      exact serializeCompressedFloat_writes scribe min max resolution value
  | compressedFloatPrecomputed maxIntegerValue width delta min =>
      exact serializeCompressedFloatPrecomputed_writes scribe maxIntegerValue width delta min value

/-- The run of a provided operation, read off the run of its encoder. -/
theorem run_eq_encoder {S : Type} [Stream S] (scribe : Scribe S) {operation : Operation}
    (h : ¬operation.Aligns) (value : operation.Value) (build : Build) (stream : S) :
    operation.run build (stream, value)
      = (Encoder.run scribe.put (operation.encoder value) build stream).mapState
          fun stream' => (stream', value) := by
  rw [run_writes scribe h value build stream]
  cases Encoder.run scribe.put (operation.encoder value) build stream with
  | ok _ stream' => rfl
  | err error stream' => rfl
  | trap stream' => rfl

end Operation

end Serialize
