import Serialize.Format.Checks
import Serialize.Reader.Primitives

/-!
# Every operation stores its decoder

The provided methods, on a read stream, do what their decoders do on the bits of the packet. Each
proof follows the method down to the primitives; the writing half of a method is no step on a
reader, and the checks the language makes along the way hold because the declaration was checked
first.
-/

namespace Serialize

open Machine BitString Decode
open Binary32 (Arithmetic)
open ReadStream
open Utf8 (Text)

variable {α β δ : Type}

namespace Stores

theorem fail (error : Error) :
    Stores (onState (fail error) : Action (ReadStream × δ) Unit) (Decoders.refuseWith error) :=
  of_refuse (Realizes.onState (latch_tracks error))

/-- A declaration on the way: what comes after it may rely on it. -/
theorem declare {declared : Prop} [Decidable declared] {next : Action (ReadStream × δ) Unit}
    {d : Decoder Error δ} (h : declared → Stores next d) :
    Stores (onState (declarationCheck declared) >>= fun _ => next)
      (Decoders.declare declared >>= fun _ => d) := by
  by_cases hdeclared : declared
  · exact bind (Realizes.onState (declarationCheck_tracks declared)) fun _ => h hdeclared
  · intro build stream value hstream
    have hfail := fail .valueOutOfRange build stream value hstream
    have hcheck : (declarationCheck declared : Action ReadStream Unit) = latch .valueOutOfRange := by
      rw [declarationCheck, if_neg hdeclared]
      rfl
    have hrefuse : (Decoders.declare declared >>= fun _ => d) = Decoders.refuseWith .valueOutOfRange := by
      rw [Decoders.declare, if_neg hdeclared]
      rfl
    rw [bind_apply, hcheck, hrefuse, onState_apply, latch_eq]
    exact hfail

theorem gate {next : Action (ReadStream × δ) Unit} {d : Decoder Error δ} (h : Stores next d) :
    Stores (onState refuseIfFailed >>= fun _ => next) (Decoders.gate >>= fun _ => d) :=
  bind (Realizes.onState gate_tracks) fun _ => h

theorem writing {m : Action (ReadStream × δ) Unit} {next : Unit → Action (ReadStream × δ) Unit}
    {d : Decoder Error δ} (h : Stores (next ()) d) : Stores (whenWriting m >>= next) d :=
  look (fun _ _ => ⟨(), rfl⟩) fun _ => h

theorem reading {m : Action (ReadStream × δ) Unit} {d : Decoder Error δ} (h : Stores m d) :
    Stores (whenReading m) d := h

theorem storeIf {c : Prop} [Decidable c] (value : δ) (error : Error) :
    Stores (if c then onState (StreamCore.fail error) else Machine.store value)
      (if c then Decoders.refuseWith error else .accept value) :=
  ite (fun _ => fail error) fun _ => store value

theorem storeUnless {c : Prop} [Decidable c] (value : δ) (error : Error) :
    Stores (if c then Machine.store value else onState (StreamCore.fail error))
      (if c then .accept value else Decoders.refuseWith error) :=
  ite (fun _ => store value) fun _ => fail error

end Stores

theorem group_realizes (initial width : U32) :
    Realizes (δ := δ) (inLocal initial (serializeBits width)) (Decoders.group width) :=
  Stores.inLocal initial (serializeBits_stores width)

/-! ### Groups -/

theorem serializeDwords_realizes (value : U64) (width : U32) :
    Realizes (δ := δ) (serializeDwords value width) (Decoders.dwords width) := by
  refine Realizes.ite (fun _ => ?_) fun hwide => ?_
  · exact (group_realizes _ width).bind fun lo => .pure _
  · refine (group_realizes _ 32).bind fun lo => ?_
    refine Realizes.step (checkedSubBits_of (sub_le_of_not_le hwide)) ?_
    exact (group_realizes _ _).bind fun hi => .pure _

/-- On a reader the offset starts out as zero. -/
theorem serializeOffset128_storesFrom {width : U32} (hwidth : 1 ≤ width ∧ width ≤ 128) :
    StoresFrom 0 (serializeOffset128 width) (Decoders.offset128 width) := by
  intro build stream hstream
  have hzero : ∀ n : Nat, ((0 : U128) >>> n).setWidth 32 = (0 : U32) := fun n => by
    rw [show (0 : U128) >>> n = 0 from BitVec.zero_ushiftRight]
    rfl
  rw [serializeOffset128, bind_apply, debugAssert_of hwidth, Outcome.bind_ok, bind_apply, load_apply,
    Outcome.bind_ok]
  simp only [hzero]
  refine Stores.ite (fun _ => ?_) (fun h32 => ?_) build stream 0 hstream
  · exact Stores.bind (group_realizes _ width) fun group0 => .store _
  refine Stores.ite (fun _ => ?_) fun h64 => ?_
  · refine Stores.bind (group_realizes _ 32) fun group0 => ?_
    refine Stores.step (checkedSubBits_of (sub_le_of_not_le h32)) ?_
    exact Stores.bind (group_realizes _ _) fun group1 => .store _
  refine Stores.ite (fun _ => ?_) fun h96 => ?_
  · refine Stores.bind (group_realizes _ 32) fun group0 => ?_
    refine Stores.bind (group_realizes _ 32) fun group1 => ?_
    refine Stores.step (checkedSubBits_of (sub_le_of_not_le h64)) ?_
    exact Stores.bind (group_realizes _ _) fun group2 => .store _
  · refine Stores.bind (group_realizes _ 32) fun group0 => ?_
    refine Stores.bind (group_realizes _ 32) fun group1 => ?_
    refine Stores.bind (group_realizes _ 32) fun group2 => ?_
    refine Stores.step (checkedSubBits_of (sub_le_of_not_le h96)) ?_
    exact Stores.bind (group_realizes _ _) fun group3 => .store _

/-! ### Ranged integers -/

/-- The three ranged integers are one method over the reading of an offset. -/
theorem ranged_stores {w : Nat} {offset : Decoder Error (BitVec w)} (min max : BitVec w)
    {check : BitVec w → Action (ReadStream × BitVec w) Unit}
    (readOffset : BitVec w → Action (ReadStream × BitVec w) (BitVec w))
    (hoffset : Realizes (readOffset 0) offset) :
    Stores (do
        onState (declarationCheck (min.sle max = true))
        if min = max then do
          onState refuseIfFailed
          whenReading (store min)
        else do
          let value ← load
          whenWriting (check value)
          let unsignedValue ← readOffset (if isWriting ReadStream then value - min else 0)
          whenReading
            (if max - min < unsignedValue then onState (StreamCore.fail .valueOutOfRange)
            else store (unsignedValue + min)))
      (Decoders.ranged offset min max) := by
  refine Stores.declare fun _ => Stores.ite (fun _ => ?_) fun _ => ?_
  · exact Stores.gate (Stores.reading (Stores.store min))
  · refine Stores.load fun value => Stores.writing ?_
    refine Stores.bind hoffset fun unsignedValue => Stores.reading ?_
    exact Stores.storeIf _ _

theorem serializeInt_stores (min max : I32) :
    Stores (serializeInt min max) (Decoders.int min max) :=
  ranged_stores min max (fun value => inLocal value (serializeBits _))
    (group_realizes 0 _)

theorem serializeInt64_stores (min max : I64) :
    Stores (serializeInt64 min max) (Decoders.int64 min max) :=
  ranged_stores min max (fun value => serializeDwords value _)
    (serializeDwords_realizes 0 _)

theorem serializeInt128_stores (min max : I128) :
    Stores (serializeInt128 min max) (Decoders.int128 min max) := by
  by_cases h : min = max
  · -- a degenerate range asks for no offset, so its decoder is not consulted
    refine Stores.declare fun _ => ?_
    rw [if_pos h, if_pos h]
    exact Stores.gate (Stores.reading (Stores.store min))
  · exact ranged_stores min max (fun value => inLocal value (serializeOffset128 _))
      (Stores.inLocal_from (serializeOffset128_storesFrom (bitsRequired128_bounds h)))

/-! ### Raw fields -/

theorem serializeBits64_stores (width : U32) :
    Stores (serializeBits64 width) (Decoders.bits64 width) := by
  refine Stores.declare fun _ => Stores.load fun value => Stores.writing ?_
  rw [← Decoder.bind_accept (Decoders.dwords width)]
  exact Stores.bind (serializeDwords_realizes value width) fun value => .store value

theorem serializeBool_stores : Stores serializeBool Decoders.bool := by
  refine Stores.load fun value => ?_
  exact Stores.bind (group_realizes _ 1) fun unsignedValue => .store _

theorem serializeNarrow_stores (w : Nat) : Stores (serializeNarrow w) (Decoders.narrow w) := by
  refine Stores.load fun value => ?_
  exact Stores.bind (group_realizes _ _) fun unsignedValue => .store _

theorem serializeU128_stores : Stores serializeU128 Decoders.u128 := by
  refine Stores.load fun value => ?_
  refine Stores.bind (Stores.inLocal _ (serializeBits64_stores 64)) fun lo => ?_
  exact Stores.bind (Stores.inLocal _ (serializeBits64_stores 64)) fun hi => .store _

theorem serializeF32_stores : Stores serializeF32 Decoders.f32 := by
  refine Stores.load fun value => Stores.writing ?_
  refine Stores.bind (group_realizes _ 32) fun intValue => Stores.reading ?_
  exact Stores.storeUnless _ _

theorem serializeF64_stores : Stores serializeF64 Decoders.f64 := by
  refine Stores.load fun value => Stores.writing ?_
  refine Stores.bind (Stores.inLocal _ (serializeBits64_stores 64)) fun intValue =>
    Stores.reading ?_
  exact Stores.storeUnless _ _

/-! ### Fixed point -/

theorem serializeFixed_stores (T : FixedPointStorage) (integerBits fractionBits : U32)
    (minUnits maxUnits : I64) :
    Stores (serializeFixed T integerBits fractionBits minUnits maxUnits)
      (Decoders.fixed T integerBits fractionBits minUnits maxUnits) := by
  have hbits := T.bits_le
  refine Stores.declare fun hpositive => Stores.declare fun hwidth => Stores.declare fun hsle => ?_
  rw [capacityCheck_eq T minUnits maxUnits hpositive (by omega)]
  refine Stores.declare fun hcapacity => ?_
  have horder : minUnits.toInt ≤ maxUnits.toInt := BitVec.sle_iff_toInt_le.mp hsle
  obtain ⟨hlow, hhigh⟩ := (Decoders.capacity_iff hpositive hwidth horder).mp hcapacity
  refine Stores.step (shiftAmount_of (show fractionBits.toNat < 128 by omega)) ?_
  refine Stores.step (noOverflow_of (units_do_not_overflow minUnits maxUnits)) ?_
  refine Stores.ite (fun _ => ?_) fun hne => ?_
  · refine Stores.gate (Stores.load fun value => Stores.writing (Stores.reading ?_))
    exact Stores.store _
  · refine Stores.load fun value => Stores.writing ?_
    refine Stores.bind (Stores.inLocal_from (serializeOffset128_storesFrom
      (Decoders.rawRange_bounds hlow hhigh horder hne))) fun offset => Stores.reading ?_
    exact Stores.storeIf _ _

/-! ### Relative integers -/

theorem acceptIntRelative_stores (previous : I32) (reconstructed : Int) :
    Stores (acceptIntRelative previous reconstructed) (Decoders.relative previous reconstructed) := by
  rw [acceptIntRelative, ite_not]
  exact Stores.storeUnless _ _

theorem serializeAbsolute_stores (previous : I32) :
    Stores (serializeAbsolute previous) (Decoders.absolute previous) := by
  refine Stores.load fun current => ?_
  refine Stores.bind (group_realizes _ 32) fun value => Stores.reading ?_
  refine Stores.ite (fun _ => Stores.fail _) fun hdomain => ?_
  rw [not_not] at hdomain
  have hprevious := i32_toInt_bounds previous
  have hvalue := hdomain.1.2
  have hfit : -2 ^ 63 ≤ (value.toNat : Int) - previous.toInt
      ∧ (value.toNat : Int) - previous.toInt < 2 ^ 63 := by
    simp only [i32Max] at hvalue
    omega
  refine Stores.step (checkedSubI64_of hfit) ?_
  exact Stores.storeIf _ _

theorem serializeBuckets_stores (previous : I32) (difference : U32)
    (tiers : List (U32 × I32 × I32)) :
    Stores (serializeBuckets previous difference tiers) (Decoders.tiers previous tiers) := by
  induction tiers with
  | nil => exact serializeAbsolute_stores previous
  | cons tier rest ih =>
      obtain ⟨threshold, low, high⟩ := tier
      refine Stores.bind (Stores.inLocal _ serializeBool_stores) fun inBucket => ?_
      refine Stores.ite (fun _ => ?_) fun _ => ih
      refine Stores.bind (Stores.inLocal _ (serializeInt_stores low high)) fun bucketDifference =>
        Stores.reading ?_
      have hprevious := i32_toInt_bounds previous
      have hdifference := i32_toInt_bounds bucketDifference
      refine Stores.step (checkedAddI64_of (by omega)) ?_
      exact acceptIntRelative_stores previous _

theorem serializeIntRelative_stores (previous : I32) :
    Stores (serializeIntRelative previous) (Decoders.intRelative previous) := by
  refine Stores.declare fun _ => Stores.load fun current => Stores.writing ?_
  refine Stores.bind (Stores.inLocal _ serializeBool_stores) fun oneBit => ?_
  refine Stores.ite (fun _ => Stores.reading ?_) fun _ => serializeBuckets_stores previous _ buckets
  have hprevious := i32_toInt_bounds previous
  refine Stores.step (checkedAddI64_of (by omega)) ?_
  exact acceptIntRelative_stores previous _

/-! ### Bytes and strings -/

theorem alignedPayload_stores (n : Nat) {next : List U8 → Action (ReadStream × δ) Unit}
    {rest : List.Vector U8 n → Decoder Error δ}
    (hnext : ∀ payload : List.Vector U8 n, Stores (next payload.toList) (rest payload)) :
    Stores (onState readAlign >>= fun _ => onState (readPayload n) >>= next)
      (Decoders.bytes n >>= rest) := by
  rw [onState_bind]
  intro build stream value hstream
  have hmatch := alignedPayload_tracks n build stream hstream
  rw [bind_apply, onState_apply, Decoder.bind_eq, Decoder.run_bind]
  rw [Decoder.run_bind] at hmatch
  match hm : (readAlign >>= fun _ => readPayload n) build stream,
    hd : (Decoders.bytes n).run stream.cursor, hmatch with
  | .ok payload stream', .ok vector c, ⟨hpayload, hvalid, hcursor⟩ =>
      subst hpayload hcursor
      exact hnext vector build stream' value hvalid
  | .err error stream', .err error' c, .inr ⟨c', hc, hvalid, hcursor⟩ =>
      cases hc
      exact ⟨rfl, hvalid, hcursor, rfl⟩
  | .trap stream', .trap c, ⟨hvalid, hcursor⟩ => exact ⟨hvalid, hcursor, rfl⟩

theorem serializeBytes_stores (count : Nat) :
    Stores (serializeBytes : Action (ReadStream × List.Vector U8 count) Unit)
      (Decoders.bytes count) := by
  rw [← Decoder.bind_accept (Decoders.bytes count)]
  refine alignedPayload_stores count fun payload => ?_
  rw [copyInto, dif_pos payload.toList_length]
  exact Stores.store _

theorem text_stores (payload : List U8) :
    Stores (if payload.contains 0 then onState (latch .embeddedNul)
        else match Utf8.fromUtf8 payload with
          | some text => store text
          | none => onState (latch .invalidUtf8))
      (Decoders.text payload) := by
  refine Stores.ite (fun _ => Stores.fail _) fun _ => ?_
  cases Utf8.fromUtf8 payload with
  | some text => exact Stores.store text
  | none => exact Stores.fail _

theorem serializeString_stores (bufferSize : Nat) :
    Stores (serializeString bufferSize : Action (ReadStream × Text) Unit)
      (Decoders.string bufferSize) := by
  refine Stores.ite (fun _ => Stores.fail _) fun hsize => ?_
  rw [not_or, Nat.not_lt] at hsize
  refine Stores.step (largestLength_eq hsize.2) ?_
  refine Stores.bind (Stores.inLocal _ (serializeInt_stores 0 _)) fun length => ?_
  exact alignedPayload_stores _ fun payload => text_stores payload.toList

/-! ### Compressed floats -/

section CompressedFloat

variable [Arithmetic]

theorem serializeCompressedFloatPrecomputed_stores (maxIntegerValue width : U32) (delta min : F32) :
    Stores (serializeCompressedFloatPrecomputed maxIntegerValue width delta min)
      (Decoders.compressedFloatPrecomputed maxIntegerValue width delta min) := by
  refine Stores.declare fun _ => Stores.declare fun _ => Stores.declare fun _ =>
    Stores.declare fun _ => Stores.load fun value => Stores.writing ?_
  refine Stores.bind (group_realizes _ width) fun integerValue => Stores.reading ?_
  exact Stores.ite (fun _ => Stores.fail _) fun _ => Stores.storeUnless _ _

theorem serializeCompressedFloat_stores (min max resolution : F32) :
    Stores (serializeCompressedFloat min max resolution)
      (Decoders.compressedFloat min max resolution) := by
  refine Stores.declare fun horder => Stores.declare fun hdelta => Stores.declare fun hcount => ?_
  refine Stores.step (serializeCompressedFloatParams_eq horder hdelta hcount) ?_
  exact serializeCompressedFloatPrecomputed_stores _ _ _ _

/-- **Every operation stores its decoder.** -/
theorem Operation.run_stores (operation : Operation) :
    Stores (operation.run : Action (ReadStream × operation.Value) Unit) operation.decoder := by
  cases operation with
  | bits width => exact serializeBits_stores width
  | bits64 width => exact serializeBits64_stores width
  | bool => exact serializeBool_stores
  | u8 => exact serializeNarrow_stores 8
  | u16 => exact serializeNarrow_stores 16
  | u32 => exact serializeBits_stores 32
  | u64 => exact serializeBits64_stores 64
  | u128 => exact serializeU128_stores
  | int min max => exact serializeInt_stores min max
  | int64 min max => exact serializeInt64_stores min max
  | int128 min max => exact serializeInt128_stores min max
  | fixed T integerBits fractionBits minUnits maxUnits =>
      exact serializeFixed_stores T integerBits fractionBits minUnits maxUnits
  | intRelative previous => exact serializeIntRelative_stores previous
  | f32 => exact serializeF32_stores
  | f64 => exact serializeF64_stores
  | bytes count => exact serializeBytes_stores count
  | string bufferSize => exact serializeString_stores bufferSize
  | align => exact Stores.of_realizes (Realizes.onState readAlign_tracks)
  | compressedFloat min max resolution => exact serializeCompressedFloat_stores min max resolution
  | compressedFloatPrecomputed maxIntegerValue width delta min =>
      exact serializeCompressedFloatPrecomputed_stores maxIntegerValue width delta min

end CompressedFloat

end Serialize
