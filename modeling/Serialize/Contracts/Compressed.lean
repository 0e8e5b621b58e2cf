import Serialize.Float.Binary32
import Serialize.Format.Runs
import Serialize.Model.Agreement
import Serialize.Reader.Flushed
import Serialize.Writer.Reachable

/-!
# What a compressed float writes

Whatever a declaration rounds to and whatever is written with it, the integer on the wire is one the
declaration admits, so a reader with the same declaration takes all its bits and never finds it out of
range. It may still decode to no finite value, and that is then what the reader says.
-/

namespace Serialize

open Machine BitString Decode Encode
open Binary32 (Arithmetic)

section Arithmetic

variable [Arithmetic]

/-- The checks of the precomputed method on its constants. -/
structure CompressedFloatParams.Declared (params : CompressedFloatParams) : Prop where
  range : 1 ≤ params.maxIntegerValue ∧ params.maxIntegerValue ≤ 4294967040
  bits : params.bits = bitsRequired 0 params.maxIntegerValue
  positive : Binary32.lt Binary32.zero params.delta = true
  finite : Binary32.isFinite params.delta = true

/-- What the read of a compressed float comes to on its own bits: the value they decode to, or the
refusal of a value that is not finite, with all of them consumed either way. -/
def DecodesOrNonFinite (reader : ReadStream) (n : Nat) (decoded prior : F32)
    (outcome : Outcome Error (ReadStream × F32) Unit) : Prop :=
  if Binary32.isFinite decoded then reader.Accepts n decoded outcome
  else reader.RefusesAfter n .nonFiniteFloat prior outcome

section Derived

variable {min max resolution : F32}

/-- **The derived constants pass every check of the precomputed method.** -/
theorem declared_of_legal (hlegal : (Operation.compressedFloat min max resolution).Legal) :
    (compressedFloatParams min max resolution).Declared := by
  obtain ⟨horder, -, hdelta, -⟩ := hlegal
  obtain ⟨hrange, -, hpositive, hfinite⟩ := compressedFloatParams_legal horder hdelta
  exact ⟨hrange, rfl, hpositive, hfinite⟩

variable {params : CompressedFloatParams}

omit [Arithmetic] in
theorem CompressedFloatParams.Declared.toNat_bits (h : params.Declared) :
    params.bits.toNat = Nat.size params.maxIntegerValue.toNat := by
  rw [h.bits, toNat_bitsRequired, Decoders.sub_zero_toNat]

omit [Arithmetic] in
theorem CompressedFloatParams.Declared.width (h : params.Declared) :
    1 ≤ params.bits.toNat ∧ params.bits.toNat ≤ 32 := by
  rw [h.toNat_bits]
  exact ⟨Nat.size_pos.mpr h.range.1, Nat.size_le.mpr params.maxIntegerValue.isLt⟩

omit [Arithmetic] in
theorem CompressedFloatParams.Declared.fits (h : params.Declared) {integerValue : U32}
    (hinside : integerValue ≤ params.maxIntegerValue) :
    integerValue.toNat < 2 ^ params.bits.toNat := by
  rw [h.toNat_bits]
  exact (BitVec.le_def.mp hinside).trans_lt (Nat.size_le.mp (le_refl _))

/-! ### The writer -/

/-- The writing half puts one field, whatever the value: what it checks besides the declaration only a
checked build checks. -/
theorem Encoders.compressedFloat_run {σ : Type} {put : U32 → U32 → Action σ Unit} {value : F32}
    {build : Build} {state : σ} (hlegal : (Operation.compressedFloat min max resolution).Legal)
    (hconforms : build = .checked → Binary32.isFinite value = true
      ∧ (Operation.compressedFloat min max resolution).TopDecodes) :
    Encoder.run put (Encoders.compressedFloat min max resolution value) build state
      = put (compressedFloatParams min max resolution).bits
          (quantize value (compressedFloatParams min max resolution).maxIntegerValue
            (compressedFloatParams min max resolution).delta min) build state := by
  have hdeclared := declared_of_legal hlegal
  have htop : build = .checked → Binary32.isFinite (Arithmetic.add min
      (compressedFloatParams min max resolution).delta) = true := fun hbuild => (hconforms hbuild).2
  obtain ⟨horder, hresolution, hdelta, hcount⟩ := hlegal
  have hchecks : ∀ encoder : Encoder,
      Encoder.run put (Encoders.compressedFloatDeclared min max resolution ++ encoder) build state
        = Encoder.run put encoder build state := by
    intro encoder
    rw [Encoders.compressedFloatDeclared, List.cons_append, List.cons_append, List.cons_append,
      List.nil_append, Encoder.run_assert_of ⟨horder, hresolution⟩, Encoder.run_assert_of hdelta,
      Encoder.run_assert_of hcount]
  rw [Encoders.compressedFloat, List.append_assoc, hchecks, hchecks, Encoders.compressedFloatPrecomputed,
    Encoder.run_assert_of hdeclared.range, Encoder.run_assert_of hdeclared.bits,
    Encoder.run_assert_of hdeclared.positive, Encoder.run_assert_of hdeclared.finite,
    Encoder.run_assert_of_checked fun hbuild => (hconforms hbuild).1,
    Encoder.run_assert_of_checked htop, Encoder.run_singleton]
  rfl

/-! ### The reader -/

variable {c : Cursor Error} {integerValue : U32}

omit [Arithmetic] in
theorem take_of_toBits_prefix {n v : Nat} {bits : List Bool} (h : toBits n v <+: bits) :
    n ≤ bits.length ∧ bits.take n = toBits n v := by
  have hlength := h.length_le
  have htake := List.prefix_iff_eq_take.mp h
  rw [length_toBits] at hlength htake
  exact ⟨hlength, htake.symm⟩

/-- On an integer the constants admit, the reading half ends behind it, by what it decodes to. -/
theorem Decoders.compressedFloatPrecomputed_run (hdeclared : params.Declared)
    (hinside : integerValue ≤ params.maxIntegerValue) (hlive : c.Live) (hlimit : c.limit < 2 ^ 64)
    (hahead : toBits params.bits.toNat integerValue.toNat <+: c.remaining) :
    (Decoders.compressedFloatPrecomputed params.maxIntegerValue params.bits params.delta min).run c
      = if Binary32.isFinite
            (decodeCompressed integerValue params.maxIntegerValue params.delta min) then
          .ok (decodeCompressed integerValue params.maxIntegerValue params.delta min)
            (c.advance params.bits.toNat)
        else .err .nonFiniteFloat
          { c.advance params.bits.toNat with failed := some .nonFiniteFloat } := by
  obtain ⟨hle, htaken⟩ := take_of_toBits_prefix hahead
  have hlive' : (c.advance params.bits.toNat).Live := hlive
  have hfield : (group params.bits).run c = .ok integerValue (c.advance params.bits.toNat) := by
    rw [(group_grouped hdeclared.width).run_of_le hlive hlimit hle, htaken,
      ofBits_toBits_of_lt (hdeclared.fits hinside), BitVec.ofNat_toNat, BitVec.setWidth_eq]
  rw [Decoders.compressedFloatPrecomputed, Decoder.bind_eq, declare_bind_run hdeclared.range,
    Decoder.bind_eq, declare_bind_run hdeclared.bits, Decoder.bind_eq,
    declare_bind_run hdeclared.positive, Decoder.bind_eq, declare_bind_run hdeclared.finite,
    Decoder.bind_eq, Decoder.run_bind, hfield, Outcome.bind_ok, if_neg (BitVec.not_lt.mpr hinside)]
  dsimp only
  rw [floatBitsAreFinite_eq]
  split
  · rfl
  · rw [refuseWith_run (limit_advance hlimit hle), Cursor.latch_of_live hlive']

theorem Decoders.compressedFloat_eq (hlegal : (Operation.compressedFloat min max resolution).Legal) :
    Decoders.compressedFloat min max resolution
      = Decoders.compressedFloatPrecomputed (compressedFloatParams min max resolution).maxIntegerValue
          (compressedFloatParams min max resolution).bits
          (compressedFloatParams min max resolution).delta min := by
  obtain ⟨horder, hresolution, hdelta, hcount⟩ := hlegal
  rw [Decoders.compressedFloat, Decoder.bind_eq, declare_bind_run ⟨horder, hresolution⟩,
    Decoder.bind_eq, declare_bind_run hdelta, Decoder.bind_eq, declare_bind_run hcount]

omit [Arithmetic] in
theorem DecodesOrNonFinite.returned {reader : ReadStream} {n : Nat} {decoded prior : F32}
    {outcome : Outcome Error (ReadStream × F32) Unit}
    (h : DecodesOrNonFinite reader n decoded prior outcome) : outcome.Returned := by
  rw [DecodesOrNonFinite] at h
  split at h
  next => exact h.returned
  next => exact h.returned

theorem serializeCompressedFloat_read {reader : ReadStream} (profile : Profile) (prior : F32)
    (hlegal : (Operation.compressedFloat min max resolution).Legal)
    (hinside : integerValue ≤ (compressedFloatParams min max resolution).maxIntegerValue)
    (hreader : reader.Reachable) (hlive : reader.failure = none)
    (hahead : toBits (compressedFloatParams min max resolution).bits.toNat integerValue.toNat
      <+: reader.cursor.remaining) :
    DecodesOrNonFinite reader (compressedFloatParams min max resolution).bits.toNat
      (decodeCompressed integerValue (compressedFloatParams min max resolution).maxIntegerValue
        (compressedFloatParams min max resolution).delta min) prior
      (serializeCompressedFloat min max resolution profile (reader, prior)) := by
  have hstores := serializeCompressedFloat_stores min max resolution
  have hvalid := hreader.valid
  have hrun := @Decoders.compressedFloatPrecomputed_run _ min _ reader.cursor integerValue
    (declared_of_legal hlegal) hinside hlive hvalid.limit_lt hahead
  rw [← Decoders.compressedFloat_eq hlegal] at hrun
  have hread : DecodesOrNonFinite reader (compressedFloatParams min max resolution).bits.toNat
      (decodeCompressed integerValue (compressedFloatParams min max resolution).maxIntegerValue
        (compressedFloatParams min max resolution).delta min) prior
      (serializeCompressedFloat min max resolution .checked (reader, prior)) := by
    rw [DecodesOrNonFinite]
    split
    next hfinite =>
      rw [if_pos hfinite] at hrun
      exact ReadStream.accepts_of_run hstores hvalid hrun rfl hlive
    next hinfinite =>
      rw [if_neg hinfinite] at hrun
      exact ReadStream.refusesAfter_of_run hstores hvalid hrun rfl rfl
  rw [ProfilesAgree.eq_checked inferInstance hread.returned profile]
  exact hread

end Derived

/-! ### Written and read back -/

/-- The bits a value is written as. -/
def compressedCode (min max resolution value : F32) : List Bool :=
  let params := compressedFloatParams min max resolution
  toBits params.bits.toNat (quantize value params.maxIntegerValue params.delta min).toNat

/-- From where a stream with room for them stands, a value is written as exactly its bits, and these
are then ahead of any reader at that place of the flushed packet. A checked build asks in addition for
a finite value and a finite top of the range. -/
def WritesItsCode (min max resolution value : F32) : Prop :=
  ∀ {buffer : List U8} {stream : WriteStream}, WriteStream.Reachable buffer stream →
    bitsProcessed stream + (compressedCode min max resolution value).length ≤ buffer.length * 8 →
    ∀ profile : Profile,
      (profile = .checked → (Operation.compressedFloat min max resolution).InDomain value
        ∧ (Operation.compressedFloat min max resolution).TopDecodes) →
    ∃ written flushed,
      serializeCompressedFloat min max resolution profile (stream, value) = .ok () (written, value)
      ∧ bitsProcessed written
        = bitsProcessed stream + (compressedCode min max resolution value).length
      ∧ WriteStream.flush profile written = .ok () flushed
      ∧ ∀ reader : ReadStream, reader.Follows flushed (bitsProcessed stream) →
          compressedCode min max resolution value <+: reader.cursor.remaining

/-- A value is written as an integer the declaration admits, and a reader with the same declaration
takes all its bits and does not find it out of range. -/
structure WrittenInRange (min max resolution value : F32) : Prop where
  inside : quantize value (compressedFloatParams min max resolution).maxIntegerValue
      (compressedFloatParams min max resolution).delta min
    ≤ (compressedFloatParams min max resolution).maxIntegerValue
  fits : (quantize value (compressedFloatParams min max resolution).maxIntegerValue
      (compressedFloatParams min max resolution).delta min).toNat
    < 2 ^ (compressedFloatParams min max resolution).bits.toNat
  writes : WritesItsCode min max resolution value
  reads : ∀ (reader : ReadStream) (profile : Profile) (prior : F32), reader.Reachable →
    reader.failure = none → compressedCode min max resolution value <+: reader.cursor.remaining →
    DecodesOrNonFinite reader (compressedFloatParams min max resolution).bits.toNat
        (decodeCompressed (quantize value (compressedFloatParams min max resolution).maxIntegerValue
            (compressedFloatParams min max resolution).delta min)
          (compressedFloatParams min max resolution).maxIntegerValue
          (compressedFloatParams min max resolution).delta min) prior
        (serializeCompressedFloat min max resolution profile (reader, prior))
      ∧ ¬ReadStream.Refuses .valueOutOfRange prior
        (serializeCompressedFloat min max resolution profile (reader, prior))

section Written

variable {min max resolution value : F32}

theorem quantize_inside (value : F32) (maxIntegerValue : U32) (delta min : F32) :
    quantize value maxIntegerValue delta min ≤ maxIntegerValue :=
  quantize_le value maxIntegerValue delta min

theorem length_compressedCode (min max resolution value : F32) :
    (compressedCode min max resolution value).length
      = (compressedFloatParams min max resolution).bits.toNat :=
  length_toBits _ _

theorem writesItsCode_of_legal (hlegal : (Operation.compressedFloat min max resolution).Legal) :
    WritesItsCode min max resolution value := by
  intro buffer stream hreachable hroom profile hconforms
  obtain ⟨hbuffer, bits, hbits, rfl⟩ := hreachable.holds
  have hroom : bits.length + (compressedCode min max resolution value).length ≤ buffer.length * 8 :=
    hroom
  have hfits : (bits ++ compressedCode min max resolution value).length ≤ buffer.length * 8 := by
    rw [List.length_append]
    exact hroom
  have hdeclared := declared_of_legal hlegal
  have hvalid : BitWriter.Valid (compressedFloatParams min max resolution).bits
      (quantize value (compressedFloatParams min max resolution).maxIntegerValue
        (compressedFloatParams min max resolution).delta min) :=
    ⟨hdeclared.width, hdeclared.fits (quantize_inside ..)⟩
  rw [length_compressedCode] at hroom
  have hwrites : ∀ build : Build, (build = .checked →
      (Operation.compressedFloat min max resolution).InDomain value
        ∧ (Operation.compressedFloat min max resolution).TopDecodes) →
      serializeCompressedFloat min max resolution build (WriteStream.holding buffer bits, value)
        = .ok () (WriteStream.holding buffer (bits ++ compressedCode min max resolution value),
            value) := by
    intro build hbuild
    rw [serializeCompressedFloat_writes WriteStream.scribe, Encoders.compressedFloat_run hlegal hbuild]
    show ((WriteStream.put _ _ build _).mapState _).bind _ = _
    rw [WriteStream.put_ok hbuffer build hvalid hroom]
    rfl
  refine ⟨WriteStream.holding buffer (bits ++ compressedCode min max resolution value), _, ?_,
    List.length_append, WriteStream.flush_holding hbuffer profile hfits,
    fun reader hreader => hreader.ahead⟩
  cases profile with
  | trapping build => exact hwrites build fun hbuild => hconforms (congrArg _ hbuild)
  | wrapping =>
      -- the default release profile has the assertions of an unchecked build
      have hlax : Profile.wrapping.Relaxes .unchecked := trivial
      exact ProfilesAgree.of_ok inferInstance hlax (hwrites .unchecked fun hbuild => by cases hbuild)

omit [Arithmetic] in
theorem not_valueOutOfRange {reader : ReadStream} {n : Nat} {decoded prior : F32}
    {outcome : Outcome Error (ReadStream × F32) Unit}
    (h : DecodesOrNonFinite reader n decoded prior outcome) :
    ¬ReadStream.Refuses .valueOutOfRange prior outcome := by
  rintro ⟨refused, hrefused, -⟩
  rw [DecodesOrNonFinite] at h
  split at h
  next =>
    obtain ⟨accepted, haccepted, -⟩ := h
    rw [haccepted] at hrefused
    cases hrefused
  next =>
    obtain ⟨nonFinite, hnonFinite, -⟩ := h
    rw [hnonFinite] at hrefused
    cases hrefused

end Written

/-- **No compressed float is written out of its own range**, whatever the arithmetic rounds to and
whatever is written; and the derived constants are ones the precomputed method takes. -/
theorem compressed_float_in_range {min max resolution : F32}
    (hlegal : (Operation.compressedFloat min max resolution).Legal) :
    (compressedFloatParams min max resolution).Declared
      ∧ ∀ value : F32, WrittenInRange min max resolution value := by
  have hdeclared := declared_of_legal hlegal
  refine ⟨hdeclared, fun value => ?_⟩
  have hinside := quantize_inside value (compressedFloatParams min max resolution).maxIntegerValue
    (compressedFloatParams min max resolution).delta min
  refine ⟨hinside, hdeclared.fits hinside, writesItsCode_of_legal hlegal, ?_⟩
  intro reader profile prior hreader hlive hahead
  have hread := serializeCompressedFloat_read profile prior hlegal hinside hreader hlive hahead
  exact ⟨hread, not_valueOutOfRange hread⟩

end Arithmetic

/-- The range of `2^24 - 1` steps, where the sum at the top rounds to `2^24`. -/
theorem compressed_float_in_range_top :
    (compressedFloatParams 0 0x4B7FFFFF Binary32.one).Declared
      ∧ ∀ value : F32, WrittenInRange 0 0x4B7FFFFF Binary32.one value :=
  compressed_float_in_range ⟨by decide, by decide, by decide, by decide⟩

example : Binary32.toU32 (Binary32.floor (Binary32.add 0x4B7FFFFF Binary32.half)) = 0x1000000
    ∧ quantize 0x4B7FFFFF 0xFFFFFF 0x4B7FFFFF 0 = 0xFFFFFF := by decide +kernel

end Serialize
