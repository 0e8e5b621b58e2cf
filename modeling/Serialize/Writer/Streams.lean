import Serialize.Model.MeasureStream
import Serialize.Writer.Holding
import Serialize.Writer.Operations

/-!
# The write stream and the measure stream as sinks

A write stream holds bits in a writer over its buffer and aligns to the next byte. A measure stream
holds their number alone and counts every alignment at its worst. Each one's byte and string
operations append the encoding under its own alignment, and then so does every operation.
-/

namespace Serialize

open Machine BitString
open Binary32 (Arithmetic)
open CoreSink
open Utf8 (Text)

/-! ### The write stream -/

namespace WriteStream

variable {buffer : List U8} {bits : List Bool}

/-- The write stream over a buffer to which bits were written. -/
def holding (buffer : List U8) (bits : List Bool) : WriteStream where
  writer := BitWriter.holding buffer bits

theorem onWriter_holding {α : Type} {m : Action BitWriter α} {build : Build} {part : α}
    {bits' : List Bool}
    (h : m build (BitWriter.holding buffer bits) = .ok part (BitWriter.holding buffer bits')) :
    onWriter m build (holding buffer bits) = .ok part (holding buffer bits') := by
  rw [onWriter, focus_apply]
  exact congrArg (Outcome.mapState _) h

/-- A write stream's fields. -/
def coreSink (hbuffer : BitWriter.Writable buffer) : CoreSink WriteStream where
  holding := holding buffer
  capacity := buffer.length * 8
  strict := False
  writes := rfl
  reads := rfl
  gate_eq _ _ := rfl
  serializeBits_eq build bits value width hwidth hvalue hroom := by
    have hwrite := BitWriter.writeBits_holding hbuffer build hwidth hvalue hroom
    show (onWriter (BitWriter.writeBits value width) build (holding buffer bits)).mapState _ = _
    rw [onWriter_holding hwrite]
    rfl
  serializeBits_trap hstrict := hstrict.elim

theorem align_emits (hbuffer : BitWriter.Writable buffer) {δ : Type} (value : δ) :
    (coreSink hbuffer).Emits (onState (onWriter BitWriter.writeAlign)) value ()
      (alignCode byteBoundary) := by
  refine Emits.of_lax not_false fun build bits hroom => ?_
  rw [alignCode, List.length_replicate] at hroom
  rw [onState_apply]
  exact congrArg (Outcome.mapState _)
    (onWriter_holding (BitWriter.writeAlign_holding hbuffer build hroom))

theorem payload_emits (hbuffer : BitWriter.Writable buffer) {δ : Type} (value : δ)
    (bytes : List U8) :
    (coreSink hbuffer).Emits (do
        onState (onWriter BitWriter.writeAlign)
        onState (onWriter (BitWriter.writeBytes bytes)))
      value () fun position => bytesCode byteBoundary position bytes := by
  refine Emits.of_lax not_false fun build bits hroom => ?_
  have hcapacity : (coreSink hbuffer).capacity = buffer.length * 8 := rfl
  set padded := bits ++ alignCode byteBoundary bits.length with hpadded
  have hlength : padded.length = bits.length + byteBoundary bits.length := by
    rw [hpadded, List.length_append, alignCode, List.length_replicate]
  have haligned : padded.length % 8 = 0 := by
    rw [hlength, byteBoundary]
    omega
  rw [bytesCode, List.length_append, length_bitsOfOctets, alignCode, List.length_replicate,
    hcapacity] at hroom
  have halign := (align_emits hbuffer value build bits (by omega)).1 (by
    rw [alignCode, List.length_replicate, hcapacity]
    omega)
  have hwrite := BitWriter.writeBytes_holding hbuffer build bytes haligned (by omega)
  rw [bind_apply, halign, Outcome.bind_ok, bytesCode, ← List.append_assoc, ← hpadded]
  show (onWriter (BitWriter.writeBytes bytes) build (holding buffer padded)).mapState _ = _
  rw [onWriter_holding hwrite]
  rfl

/-- The room a byte or string operation asserts is the room its whole encoding takes. -/
theorem debugAssertRoom_holding (hbuffer : BitWriter.Writable buffer) (build : Build)
    (fieldBits : U32) (payload : Nat)
    (hroom : bits.length + fieldBits.toNat + byteBoundary (bits.length + fieldBits.toNat)
      + 8 * payload ≤ buffer.length * 8) :
    debugAssertRoom fieldBits payload build (holding buffer bits) = .ok () (holding buffer bits) := by
  have hnumBits := hbuffer.numBits_lt
  rw [byteBoundary] at hroom
  have hwritten : (BitWriter.holding buffer bits).bitsWritten = bits.length := rfl
  have hlimit : (BitWriter.holding buffer bits).numBits = buffer.length * 8 := rfl
  apply inChecked_of_ok
  apply onWriter_holding
  simp only [bind_apply, getState_apply, Outcome.bind_ok, BitWriter.bitsAvailable, hwritten,
    checkedAdd_of (show bits.length + fieldBits.toNat < 2 ^ 64 by omega)]
  rw [checkedAdd_of (by omega), Outcome.bind_ok, checkedMul_of (by omega), Outcome.bind_ok,
    checkedAdd_of (by omega), Outcome.bind_ok]
  simp only [hwritten, hlimit]
  rw [checkedSub_of (by omega), Outcome.bind_ok, require_of (by omega)]

theorem bytes_emits (hbuffer : BitWriter.Writable buffer) {n : Nat} (value : List.Vector U8 n) :
    (coreSink hbuffer).Emits serializeBytes value ()
      fun position => bytesCode byteBoundary position value.toList := by
  refine Emits.of_lax not_false fun build bits hroom => ?_
  have hlength : (bytesCode byteBoundary bits.length value.toList).length
      = byteBoundary bits.length + 8 * value.toList.length := by
    rw [bytesCode, List.length_append, length_bitsOfOctets, alignCode, List.length_replicate]
  have hasserted := @debugAssertRoom_holding buffer bits hbuffer build 0 value.toList.length (by
    have hfits : bits.length + (bytesCode byteBoundary bits.length value.toList).length
      ≤ buffer.length * 8 := hroom
    rw [show (0 : U32).toNat = 0 from rfl, Nat.add_zero]
    omega)
  have hemits := (payload_emits hbuffer value value.toList build bits (by omega)).1 hroom
  unfold serializeBytes instStream
  dsimp only
  rw [bind_apply, load_apply, Outcome.bind_ok, bind_apply, onState_apply]
  show ((debugAssertRoom 0 value.toList.length build (holding buffer bits)).mapState _).bind _ = _
  rw [hasserted, Outcome.mapState_ok, Outcome.bind_ok]
  exact hemits

theorem toNat_saturatingPred {bufferSize : Nat} (hlegal : 1 ≤ bufferSize ∧ bufferSize ≤ i32Max) :
    (saturatingPred bufferSize).toNat = bufferSize - 1 := by
  have hmax := hlegal.2
  simp only [i32Max] at hmax
  have hsize : (BitVec.ofNat 32 bufferSize).toNat = bufferSize := by
    rw [BitVec.toNat_ofNat, Nat.mod_eq_of_lt (by omega)]
  have hne : BitVec.ofNat 32 bufferSize ≠ 0 := by
    intro hzero
    rw [hzero] at hsize
    exact absurd hsize.symm (Nat.ne_of_gt hlegal.1)
  have hone : (1 : U32) ≤ BitVec.ofNat 32 bufferSize := by
    rw [BitVec.le_def, hsize]
    exact hlegal.1
  rw [saturatingPred, if_neg hne, BitVec.toNat_sub_of_le hone, hsize]
  rfl

theorem string_emits (hbuffer : BitWriter.Writable buffer) {bufferSize : Nat} {value : Text}
    (hlegal : 1 ≤ bufferSize ∧ bufferSize ≤ i32Max)
    (hdomain : value.bytes.length < bufferSize ∧ 0 ∉ value.bytes) :
    (coreSink hbuffer).Emits (serializeString bufferSize) value ()
      fun position => stringCode byteBoundary bufferSize position value.bytes := by
  refine Emits.of_lax not_false fun build bits hroom => ?_
  set length := rangedBits 0 (bufferSize - 1) value.bytes.length with hlength
  have hfield : (bitsRequired 0 (saturatingPred bufferSize)).toNat = length.length := by
    rw [toNat_bitsRequired, Decoders.sub_zero_toNat, toNat_saturatingPred hlegal, hlength,
      rangedBits, length_toBits]
    congr 1
    omega
  have hasserted := @debugAssertRoom_holding buffer bits hbuffer build
    (bitsRequired 0 (saturatingPred bufferSize)) value.bytes.length (by
      have hfits : bits.length + (stringCode byteBoundary bufferSize bits.length value.bytes).length
        ≤ buffer.length * 8 := hroom
      rw [stringCode, List.length_append, bytesCode, List.length_append, length_bitsOfOctets,
        alignCode, List.length_replicate, ← hlength] at hfits
      rw [hfield]
      omega)
  have hemits := (lengthAndPayload_emits (coreSink hbuffer) hlegal hdomain.1
    (payload_emits hbuffer value value.bytes) build bits (by omega)).1 hroom
  unfold serializeString instStream
  dsimp only
  rw [bind_apply, load_apply, Outcome.bind_ok, bind_apply,
    stringLength_silent hlegal hdomain.1 hdomain.2, Outcome.bind_ok, bind_apply, onState_apply]
  show ((debugAssertRoom _ value.bytes.length build (holding buffer bits)).mapState _).bind _ = _
  rw [hasserted, Outcome.mapState_ok, Outcome.bind_ok]
  exact hemits

/-- **The write stream over a buffer is a sink** that aligns to the next byte. -/
def sink (hbuffer : BitWriter.Writable buffer) : Sink WriteStream where
  toCoreSink := coreSink hbuffer
  alignment := byteBoundary
  align_emits := align_emits hbuffer ()
  bytes_emits := bytes_emits hbuffer
  string_emits := string_emits hbuffer
  end_eq _ _ := rfl
  object_eq _ := rfl
  bitsProcessed_eq _ := rfl

theorem new_holding (h : BitWriter.Writable buffer) (profile : Profile) :
    WriteStream.new buffer profile () = .ok (holding buffer []) () := by
  rw [WriteStream.new, bind_apply, BitWriter.new_holding h]
  rfl

theorem new_eq_ok {build : Build} {stream : WriteStream} (hwhole : buffer.length % 8 = 0)
    (hnew : WriteStream.new buffer build () = .ok stream ()) :
    BitWriter.Writable buffer ∧ stream = holding buffer [] := by
  rw [WriteStream.new, bind_apply] at hnew
  obtain ⟨writer, ⟨⟩, hwriter, hstream⟩ := Outcome.bind_eq_ok.mp hnew
  obtain ⟨hbuffer, rfl⟩ := BitWriter.new_eq_ok hwhole hwriter
  cases hstream
  exact ⟨hbuffer, rfl⟩

/-- The write stream over a buffer to which bits were written, once it is flushed. -/
def flushed (buffer : List U8) (bits : List Bool) : WriteStream where
  writer := BitWriter.flushed buffer bits

theorem flush_holding (hbuffer : BitWriter.Writable buffer) (profile : Profile)
    (hroom : bits.length ≤ buffer.length * 8) :
    flush profile (holding buffer bits) = .ok () (flushed buffer bits) := by
  rw [flush, onWriter, focus_apply]
  exact congrArg (Outcome.mapState _) (BitWriter.flushBits_holding hbuffer profile hroom)

theorem data_flushed (buffer : List U8) (bits : List Bool) :
    (flushed buffer bits).data = BitWriter.packed bits :=
  BitWriter.written_flushed buffer bits

end WriteStream

/-! ### The measure stream -/

namespace MeasureStream

/-- The measure stream that was handed bits. -/
def holding (bits : List Bool) : MeasureStream where
  bitsWritten := bits.length

theorem count_holding (build : Build) {bits code : List Bool}
    (hroom : bits.length + code.length ≤ 2 ^ 64 - 1) :
    count code.length build (holding bits) = .ok () (holding (bits ++ code)) := by
  have hsum : (holding bits).bitsWritten + code.length < 2 ^ 64 := by
    show bits.length + code.length < 2 ^ 64
    omega
  have hheld : holding (bits ++ code) = { bitsWritten := (holding bits).bitsWritten + code.length } :=
    congrArg _ (List.length_append ..)
  rw [count, bind_apply, getState_apply, Outcome.bind_ok, bind_apply, checkedAdd_of hsum,
    Outcome.bind_ok, setState_apply, hheld]

theorem count_trap (build : Build) {bits : List Bool} {n : Nat} (hfull : 2 ^ 64 - 1 < bits.length + n) :
    ¬(count n build (holding bits)).Returned := by
  have hsum : ¬(holding bits).bitsWritten + n < 2 ^ 64 := by
    show ¬bits.length + n < 2 ^ 64
    omega
  rw [count, bind_apply, getState_apply, Outcome.bind_ok, bind_apply, checkedAdd_of_not hsum]
  exact not_false

theorem serializeBits_eq_count (build : Build) {value width : U32}
    (hwidth : 1 ≤ width.toNat ∧ width.toNat ≤ 32) (hvalue : value.toNat < 2 ^ width.toNat)
    (stream : MeasureStream) : serializeBits width build (stream, value)
      = (count width.toNat build stream).mapState fun stream' => (stream', value) := by
  unfold serializeBits instStreamCore
  dsimp only
  rw [bind_apply, load_apply, Outcome.bind_ok, bind_apply,
    debugAssert_of ((wrapping_pred_lt_iff width).mpr hwidth), Outcome.bind_ok, bind_apply,
    inChecked_of_ok (by rw [bind_apply, noOverflow_of (by omega), Outcome.bind_ok, require_of hvalue]),
    Outcome.bind_ok, onState_apply]

/-- A measure stream's fields. -/
def coreSink : CoreSink MeasureStream where
  holding := holding
  capacity := 2 ^ 64 - 1
  strict := True
  writes := rfl
  reads := rfl
  gate_eq _ _ := rfl
  serializeBits_eq build bits value width hwidth hvalue hroom := by
    have hcount := @count_holding build bits (toBits width.toNat value.toNat)
    rw [length_toBits] at hcount
    rw [serializeBits_eq_count build hwidth hvalue, hcount hroom, Outcome.mapState_ok]
  serializeBits_trap _ build bits value width hwidth hvalue hfull := by
    rw [serializeBits_eq_count build hwidth hvalue]
    exact Outcome.not_returned_mapState (count_trap build hfull) _

theorem align_emits {δ : Type} (value : δ) :
    coreSink.Emits (onState measureAlign) value () (alignCode worstAlignment) := by
  intro build bits _
  rw [onState_apply]
  constructor
  · intro hroom
    exact congrArg (Outcome.mapState _) (count_holding build hroom)
  · intro _ hfull
    exact Outcome.not_returned_mapState (count_trap build hfull) _

theorem countBytes_emits {δ : Type} (value : δ) (bytes : List U8) :
    coreSink.Emits (onState (countBytes bytes.length)) value () fun _ => bitsOfOctets bytes := by
  intro build bits _
  have hcapacity : coreSink.capacity = 2 ^ 64 - 1 := rfl
  have hlength : (bitsOfOctets bytes).length = bytes.length * 8 := by
    rw [length_bitsOfOctets, Nat.mul_comm]
  rw [onState_apply, countBytes, bind_apply, hcapacity]
  dsimp only
  constructor
  · intro hroom
    rw [checkedMul_of (by omega), Outcome.bind_ok, ← hlength]
    exact congrArg (Outcome.mapState _) (count_holding build hroom)
  · intro _ hfull
    apply Outcome.not_returned_mapState
    by_cases hpayload : bytes.length * 8 < 2 ^ 64
    · rw [checkedMul_of hpayload, Outcome.bind_ok, ← hlength]
      exact count_trap build hfull
    · rw [checkedMul_of_not hpayload]
      exact not_false

theorem payload_emits {δ : Type} (value : δ) (bytes : List U8) :
    coreSink.Emits (do
        onState measureAlign
        onState (countBytes bytes.length))
      value () fun position => bytesCode worstAlignment position bytes :=
  (Emits.bind (align_emits value) (countBytes_emits value bytes)).congr fun _ => rfl

/-- **The measure stream is a sink** that takes every alignment at its worst. -/
def sink : Sink MeasureStream where
  toCoreSink := coreSink
  alignment := worstAlignment
  align_emits := align_emits ()
  bytes_emits value := Emits.before Silent.load (payload_emits value value.toList)
  string_emits hlegal hdomain := Emits.before Silent.load
    (Emits.before (stringLength_silent hlegal hdomain.1 hdomain.2)
      (lengthAndPayload_emits coreSink hlegal hdomain.1 (payload_emits _ _)))
  end_eq _ _ := rfl
  object_eq _ := rfl
  bitsProcessed_eq _ := rfl

end MeasureStream

/-! ### Every operation -/

variable {S : Type} [Stream S] [Arithmetic]

/-- **An operation appends the encoding of a conforming value**, on either stream that writes. -/
theorem Operation.run_emits (sink : Sink S) {operation : Operation} {value : operation.Value}
    (h : operation.Conforms value) :
    sink.Emits operation.run value () fun position => operation.encode sink.alignment position value := by
  obtain ⟨hlegal, hdomain, htop⟩ := h
  cases operation with
  | bits width => exact serializeBits_emits _ hlegal hdomain
  | bits64 width => exact serializeBits64_emits _ hlegal hdomain
  | bool => exact serializeBool_emits _ value
  | u8 => exact serializeNarrow_emits _ (by decide) value
  | u16 => exact serializeNarrow_emits _ (by decide) value
  | u32 => exact serializeU32_emits _ value
  | u64 => exact serializeU64_emits _ value
  | u128 => exact serializeU128_emits _ value
  | int min max => exact serializeInt_emits _ hlegal hdomain.1 hdomain.2
  | int64 min max => exact serializeInt64_emits _ hlegal hdomain.1 hdomain.2
  | int128 min max => exact serializeInt128_emits _ hlegal hdomain.1 hdomain.2
  | fixed T integerBits fractionBits minUnits maxUnits =>
      exact serializeFixed_emits _ hlegal hdomain.1 hdomain.2
  | intRelative previous => exact serializeIntRelative_emits _ hlegal hdomain.1
  | f32 => exact serializeF32_emits _ hdomain
  | f64 => exact serializeF64_emits _ hdomain
  | bytes count => exact sink.bytes_emits value
  | string bufferSize => exact sink.string_emits hlegal hdomain
  | align => exact sink.align_emits
  | compressedFloat min max resolution => exact serializeCompressedFloat_emits _ hlegal hdomain htop
  | compressedFloatPrecomputed maxIntegerValue width delta min =>
      exact serializeCompressedFloatPrecomputed_emits _ hlegal hdomain htop

end Serialize
