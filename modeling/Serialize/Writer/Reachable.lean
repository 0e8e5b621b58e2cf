import Serialize.Writer.Encoders
import Serialize.Writer.Streams

/-!
# The states of a write stream

In a checked build a write stream holds some bits from its construction on, whatever it is handed: a
field it does not take is a panic that leaves it as it was. The states meant are those before the
flush, which the code asks for once, after the last write.
-/

namespace Serialize

open Machine BitString Encode
open Binary32 (Arithmetic)
open CoreSink
open Utf8 (Text)

namespace BitWriter

/-- A field a bit packer takes, room aside. -/
def Valid (width value : U32) : Prop :=
  (1 ≤ width.toNat ∧ width.toNat ≤ 32) ∧ value.toNat < 2 ^ width.toNat

variable {width value : U32}

/-- A checked build refuses a field before it touches anything. -/
theorem writeBits_trap (writer : BitWriter)
    (h : ¬Valid width value ∨ writer.numBits < writer.bitsWritten + width.toNat) :
    writeBits value width .checked writer = .trap writer := by
  rw [writeBits, bind_apply, getState_apply, Outcome.bind_ok, bind_apply]
  by_cases hwidth : 1 ≤ width.toNat ∧ width.toNat ≤ 32
  · rw [debugAssert_of ((wrapping_pred_lt_iff width).mpr hwidth), Outcome.bind_ok, bind_apply]
    by_cases hroom : writer.bitsWritten + width.toNat < 2 ^ 64
        ∧ writer.bitsWritten + width.toNat ≤ writer.numBits
    · have hvalue : ¬value.toNat < 2 ^ width.toNat := by
        intro hlt
        rcases h with hinvalid | hfull
        · exact hinvalid ⟨hwidth, hlt⟩
        · omega
      have hfits : (inChecked do
          let needed ← checkedAdd 64 writer.bitsWritten width.toNat
          require (needed ≤ writer.numBits) : Action BitWriter Unit) .checked writer
            = .ok () writer := by
        apply inChecked_of_ok
        rw [bind_apply, checkedAdd_of hroom.1, Outcome.bind_ok, require_of hroom.2]
      have hrange : (inChecked do
          noOverflow (width.toNat < 64)
          require (value.toNat < 2 ^ width.toNat) : Action BitWriter Unit) .checked writer
            = .trap writer := by
        rw [inChecked, bind_apply, noOverflow_of (by omega), Outcome.bind_ok, require_of_not hvalue]
      rw [hfits, Outcome.bind_ok, bind_apply, hrange, Outcome.bind_trap]
    · have hfull : (inChecked do
          let needed ← checkedAdd 64 writer.bitsWritten width.toNat
          require (needed ≤ writer.numBits) : Action BitWriter Unit) .checked writer
            = .trap writer := by
        rw [inChecked, bind_apply]
        by_cases hsum : writer.bitsWritten + width.toNat < 2 ^ 64
        · rw [checkedAdd_of hsum, Outcome.bind_ok, require_of_not fun hle => hroom ⟨hsum, hle⟩]
        · rw [checkedAdd_of_not hsum, Outcome.bind_trap]
      rw [hfull, Outcome.bind_trap]
  · rw [debugAssert_checked_of_not (mt (wrapping_pred_lt_iff width).mp hwidth), Outcome.bind_trap]

end BitWriter

namespace WriteStream

variable {buffer : List U8}

/-- The write stream holds bits that fit its buffer. -/
def Holds (buffer : List U8) (stream : WriteStream) : Prop :=
  ∃ bits : List Bool, bits.length ≤ buffer.length * 8 ∧ stream = holding buffer bits

theorem onWriter_trap {α : Type} {m : Action BitWriter α} {build : Build} {stream : WriteStream}
    (h : m build stream.writer = .trap stream.writer) : onWriter m build stream = .trap stream := by
  rw [onWriter, focus_apply, h]
  rfl

theorem put_trap {width value : U32} (stream : WriteStream) (h : ¬BitWriter.Valid width value
      ∨ stream.writer.numBits < stream.writer.bitsWritten + width.toNat) :
    put width value .checked stream = .trap stream :=
  onWriter_trap (BitWriter.writeBits_trap stream.writer h)

theorem put_ok (hbuffer : BitWriter.Writable buffer) {width value : U32} {bits : List Bool}
    (build : Build) (hvalid : BitWriter.Valid width value)
    (hroom : bits.length + width.toNat ≤ buffer.length * 8) :
    put width value build (holding buffer bits)
      = .ok () (holding buffer (bits ++ toBits width.toNat value.toNat)) :=
  onWriter_holding (BitWriter.writeBits_holding hbuffer build hvalid.1 hvalid.2 hroom)

theorem put_holds (hbuffer : BitWriter.Writable buffer) (width value : U32) (stream : WriteStream)
    (h : Holds buffer stream) : Holds buffer (put width value .checked stream).state := by
  obtain ⟨bits, hbits, rfl⟩ := h
  by_cases hvalid : BitWriter.Valid width value
  · by_cases hroom : bits.length + width.toNat ≤ buffer.length * 8
    · rw [put_ok hbuffer .checked hvalid hroom]
      refine ⟨_, ?_, rfl⟩
      rw [List.length_append, length_toBits]
      exact hroom
    · rw [put_trap (holding buffer bits) (.inr (Nat.not_le.mp hroom))]
      exact ⟨bits, hbits, rfl⟩
  · rw [put_trap (holding buffer bits) (.inl hvalid)]
    exact ⟨bits, hbits, rfl⟩

theorem put_grows (hbuffer : BitWriter.Writable buffer) (width value : U32) {stream : WriteStream}
    (h : Holds buffer stream) :
    bitsProcessed stream ≤ bitsProcessed (put width value .checked stream).state := by
  obtain ⟨bits, hbits, rfl⟩ := h
  by_cases hfits : BitWriter.Valid width value ∧ bits.length + width.toNat ≤ buffer.length * 8
  · rw [put_ok hbuffer .checked hfits.1 hfits.2]
    show bits.length ≤ (bits ++ toBits width.toNat value.toNat).length
    rw [List.length_append]
    exact Nat.le_add_right ..
  · rw [put_trap (holding buffer bits) ((not_and_or.mp hfits).imp id Nat.not_le.mp)]
    exact le_refl _

/-! ### Room -/

/-- The bits a byte or string operation asks room for: a field, the align after it and the payload. -/
def roomNeeded (fieldBits : U32) (payload position : Nat) : Nat :=
  fieldBits.toNat + byteBoundary (position + fieldBits.toNat) + payload * 8

/-- How many bits are still available to write. -/
def available (stream : WriteStream) : Nat := stream.writer.numBits - stream.writer.bitsWritten

variable {bits : List Bool}

/-- Too little room is a panic that leaves the stream as it was. -/
theorem debugAssertRoom_trap (fieldBits : U32) (payload : Nat) (hbits : bits.length ≤ buffer.length * 8)
    (hshort : buffer.length * 8 < bits.length + roomNeeded fieldBits payload bits.length) :
    debugAssertRoom fieldBits payload .checked (holding buffer bits)
      = .trap (holding buffer bits) := by
  have hfield := fieldBits.isLt
  have hwritten : (holding buffer bits).writer.bitsWritten = bits.length := rfl
  have hlimit : (holding buffer bits).writer.numBits = buffer.length * 8 := rfl
  rw [roomNeeded, byteBoundary] at hshort
  rw [debugAssertRoom, inChecked]
  apply onWriter_trap
  rw [bind_apply, getState_apply, Outcome.bind_ok, hwritten, bind_apply]
  by_cases hafter : bits.length + fieldBits.toNat < 2 ^ 64
  · rw [checkedAdd_of hafter, Outcome.bind_ok, bind_apply, checkedAdd_of (by omega),
      Outcome.bind_ok, bind_apply]
    by_cases hpayload : payload * 8 < 2 ^ 64
    · rw [checkedMul_of hpayload, Outcome.bind_ok, bind_apply]
      by_cases hsum : fieldBits.toNat + (8 - (bits.length + fieldBits.toNat) % 8) % 8 + payload * 8
          < 2 ^ 64
      · rw [checkedAdd_of hsum, Outcome.bind_ok, bind_apply, BitWriter.bitsAvailable, bind_apply,
          getState_apply, Outcome.bind_ok, hwritten, hlimit, checkedSub_of hbits, Outcome.bind_ok,
          require_of_not (by omega)]
      · rw [checkedAdd_of_not hsum, Outcome.bind_trap]
    · rw [checkedMul_of_not hpayload, Outcome.bind_trap]
  · rw [checkedAdd_of_not hafter, Outcome.bind_trap]

/-! ### Bytes and strings -/

theorem roomNeeded_bytes (bytes : List U8) (position : Nat) :
    roomNeeded 0 bytes.length position = (bytesCode byteBoundary position bytes).length := by
  have hzero : (0 : U32).toNat = 0 := rfl
  rw [length_bytesCode, roomNeeded, hzero, Nat.zero_add, Nat.add_zero, Nat.mul_comm]

theorem roomNeeded_string {bufferSize : Nat} (hlegal : 1 ≤ bufferSize ∧ bufferSize ≤ i32Max)
    (bytes : List U8) (position : Nat) :
    roomNeeded (bitsRequired 0 (saturatingPred bufferSize)) bytes.length position
      = (stringCode byteBoundary bufferSize position bytes).length := by
  have hfield : (bitsRequired 0 (saturatingPred bufferSize)).toNat = Nat.size (bufferSize - 1) := by
    rw [toNat_bitsRequired, Decoders.sub_zero_toNat, toNat_saturatingPred hlegal]
  rw [length_stringCode, roomNeeded, hfield]
  omega

theorem serializeBytes_trap {n : Nat} (value : List.Vector U8 n)
    (hbits : bits.length ≤ buffer.length * 8)
    (hshort : buffer.length * 8
      < bits.length + (bytesCode byteBoundary bits.length value.toList).length) :
    serializeBytes .checked (holding buffer bits, value) = .trap (holding buffer bits, value) := by
  rw [← roomNeeded_bytes] at hshort
  unfold serializeBytes instStream
  dsimp only
  rw [bind_apply, load_apply, Outcome.bind_ok, bind_apply, onState_apply]
  show ((debugAssertRoom 0 value.toList.length .checked (holding buffer bits)).mapState _).bind _ = _
  rw [debugAssertRoom_trap _ _ hbits hshort, Outcome.mapState_trap, Outcome.bind_trap]

theorem serializeBytes_ok (hbuffer : BitWriter.Writable buffer) {n : Nat} (value : List.Vector U8 n)
    (build : Build) (hroom : bits.length + (bytesCode byteBoundary bits.length value.toList).length
      ≤ buffer.length * 8) : serializeBytes build (holding buffer bits, value)
        = .ok () (holding buffer (bits ++ bytesCode byteBoundary bits.length value.toList), value) :=
  (bytes_emits hbuffer value build bits (Nat.le_of_add_right_le hroom)).1 hroom

theorem writeBytes_trap (bytes : List U8) (hbits : bits.length ≤ buffer.length * 8)
    (hshort : buffer.length * 8 < bits.length + (bytesCode byteBoundary bits.length bytes).length) :
    writeBytes bytes .checked (holding buffer bits) = .trap (holding buffer bits) := by
  rw [← roomNeeded_bytes] at hshort
  rw [writeBytes, bind_apply, debugAssertRoom_trap _ _ hbits hshort, Outcome.bind_trap]

theorem writeBytes_ok (hbuffer : BitWriter.Writable buffer) (build : Build) (bytes : List U8)
    (hroom : bits.length + (bytesCode byteBoundary bits.length bytes).length ≤ buffer.length * 8) :
    writeBytes bytes build (holding buffer bits)
      = .ok () (holding buffer (bits ++ bytesCode byteBoundary bits.length bytes)) := by
  have hneeded := roomNeeded_bytes bytes bits.length
  have hzero : (0 : U32).toNat = 0 := rfl
  have hasserted := @debugAssertRoom_holding buffer bits hbuffer build 0 bytes.length (by
    rw [roomNeeded] at hneeded
    omega)
  have hbits : bits.length ≤ buffer.length * 8 := by omega
  have hemits := (payload_emits hbuffer () bytes build bits hbits).1 hroom
  rw [← onState_seq] at hemits
  rw [writeBytes, bind_apply, hasserted, Outcome.bind_ok]
  exact of_onState_eq_ok hemits

/-- A text that is not one the string contract admits is a panic before anything else. -/
theorem stringLength_trap {σ : Type} {value : Text} {bufferSize : Nat} (state : σ)
    (h : ¬((1 ≤ bufferSize ∧ bufferSize ≤ i32Max)
      ∧ value.bytes.length < bufferSize ∧ 0 ∉ value.bytes)) :
    stringLength value bufferSize .checked state = .trap state := by
  rw [stringLength, bind_apply]
  by_cases hlegal : 1 ≤ bufferSize ∧ bufferSize ≤ i32Max
  · rw [debugAssert_of hlegal, Outcome.bind_ok, bind_apply]
    by_cases hshort : value.bytes.length < bufferSize
    · rw [debugAssert_of hshort, Outcome.bind_ok, bind_apply,
        debugAssert_checked_of_not fun hnone => h ⟨hlegal, hshort, hnone⟩, Outcome.bind_trap]
    · rw [debugAssert_checked_of_not hshort, Outcome.bind_trap]
  · rw [debugAssert_checked_of_not hlegal, Outcome.bind_trap]

theorem serializeString_ok (hbuffer : BitWriter.Writable buffer) {value : Text} {bufferSize : Nat}
    (hlegal : 1 ≤ bufferSize ∧ bufferSize ≤ i32Max)
    (hdomain : value.bytes.length < bufferSize ∧ 0 ∉ value.bytes) (build : Build)
    (hroom : bits.length + (stringCode byteBoundary bufferSize bits.length value.bytes).length
      ≤ buffer.length * 8) : serializeString bufferSize build (holding buffer bits, value) = .ok ()
        (holding buffer (bits ++ stringCode byteBoundary bufferSize bits.length value.bytes), value) :=
  (string_emits hbuffer hlegal hdomain build bits (Nat.le_of_add_right_le hroom)).1 hroom

theorem serializeString_trap {value : Text} {bufferSize : Nat}
    (hbits : bits.length ≤ buffer.length * 8)
    (h : ((1 ≤ bufferSize ∧ bufferSize ≤ i32Max)
        ∧ value.bytes.length < bufferSize ∧ 0 ∉ value.bytes) →
      buffer.length * 8
        < bits.length + (stringCode byteBoundary bufferSize bits.length value.bytes).length) :
    serializeString bufferSize .checked (holding buffer bits, value)
      = .trap (holding buffer bits, value) := by
  unfold serializeString instStream
  dsimp only
  rw [bind_apply, load_apply, Outcome.bind_ok, bind_apply]
  by_cases hcontract : (1 ≤ bufferSize ∧ bufferSize ≤ i32Max)
      ∧ value.bytes.length < bufferSize ∧ 0 ∉ value.bytes
  · have hshort := h hcontract
    rw [← roomNeeded_string hcontract.1] at hshort
    rw [stringLength_silent hcontract.1 hcontract.2.1 hcontract.2.2, Outcome.bind_ok, bind_apply,
      onState_apply]
    show ((debugAssertRoom _ value.bytes.length .checked (holding buffer bits)).mapState _).bind _
      = _
    rw [debugAssertRoom_trap _ _ hbits hshort, Outcome.mapState_trap, Outcome.bind_trap]
  · rw [stringLength_trap _ hcontract, Outcome.bind_trap]

/-- A buffer ends at a byte, so an align never lacks room. -/
theorem alignCode_room (h : bits.length ≤ buffer.length * 8) :
    bits.length + (alignCode byteBoundary bits.length).length ≤ buffer.length * 8 := by
  rw [length_alignCode, byteBoundary]
  omega

theorem serializeAlign_ok (hbuffer : BitWriter.Writable buffer) (build : Build)
    (hbits : bits.length ≤ buffer.length * 8) :
    onState serializeAlign build (holding buffer bits, ())
      = .ok () (holding buffer (bits ++ alignCode byteBoundary bits.length), ()) :=
  (align_emits hbuffer () build bits hbits).1 (alignCode_room hbits)

/-! ### Reachable states -/

theorem available_holding (hbits : bits.length ≤ buffer.length * 8) :
    bits.length + available (holding buffer bits) = buffer.length * 8 := by
  show bits.length + (buffer.length * 8 - bits.length) = _
  omega

theorem new_checked {stream : WriteStream}
    (h : WriteStream.new buffer .checked () = .ok stream ()) :
    BitWriter.Writable buffer ∧ stream = holding buffer [] := by
  have hwhole : buffer.length % 8 = 0 := by
    by_contra hpartial
    rw [WriteStream.new, bind_apply, BitWriter.new, bind_apply,
      debugAssert_checked_of_not hpartial] at h
    cases h
  exact new_eq_ok hwhole h

theorem holds_append {code : List Bool} (h : bits.length + code.length ≤ buffer.length * 8) :
    Holds buffer (holding buffer (bits ++ code)) := by
  refine ⟨bits ++ code, ?_, rfl⟩
  rw [List.length_append]
  exact h

variable [Arithmetic]

/-- Whatever operation is called with whatever value, the stream goes on holding bits. -/
theorem run_holds (hbuffer : BitWriter.Writable buffer) (operation : Operation)
    (value : operation.Value) {stream : WriteStream} (h : Holds buffer stream) :
    Holds buffer (operation.run .checked (stream, value)).state.1 := by
  by_cases haligns : operation.Aligns
  · obtain ⟨bits, hbits, rfl⟩ := h
    have hkept : Holds buffer (holding buffer bits) := ⟨bits, hbits, rfl⟩
    cases operation with
    | bytes count =>
        show Holds buffer (serializeBytes .checked (holding buffer bits, value)).state.1
        by_cases hroom : bits.length + (bytesCode byteBoundary bits.length value.toList).length
            ≤ buffer.length * 8
        · rw [serializeBytes_ok hbuffer value .checked hroom]
          exact holds_append hroom
        · rw [serializeBytes_trap value hbits (Nat.not_le.mp hroom)]
          exact hkept
    | string bufferSize =>
        show Holds buffer (serializeString bufferSize .checked (holding buffer bits, value)).state.1
        by_cases hcontract : ((1 ≤ bufferSize ∧ bufferSize ≤ i32Max)
            ∧ value.bytes.length < bufferSize ∧ 0 ∉ value.bytes)
            ∧ bits.length + (stringCode byteBoundary bufferSize bits.length value.bytes).length
              ≤ buffer.length * 8
        · obtain ⟨⟨hlegal, hdomain⟩, hroom⟩ := hcontract
          rw [serializeString_ok hbuffer hlegal hdomain .checked hroom]
          exact holds_append hroom
        · rw [serializeString_trap hbits fun hlegal =>
            Nat.not_le.mp fun hroom => hcontract ⟨hlegal, hroom⟩]
          exact hkept
    | align =>
        show Holds buffer (onState serializeAlign .checked (holding buffer bits, ())).state.1
        rw [serializeAlign_ok hbuffer .checked hbits]
        exact holds_append (alignCode_room hbits)
    | _ => exact haligns.elim
  · rw [Operation.run_eq_encoder scribe haligns value, Outcome.state_mapState]
    exact Encoder.run_preserves (put_holds hbuffer) (operation.encoder value) h

/-- The states of a write stream in a checked build, before its flush: built over a buffer, and left
by a call of any operation with any value, whether it came back or panicked. -/
inductive Reachable (buffer : List U8) : WriteStream → Prop where
  | new {stream : WriteStream} : WriteStream.new buffer .checked () = .ok stream () →
      Reachable buffer stream
  | call {stream : WriteStream} (operation : Operation) (value : operation.Value) :
      Reachable buffer stream →
      Reachable buffer (operation.run .checked (stream, value)).state.1
  | writeBytes {stream : WriteStream} (bytes : List U8) :
      Reachable buffer stream → Reachable buffer (writeBytes bytes .checked stream).state

/-- **Every reachable write stream holds bits that fit its buffer.** -/
theorem Reachable.holds {stream : WriteStream} (h : Reachable buffer stream) :
    BitWriter.Writable buffer ∧ Holds buffer stream := by
  induction h with
  | new hnew =>
      obtain ⟨hbuffer, rfl⟩ := new_checked hnew
      exact ⟨hbuffer, [], Nat.zero_le _, rfl⟩
  | call operation value _ ih => exact ⟨ih.1, run_holds ih.1 operation value ih.2⟩
  | writeBytes bytes _ ih =>
      obtain ⟨hbuffer, bits, hbits, rfl⟩ := ih
      refine ⟨hbuffer, ?_⟩
      by_cases hroom : bits.length + (bytesCode byteBoundary bits.length bytes).length
          ≤ buffer.length * 8
      · rw [writeBytes_ok hbuffer .checked bytes hroom]
        exact holds_append hroom
      · rw [writeBytes_trap bytes hbits (Nat.not_le.mp hroom)]
        exact ⟨bits, hbits, rfl⟩

end WriteStream

end Serialize
