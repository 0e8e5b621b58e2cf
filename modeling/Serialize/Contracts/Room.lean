import Serialize.Float.Binary32
import Serialize.Writer.Reachable

/-!
# The room check of byte and string writes

A byte or string write asks for the room of its whole operation before the first bit of it. What it
asks for is computed apart from the code that then writes; this file shows the two to agree, at every
offset and with any room left.
-/

namespace Serialize

open Machine BitString
open Binary32 (Arithmetic)
open Utf8 (Text)

namespace WriteStream

/-- The write of `value` appends `code` where there is room for all of it, and touches nothing where
there is not, and the room check in front of it says which. -/
structure RoomChecked {δ : Type} (write : Action (WriteStream × δ) Unit) (value : δ)
    (fieldBits : U32) (payload : Nat) (code : List Bool) (stream : WriteStream) : Prop where
  /-- The check computes what the operation appends. -/
  computes : roomNeeded fieldBits payload (bitsProcessed stream) = code.length
  check : debugAssertRoom fieldBits payload .checked stream
    = if code.length ≤ available stream then .ok () stream else .trap stream
  traps : available stream < code.length →
    write .checked (stream, value) = .trap (stream, value)
  completes : code.length ≤ available stream →
    ∃ stream', write .checked (stream, value) = .ok () (stream', value)
      ∧ bitsProcessed stream' = bitsProcessed stream + code.length

variable {buffer : List U8} {bits : List Bool}

/-- What a write does where it has room and where it has none decides the room check. -/
theorem roomChecked_holding (hbuffer : BitWriter.Writable buffer) {δ : Type}
    {write : Action (WriteStream × δ) Unit} {value : δ} {fieldBits : U32} {payload : Nat}
    {code : List Bool} (hbits : bits.length ≤ buffer.length * 8)
    (hneeded : roomNeeded fieldBits payload bits.length = code.length)
    (htrap : buffer.length * 8 < bits.length + code.length →
      write .checked (holding buffer bits, value) = .trap (holding buffer bits, value))
    (hok : bits.length + code.length ≤ buffer.length * 8 →
      write .checked (holding buffer bits, value) = .ok () (holding buffer (bits ++ code), value)) :
    RoomChecked write value fieldBits payload code (holding buffer bits) := by
  have havailable := available_holding hbits
  refine ⟨hneeded, ?_, fun hshort => htrap (by omega), fun hroom => ?_⟩
  · by_cases hroom : code.length ≤ available (holding buffer bits)
    · rw [if_pos hroom]
      apply debugAssertRoom_holding hbuffer
      rw [roomNeeded] at hneeded
      omega
    · rw [if_neg hroom]
      exact debugAssertRoom_trap fieldBits payload hbits (by omega)
  · refine ⟨_, hok (by omega), ?_⟩
    exact List.length_append

/-- **The room check is exact.** From every reachable write stream, bytes and admissible strings of
any length panic for room exactly when the bits they append, which the check computes, exceed the
bits available; then nothing is written, and otherwise the whole operation is. -/
theorem room_check_exact [Arithmetic] {stream : WriteStream} (h : Reachable buffer stream) :
    (∀ {n : Nat} (value : List.Vector U8 n), RoomChecked serializeBytes value 0 n
      (bytesCode byteBoundary (bitsProcessed stream) value.toList) stream)
    ∧ (∀ bytes : List U8, RoomChecked (onState (writeBytes bytes)) () 0 bytes.length
      (bytesCode byteBoundary (bitsProcessed stream) bytes) stream)
    ∧ ∀ (bufferSize : Nat) (value : Text), 1 ≤ bufferSize ∧ bufferSize ≤ i32Max →
      value.bytes.length < bufferSize ∧ 0 ∉ value.bytes →
      RoomChecked (serializeString bufferSize) value (bitsRequired 0 (saturatingPred bufferSize))
        value.bytes.length (stringCode byteBoundary bufferSize (bitsProcessed stream) value.bytes)
        stream := by
  obtain ⟨hbuffer, bits, hbits, rfl⟩ := h.holds
  refine ⟨fun {n} value => ?_, fun bytes => ?_, fun bufferSize value hlegal hdomain => ?_⟩
  · have hneeded := roomNeeded_bytes value.toList bits.length
    rw [List.Vector.toList_length] at hneeded
    apply roomChecked_holding hbuffer hbits hneeded
    · exact serializeBytes_trap value hbits
    · exact serializeBytes_ok hbuffer value .checked
  · apply roomChecked_holding hbuffer hbits (roomNeeded_bytes bytes bits.length)
    · intro hshort
      rw [onState_apply, writeBytes_trap bytes hbits hshort, Outcome.mapState_trap]
    · intro hroom
      rw [onState_apply, writeBytes_ok hbuffer .checked bytes hroom, Outcome.mapState_ok]
  · apply roomChecked_holding hbuffer hbits (roomNeeded_string hlegal value.bytes bits.length)
    · exact fun hshort => serializeString_trap hbits fun _ => hshort
    · exact serializeString_ok hbuffer hlegal hdomain .checked

/-- Over a fresh word three bytes are written, nine are not, and a text of one byte is. -/
theorem room_check_exact_word :
    RoomChecked serializeBytes (List.Vector.replicate 3 (0xA5 : U8)) 0 3
        (bytesCode byteBoundary 0 (List.replicate 3 0xA5)) (holding (List.replicate 8 0) [])
      ∧ RoomChecked (onState (writeBytes (List.replicate 9 0xA5))) () 0 9
        (bytesCode byteBoundary 0 (List.replicate 9 0xA5)) (holding (List.replicate 8 0) [])
      ∧ RoomChecked (serializeString 2) ⟨[0x41], rfl⟩ (bitsRequired 0 (saturatingPred 2)) 1
        (stringCode byteBoundary 2 0 [0x41]) (holding (List.replicate 8 0) []) :=
  have hnew : WriteStream.new (List.replicate 8 0) .checked ()
      = .ok (holding (List.replicate 8 0) []) () := rfl
  have hreachable : Reachable (List.replicate 8 0) (holding (List.replicate 8 0) []) := .new hnew
  have hexact := room_check_exact hreachable
  ⟨hexact.1 _, hexact.2.1 _, hexact.2.2 2 ⟨[0x41], rfl⟩ (by decide) (by decide)⟩

end WriteStream

end Serialize
