import Serialize.Float.Binary32
import Serialize.Model.Agreement
import Serialize.Writer.Programs

/-!
# The wire format

What a program leaves in the buffer of a write stream, once it is flushed, is the reference encoding
of what it carries, packed low bit first and padded with zeros to a byte.
-/

namespace Serialize

open Machine BitString
open Binary32 (Arithmetic)

section Write

variable [Arithmetic] {program : Program} {memory : Memory} {buffer : List U8} {build : Build}
  {profile : Profile}

/-- The bit string of a packet that carries these values. -/
def wireBits (carried : List Carried) : List Bool := encodeAll byteBoundary 0 carried

/-- The bytes of a packet that carries these values. -/
def wirePacket (carried : List Carried) : List U8 := BitWriter.packed (wireBits carried)

theorem bitsOfOctets_wirePacket (carried : List Carried) : bitsOfOctets (wirePacket carried)
    = wireBits carried ++ List.replicate (byteBoundary (wireBits carried).length) false :=
  BitWriter.bitsOfOctets_packed _

theorem length_wirePacket (carried : List Carried) :
    (wirePacket carried).length = ((wireBits carried).length + 7) / 8 :=
  length_octetsOfBits _ _

theorem Program.run_fresh (hbuffer : BitWriter.Writable buffer)
    (hconforming : Conforming (program.carries memory 0))
    (hroom : (wireBits (program.carries memory 0)).length ≤ 8 * buffer.length) :
    program.run memory profile (WriteStream.holding buffer [], [])
      = .ok () (WriteStream.holding buffer (wireBits (program.carries memory 0)),
          program.carries memory 0) := by
  have happends := @Program.run_appends WriteStream _ _ [] [] (WriteStream.sink hbuffer) program
    memory .checked (Nat.zero_le _) hconforming
  refine (program.run_agrees memory).of_checked (happends.1 ?_) profile
  show 0 + (wireBits (program.carries memory 0)).length ≤ buffer.length * 8
  omega

/-- **The writer emits exactly the format's bit string.** -/
theorem writes_reference_encoding {stream : WriteStream} (hwhole : buffer.length % 8 = 0)
    (hnew : WriteStream.new buffer build () = .ok stream ())
    (hconforming : Conforming (program.carries memory 0))
    (hroom : (wireBits (program.carries memory 0)).length ≤ 8 * buffer.length)
    (profile : Profile) :
    ∃ written flushed,
      program.run memory profile (stream, []) = .ok () (written, program.carries memory 0)
        ∧ WriteStream.flush profile written = .ok () flushed
        ∧ bitsProcessed flushed = (wireBits (program.carries memory 0)).length
        ∧ flushed.data.length = flushed.bytesProcessed
        ∧ bitsOfOctets flushed.data = wireBits (program.carries memory 0)
            ++ List.replicate (byteBoundary (wireBits (program.carries memory 0)).length) false := by
  obtain ⟨hbuffer, rfl⟩ := WriteStream.new_eq_ok hwhole hnew
  have hfits : (wireBits (program.carries memory 0)).length ≤ buffer.length * 8 := by omega
  refine ⟨_, _, Program.run_fresh hbuffer hconforming hroom,
    WriteStream.flush_holding hbuffer profile hfits, rfl, ?_, ?_⟩
  · rw [WriteStream.data_flushed]
    exact length_wirePacket _
  · rw [WriteStream.data_flushed]
    exact bitsOfOctets_wirePacket _

end Write

/-- A field of five bits, then a nested object of two bytes. -/
def fieldAndBytes : Program :=
  .step (.bits 5) fun _ => .object (.step (.bytes 2) fun _ => .done) fun _ => .done

/-- The variables `fieldAndBytes` carries. -/
def fieldAndBytesMemory : Memory
  | _, .bits _ => 0x15
  | _, .bytes count => List.Vector.replicate count 0xA5
  | _, operation => operation.blank

theorem fieldAndBytes_conforming : Conforming (fieldAndBytes.carries fieldAndBytesMemory 0) := by
  have hwidth : 1 ≤ (5 : U32).toNat ∧ (5 : U32).toNat ≤ 32 := by decide
  have hvalue : (0x15 : U32).toNat < 2 ^ (5 : U32).toNat := by decide
  intro entry hentry
  rcases List.mem_cons.mp hentry with rfl | hentry
  · exact ⟨hwidth, hvalue, trivial⟩
  · rw [List.mem_singleton.mp hentry]
    exact ⟨trivial, trivial, trivial⟩

/-- `fieldAndBytes` fills three bytes: five bits, three of padding, and the bytes. -/
theorem writes_reference_encoding_three_bytes : ∃ written flushed,
    fieldAndBytes.run fieldAndBytesMemory .checked
        (WriteStream.holding (List.replicate 8 0) [], [])
      = .ok () (written, fieldAndBytes.carries fieldAndBytesMemory 0)
      ∧ WriteStream.flush .checked written = .ok () flushed
      ∧ bitsProcessed flushed = 24
      ∧ flushed.data.length = flushed.bytesProcessed
      ∧ bitsOfOctets flushed.data = wireBits (fieldAndBytes.carries fieldAndBytesMemory 0)
          ++ List.replicate 0 false :=
  have hwhole : (List.replicate 8 (0 : U8)).length % 8 = 0 := by decide
  have hnew : WriteStream.new (List.replicate 8 0) .checked ()
      = .ok (WriteStream.holding (List.replicate 8 0) []) () := rfl
  have hroom : (wireBits (fieldAndBytes.carries fieldAndBytesMemory 0)).length
      ≤ 8 * (List.replicate 8 (0 : U8)).length := by decide
  writes_reference_encoding hwhole hnew fieldAndBytes_conforming hroom .checked

end Serialize
