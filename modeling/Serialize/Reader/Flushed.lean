import Serialize.Reader.Reachable
import Serialize.Writer.Streams

/-!
# Readers over a flushed packet

A reader over the bytes a flush leaves has the bits that were written ahead of it, from where it
stands on, and then the padding of the last byte.
-/

namespace Serialize

open Machine BitString Decode
open Binary32 (Arithmetic)

namespace ReadStream

/-- A live reader at a bit position of a flushed packet, whatever lies behind the packet. -/
structure Follows [Arithmetic] (flushed : WriteStream) (position : Nat) (reader : ReadStream) : Prop where
  reachable : reader.Reachable
  live : reader.failure = none
  data : ∃ slack, reader.reader.data = flushed.data ++ slack
  numBits : reader.reader.numBits = 8 * flushed.bytesProcessed
  position_eq : bitsProcessed reader = position

section Flushed

variable {reader : ReadStream} {buffer : List U8} {bits code : List Bool}

theorem remaining_of_flushed {slack : List U8}
    (hdata : reader.reader.data = (WriteStream.flushed buffer bits).data ++ slack)
    (hnumBits : reader.reader.numBits = 8 * (WriteStream.flushed buffer bits).bytesProcessed) :
    reader.cursor.remaining = (bits ++ List.replicate ((8 - bits.length % 8) % 8) false).drop
      reader.cursor.position := by
  have hlength : (bitsOfOctets (BitWriter.packed bits)).length = reader.reader.numBits := by
    rw [length_bitsOfOctets, hnumBits]
    exact congrArg (8 * ·) (length_octetsOfBits _ _)
  have hpacket : reader.packet = bitsOfOctets (BitWriter.packed bits) := by
    rw [ReadStream.packet, hdata, WriteStream.data_flushed, bitsOfOctets_append,
      List.take_left' hlength]
  rw [BitWriter.bitsOfOctets_packed] at hpacket
  exact congrArg (List.drop _) hpacket

/-- What was written last is ahead of a reader that stands where its writing began. -/
theorem Follows.ahead [Arithmetic]
    (h : reader.Follows (WriteStream.flushed buffer (bits ++ code)) bits.length) :
    code <+: reader.cursor.remaining := by
  obtain ⟨slack, hdata⟩ := h.data
  have hstart : reader.cursor.position = bits.length := h.position_eq
  rw [remaining_of_flushed hdata h.numBits, hstart, List.append_assoc, List.drop_left]
  exact List.prefix_append ..

end Flushed

end ReadStream

end Serialize
