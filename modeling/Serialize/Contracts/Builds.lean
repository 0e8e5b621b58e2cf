import Serialize.Contracts.Terminal
import Serialize.Contracts.WireFormat
import Serialize.Model.Agreement

/-!
# The checks change nothing

Whatever a checked build gets through, an unchecked build and the default release profile do in the
same way: the same result, the same stream, the same bytes. Where the fields of a packet fit, its
reader gets through everything, so it is one reader under every profile.
-/

namespace Serialize

open Machine
open Binary32 (Arithmetic)

/-- What one profile writes, measures or flushes without a panic, a profile with fewer checks writes,
measures or flushes alike. -/
theorem writes_agree [Arithmetic] {lax strict : Profile} (hlax : lax.Relaxes strict) :
    (∀ (program : Program) (memory : Memory) (stream : WriteStream) (log : List Carried),
      (program.run memory strict (stream, log)).Returned →
        program.run memory lax (stream, log) = program.run memory strict (stream, log)) ∧
    (∀ (program : Program) (memory : Memory) (stream : MeasureStream) (log : List Carried),
      (program.run memory strict (stream, log)).Returned →
        program.run memory lax (stream, log) = program.run memory strict (stream, log)) ∧
    ∀ stream : WriteStream, (WriteStream.flush strict stream).Returned →
      WriteStream.flush lax stream = WriteStream.flush strict stream :=
  ⟨fun program memory stream log => (program.run_agrees memory).agree hlax (stream, log),
    fun program memory stream log => (program.run_agrees memory).agree hlax (stream, log),
    ProfilesAgree.agree hlax⟩

/-- Five bits and two bytes over three words. -/
theorem writes_agree_three_bytes :
    fieldAndBytes.run fieldAndBytesMemory .wrapping
        (WriteStream.holding (List.replicate 24 0) [], [])
      = fieldAndBytes.run fieldAndBytesMemory .checked
        (WriteStream.holding (List.replicate 24 0) [], []) := by
  have hlax : Profile.wrapping.Relaxes .checked := trivial
  refine (writes_agree hlax).1 fieldAndBytes fieldAndBytesMemory _ [] ?_
  have hwritable : BitWriter.Writable (List.replicate 24 (0 : U8)) := ⟨by decide, by decide⟩
  have hroom : (wireBits (fieldAndBytes.carries fieldAndBytesMemory 0)).length
      ≤ 8 * (List.replicate 24 (0 : U8)).length := by decide
  rw [Program.run_fresh hwritable fieldAndBytes_conforming hroom]
  trivial

/-- **A reader is one reader under every profile**: where its fields fit, no client can tell them
apart. -/
theorem reads_agree [Arithmetic] {ω : Type} {buffer : List U8} {bytes : Nat}
    (hfits : FieldsFit buffer bytes) (client : Client ω) (profile : Profile) :
    client.run profile (ReadStream.fresh buffer bytes, Log.empty)
      = client.run .checked (ReadStream.fresh buffer bytes, Log.empty) := by
  apply client.run_agrees.agree (Profile.relaxes_checked profile)
  cases hrun : client.run .checked (ReadStream.fresh buffer bytes, Log.empty) with
  | ok answer p => trivial
  | err error p => trivial
  | trap p => exact (run_ne_trap hfits client .checked p hrun).elim

/-- A refusal and what follows it on a one byte packet. -/
theorem reads_agree_one_byte :
    (overrun 1).run .wrapping (ReadStream.fresh [0xFF] 1, Log.empty)
      = (overrun 1).run .checked (ReadStream.fresh [0xFF] 1, Log.empty) :=
  reads_agree (.inr (by decide)) (overrun 1) .wrapping

end Serialize
