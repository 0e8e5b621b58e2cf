import Serialize.Model.WriteStream

/-!
# The measure stream

Acts like a write stream, but counts the bits instead of writing them. Every align counts as the
worst case of seven bits.
-/

namespace Serialize

open Machine
open Utf8 (Text)

/-- Stream for estimating how many bits it would take to serialize something. -/
structure MeasureStream where
  bitsWritten : Nat
  deriving DecidableEq, Repr

namespace MeasureStream

def new : MeasureStream := { bitsWritten := 0 }

/-- `self.bits_written += bits` -/
def count (bits : Nat) : Action MeasureStream Unit := do
  let stream ← getState
  let bitsWritten ← checkedAdd 64 stream.bitsWritten bits
  setState { bitsWritten }

/-- Always the worst case 7 bits. -/
def worstAlign : Nat := 7

def measureAlign : Action MeasureStream Unit := count worstAlign

/-- `self.bits_written += bytes as u64 * 8` -/
def countBytes (bytes : Nat) : Action MeasureStream Unit := do
  let payload ← checkedMul 64 bytes 8
  count payload

def bytesProcessed (stream : MeasureStream) : Nat := (stream.bitsWritten + 7) / 8

instance : StreamCore MeasureStream where
  isWriting := true
  isReading := false
  fail error := refuse error
  gate := pure ()
  serializeBits bits := do
    let value ← load
    debugAssert (bits - 1 < 32)
    inChecked do
      noOverflow (bits.toNat < 64)
      require (value.toNat < 2 ^ bits.toNat)
    onState (count bits.toNat)

instance : Stream MeasureStream where
  serializeBytes := do
    let data ← load
    onState measureAlign
    onState (countBytes data.toList.length)
  serializeAlign := measureAlign
  serializeString bufferSize := do
    let value ← load
    let length ← stringLength value bufferSize
    let largest ← largestLength bufferSize
    let _ ← inLocal length (serializeInt 0 largest)
    onState measureAlign
    onState (countBytes value.bytes.length)
  serializeEnd := pure ()
  serializeObject object := object
  alignBits _ := worstAlign
  bitsProcessed stream := stream.bitsWritten

end MeasureStream

end Serialize
