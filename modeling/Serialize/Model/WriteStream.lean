import Serialize.Model.Composite

/-!
# The write stream

The trusted side: nothing a built-in operation does here returns an error, and misuse traps.
-/

namespace Serialize

open Machine
open Utf8 (Text)

/-- Stream for writing bitpacked data. -/
structure WriteStream where
  writer : BitWriter
  deriving DecidableEq, Repr

/-- The contract of a string on write and measure, and its length as the code passes it on. -/
def stringLength {σ : Type} (value : Text) (bufferSize : Nat) : Action σ I32 := do
  debugAssert (1 ≤ bufferSize ∧ bufferSize ≤ i32Max)
  debugAssert (value.bytes.length < bufferSize)
  debugAssert (0 ∉ value.bytes)
  pure (BitVec.ofNat 32 value.bytes.length)

/-- `buffer_size as i32 - 1`. -/
def largestLength {σ : Type} (bufferSize : Nat) : Action σ I32 := do
  noOverflow (BitVec.ofNat 32 bufferSize ≠ BitVec.intMin 32)
  pure (BitVec.ofNat 32 bufferSize - 1)

/-- `(buffer_size as u32).saturating_sub(1)`. -/
def saturatingPred (bufferSize : Nat) : U32 :=
  if BitVec.ofNat 32 bufferSize = 0 then 0 else BitVec.ofNat 32 bufferSize - 1

namespace WriteStream

def new (buffer : List U8) : Action Unit WriteStream := do
  let writer ← BitWriter.new buffer
  pure { writer }

def onWriter {α : Type} (m : Action BitWriter α) : Action WriteStream α :=
  focus writer (fun _ writer => { writer }) m

def flush : Action WriteStream Unit := onWriter BitWriter.flushBits

/-- The data written by the stream, once it is flushed. -/
def data (stream : WriteStream) : List U8 := stream.writer.written

def bytesProcessed (stream : WriteStream) : Nat := stream.writer.bytesWritten

/-- A write checks room for the whole operation before writing any of it: a field, the align after
it, and the payload. -/
def debugAssertRoom (fieldBits : U32) (payload : Nat) : Action WriteStream Unit :=
  inChecked (onWriter do
    let writer ← getState
    let afterField ← checkedAdd 64 writer.bitsWritten fieldBits.toNat
    let align := (8 - afterField % 8) % 8
    let header ← checkedAdd 64 fieldBits.toNat align
    let payloadBits ← checkedMul 64 payload 8
    let needed ← checkedAdd 64 header payloadBits
    let available ← BitWriter.bitsAvailable
    require (needed ≤ available))

instance : StreamCore WriteStream where
  isWriting := true
  isReading := false
  fail error := refuse error
  gate := pure ()
  serializeBits bits := do
    let value ← load
    onState (onWriter (BitWriter.writeBits value bits))

/-- The by-value twin of `serialize_bytes`. -/
def writeBytes (data : List U8) : Action WriteStream Unit := do
  debugAssertRoom 0 data.length
  onWriter BitWriter.writeAlign
  onWriter (BitWriter.writeBytes data)

instance : Stream WriteStream where
  serializeBytes := do
    let data ← load
    onState (debugAssertRoom 0 data.toList.length)
    onState (onWriter BitWriter.writeAlign)
    onState (onWriter (BitWriter.writeBytes data.toList))
  serializeAlign := onWriter BitWriter.writeAlign
  serializeString bufferSize := do
    let value ← load
    let length ← stringLength value bufferSize
    onState (debugAssertRoom (bitsRequired 0 (saturatingPred bufferSize)) value.bytes.length)
    let largest ← largestLength bufferSize
    let _ ← inLocal length (serializeInt 0 largest)
    onState (onWriter BitWriter.writeAlign)
    onState (onWriter (BitWriter.writeBytes value.bytes))
  serializeEnd := pure ()
  serializeObject object := object
  alignBits stream := stream.writer.alignBits
  bitsProcessed stream := stream.writer.bitsWritten

end WriteStream

end Serialize
