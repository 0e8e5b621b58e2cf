import Serialize.Model.WriteStream

/-!
# The read stream

The trust boundary: every operation bounds checks before reading and range checks after, and the
first refusal latches. This is the reader as it is built outside the negative controls, where no
refusal rule is deleted.
-/

namespace Serialize

open Machine
open Utf8 (Text fromUtf8)

/-- Stream for reading bitpacked data. -/
structure ReadStream where
  reader : BitReader
  /-- The terminal-failure latch. -/
  failed : Option Error
  deriving DecidableEq, Repr

namespace ReadStream

/-- A read stream over `bytes` bytes of packet data in `buffer`, born refused when the buffer is
shorter than that. -/
def new (buffer : List U8) (bytes : Nat) : Action Unit ReadStream := do
  let fits : Bool := decide (bytes ≤ buffer.length)
  let reader ← BitReader.new buffer (if fits then bytes else 0)
  pure { reader, failed := if fits then none else some .valueOutOfRange }

def onReader {α : Type} (m : Action BitReader α) : Action ReadStream α :=
  focus reader (fun stream reader => { stream with reader }) m

/-- Why this stream refused: the first refusal's reason. -/
def failure (stream : ReadStream) : Option Error := stream.failed

/-- Latch the failure and report it. The first failure wins. -/
def latch {α : Type} (error : Error) : Action ReadStream α := do
  let stream ← getState
  let first := stream.failed.getD error
  setState { stream with failed := some first }
  refuse first

/-- The gate every public read passes: the stream has latched, or this read would pass the end. -/
def refuses (bits : U32) : Action ReadStream Bool := do
  let stream ← getState
  let past ← onReader (BitReader.wouldReadPastEnd bits)
  pure (stream.failed.isSome || past)

/-- The error a refused read reports. -/
def refusal (stream : ReadStream) : Error := stream.failed.getD .pastEnd

/-- The cold refusal of `serialize_bits`. -/
def refuseBits (bits : U32) : Action ReadStream Unit := do
  let stream ← getState
  latch (if stream.failed.isNone && decide (32 ≤ bits - 1) then .valueOutOfRange
    else stream.refusal)

def refuseIfLatched : Action ReadStream Unit := do
  let stream ← getState
  match stream.failed with
  | some error => refuse error
  | none => pure ()

instance : StreamCore ReadStream where
  isWriting := false
  isReading := true
  fail error := latch error
  gate := refuseIfLatched
  serializeBits bits := do
    let refused ← onState (refuses bits)
    if (refused || decide (32 ≤ bits - 1)) = true then
      onState (refuseBits bits)
    else do
      let value ← onState (onReader (BitReader.readBits bits))
      store value

def readAlign : Action ReadStream Unit := do
  let stream ← getState
  let refused ← refuses (BitVec.ofNat 32 stream.reader.alignBits)
  if refused = true then
    latch stream.refusal
  else do
    let zeros ← onReader BitReader.readAlign
    if zeros = true then pure () else latch .nonzeroPadding

/-- The payload of a byte run, refused as past the end by its length in bytes. -/
def readPayload (bytes : Nat) : Action ReadStream (List U8) := do
  let remaining ← onReader BitReader.bitsRemaining
  if remaining / 8 < bytes then
    latch .pastEnd
  else
    onReader (BitReader.readByteSlice bytes)

/-- `dest.copy_from_slice(source)`, which panics where the lengths differ. -/
def copyInto {n : Nat} (source : List U8) : Action (ReadStream × List.Vector U8 n) Unit :=
  if h : source.length = n then store ⟨source, h⟩ else require False

def readEnd : Action ReadStream Unit := do
  refuseIfLatched
  let remaining ← onReader BitReader.bitsRemaining
  if 8 ≤ remaining then
    latch .trailingData
  else do
    -- fewer than 8 bits remain, so this is all of them: the final byte's padding
    let paddingBits := remaining % 8
    onlyIf (0 < paddingBits) do
      let padding ← onReader (BitReader.readBits (BitVec.ofNat 32 paddingBits))
      onlyIf (padding ≠ 0) (latch .nonzeroPadding)

instance : Stream ReadStream where
  serializeBytes {n} := do
    onState readAlign
    let bytes ← onState (readPayload n)
    copyInto bytes
  serializeAlign := readAlign
  serializeString bufferSize :=
    if bufferSize = 0 ∨ i32Max < bufferSize then
      onState (latch .valueOutOfRange)
    else do
      let largest ← largestLength bufferSize
      let length ← inLocal 0 (serializeInt 0 largest)
      onState readAlign
      let bytes ← onState (readPayload (length.signExtend 64).toNat)
      -- the NUL scan runs over the whole payload before the encoding is checked
      if bytes.contains 0 then
        onState (latch .embeddedNul)
      else match fromUtf8 bytes with
        | some text => store text
        | none => onState (latch .invalidUtf8)
  serializeEnd := readEnd
  serializeObject object := do
    onState refuseIfLatched
    let result ← attempt object
    match result with
    | .ok () => onState refuseIfLatched
    | .error error => do
        -- an inner read already latched its reason, which stays the first
        let _ ← attempt (onState (latch (α := Unit) error))
        onState refuseIfLatched
  alignBits stream := stream.reader.alignBits
  bitsProcessed stream := stream.reader.bitsRead

end ReadStream

end Serialize
