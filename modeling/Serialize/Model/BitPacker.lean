import Serialize.Model.Basic

/-!
# The bit packer

The word-at-a-time writer and the windowed reader. Counters and indices are natural numbers whose
`u64`, `usize` or `u32` arithmetic is checked, or wraps, where the code computes it; slices are
checked where the code takes them; and a debug assertion is a step of the checked build, in the order
of the code, so a panic leaves exactly the state the code had reached.
-/

namespace Serialize

open Machine BitString

/-! ### BitWriter -/

/-- Bitpacks unsigned integer values to a buffer through a 64 bit scratch. -/
structure BitWriter where
  data : List U8
  scratch : U64
  numBits : Nat
  bitsWritten : Nat
  wordIndex : Nat
  scratchBits : Nat
  deriving DecidableEq, Repr

/-- `slice[start..start + source.len()].copy_from_slice(source)`, the bounds already checked. -/
def copyFromSlice (slice : List U8) (start : Nat) (source : List U8) : List U8 :=
  slice.take start ++ source ++ slice.drop (start + source.length)

namespace BitWriter

def new (data : List U8) : Action Unit BitWriter := do
  debugAssert (data.length % 8 = 0)
  let numBits ← checkedMul 64 data.length 8
  pure { data, scratch := 0, numBits, bitsWritten := 0, wordIndex := 0, scratchBits := 0 }

/-- How many align bits would be written, if we were to write an align right now? -/
def alignBits (writer : BitWriter) : Nat :=
  (8 - writer.bitsWritten % 8) % 8

/-- How many bits are still available to write? -/
def bitsAvailable : Action BitWriter Nat := do
  let writer ← getState
  checkedSub 64 writer.numBits writer.bitsWritten

/-- The number of bytes flushed to memory. -/
def bytesWritten (writer : BitWriter) : Nat :=
  (writer.bitsWritten + 7) / 8

/-- The data written so far, as a byte slice. -/
def written (writer : BitWriter) : List U8 :=
  writer.data.take writer.bytesWritten

/-- Copy bytes over `data[start..start + bytes.len()]`. -/
def copyToData (start : Nat) (bytes : List U8) : Action BitWriter Unit := do
  let stop ← checkedAdd 64 start bytes.length
  let writer ← getState
  require (start ≤ stop ∧ stop ≤ writer.data.length)
  setState { writer with data := copyFromSlice writer.data start bytes }

/-- Store the full scratch as a word and recover the bits of `value` that spilled past 64. -/
def spillScratch (value : U32) (newScratchBits : Nat) : Action BitWriter Unit := do
  let writer ← getState
  let start ← checkedMul 64 writer.wordIndex 8
  copyToData start (toLeBytes writer.scratch)
  let wordIndex ← checkedAdd 64 writer.wordIndex 1
  modifyState fun writer => { writer with wordIndex }
  let spill ← checkedSub 32 64 writer.scratchBits
  let spill ← shiftAmount 64 spill
  let scratchBits ← checkedSub 32 newScratchBits 64
  modifyState fun writer => { writer with scratch := value.setWidth 64 >>> spill, scratchBits }

def writeBits (value : U32) (bits : U32) : Action BitWriter Unit := do
  let writer ← getState
  debugAssert (bits - 1 < 32)
  inChecked do
    let needed ← checkedAdd 64 writer.bitsWritten bits.toNat
    require (needed ≤ writer.numBits)
  inChecked do
    noOverflow (bits.toNat < 64)
    require (value.toNat < 2 ^ bits.toNat)
  let shift ← shiftAmount 64 writer.scratchBits
  modifyState fun writer =>
    { writer with scratch := writer.scratch ||| value.setWidth 64 <<< shift }
  let newScratchBits ← checkedAdd 32 writer.scratchBits bits.toNat
  (if 64 ≤ newScratchBits then
    spillScratch value newScratchBits
  else
    modifyState fun writer => { writer with scratchBits := newScratchBits })
  let bitsWritten ← checkedAdd 64 writer.bitsWritten bits.toNat
  modifyState fun writer => { writer with bitsWritten }

def writeAlign : Action BitWriter Unit := do
  let writer ← getState
  let remainderBits := writer.bitsWritten % 8
  onlyIf (remainderBits ≠ 0) do
    writeBits 0 (BitVec.ofNat 32 (8 - remainderBits))
    let writer ← getState
    debugAssert (writer.bitsWritten % 8 = 0)

/-- `for &byte in bytes { self.write_bits(u32::from(byte), 8) }` -/
def writeEach : List U8 → Action BitWriter Unit
  | [] => pure ()
  | byte :: bytes => do
      writeBits (byte.setWidth 32) 8
      writeEach bytes

/-- Whole words: straight copy, with the scratch empty at a word boundary. -/
def copyWords (words : List U8) (numWords : Nat) : Action BitWriter Unit := do
  let writer ← getState
  let start ← checkedMul 64 writer.wordIndex 8
  copyToData start words
  let bits ← checkedMul 64 numWords 64
  let bitsWritten ← checkedAdd 64 writer.bitsWritten bits
  modifyState fun writer => { writer with bitsWritten }
  let wordIndex ← checkedAdd 64 writer.wordIndex numWords
  modifyState fun writer => { writer with wordIndex, scratch := 0 }

def writeBytes (data : List U8) : Action BitWriter Unit := do
  let writer ← getState
  let bytes := data.length
  debugAssert (writer.alignBits = 0)
  inChecked do
    let payload ← checkedMul 64 bytes 8
    let needed ← checkedAdd 64 writer.bitsWritten payload
    require (needed ≤ writer.numBits)
  debugAssert (writer.bitsWritten % 8 = 0)
  -- head bytes: bitpack up to the next word boundary
  let headBytes := min ((8 - writer.bitsWritten % 64 / 8) % 8) bytes
  writeEach (data.take headBytes)
  if headBytes = bytes then
    pure ()
  else do
    let writer ← getState
    debugAssert (writer.bitsWritten % 64 = 0 ∧ writer.scratchBits = 0)
    let numWords := (bytes - headBytes) / 8
    onlyIf (0 < numWords) (copyWords ((data.drop headBytes).take (numWords * 8)) numWords)
    -- tail bytes: bitpack the remainder
    writeEach (data.drop (headBytes + numWords * 8))
    let writer ← getState
    debugAssert (writer.alignBits = 0)

/-- Flush any remaining bits to memory, as a full word. -/
def flushBits : Action BitWriter Unit := do
  let writer ← getState
  onlyIf (writer.scratchBits ≠ 0) do
    debugAssert (writer.scratchBits < 64)
    let start ← checkedMul 64 writer.wordIndex 8
    copyToData start (toLeBytes writer.scratch)
    let wordIndex ← checkedAdd 64 writer.wordIndex 1
    modifyState fun writer => { writer with scratch := 0, scratchBits := 0, wordIndex }

end BitWriter

/-! ### BitReader -/

/-- Reads bit packed integer values from a buffer, one byte-granular window at a time. -/
structure BitReader where
  data : List U8
  numBits : Nat
  bitsRead : Nat
  deriving DecidableEq, Repr

namespace BitReader

def new (buffer : List U8) (bytes : Nat) : Action Unit BitReader := do
  debugAssert (bytes ≤ buffer.length)
  let numBits ← checkedMul 64 bytes 8
  pure { data := buffer, numBits, bitsRead := 0 }

/-- How many align bits would be read, if we were to read an align right now? -/
def alignBits (reader : BitReader) : Nat :=
  (8 - reader.bitsRead % 8) % 8

/-- How many bits are still available to read? -/
def bitsRemaining : Action BitReader Nat := do
  let reader ← getState
  checkedSub 64 reader.numBits reader.bitsRead

/-- No slack in the buffer: guarded load of whatever bytes remain, zero padded. -/
def loadWindowSlow (byteIndex : Nat) : Action BitReader U64 := do
  let reader ← getState
  let start := min byteIndex reader.data.length
  require (start ≤ reader.data.length)
  let tail := reader.data.drop start
  let n := min tail.length 8
  require (n ≤ tail.length ∧ n ≤ 8)
  pure (fromLeBytes (copyFromSlice (List.replicate 8 0) 0 (tail.take n)))

/-- The 64 bit window that starts at a byte: one slice where the buffer extends past it. -/
def loadWindow (byteIndex : Nat) : Action BitReader U64 := do
  let stop ← checkedAdd 64 byteIndex 8
  let reader ← getState
  if byteIndex ≤ stop ∧ stop ≤ reader.data.length then do
    let window := (reader.data.drop byteIndex).take 8
    require (window.length = 8)
    pure (fromLeBytes window)
  else
    loadWindowSlow byteIndex

/-- Would the bit reader read past the end of the buffer if it read this many bits? -/
def wouldReadPastEnd (bits : U32) : Action BitReader Bool := do
  let reader ← getState
  let stop ← checkedAdd 64 reader.bitsRead bits.toNat
  pure (decide (reader.numBits < stop))

def readBits (bits : U32) : Action BitReader U32 := do
  let reader ← getState
  debugAssert (bits - 1 < 32)
  inChecked do
    let stop ← checkedAdd 64 reader.bitsRead bits.toNat
    require (stop ≤ reader.numBits)
  let window ← loadWindow (reader.bitsRead >>> 3)
  let shift ← shiftAmount 64 (reader.bitsRead &&& 7)
  let mask ← lowMask 64 bits.toNat
  let output := (window >>> shift).setWidth 32 &&& mask.setWidth 32
  let bitsRead ← checkedAdd 64 reader.bitsRead bits.toNat
  setState { reader with bitsRead }
  pure output

/-- `for (out, &bits) in output.iter_mut().zip(widths) { *out = self.read_bits(bits); }` -/
def readEach : List U32 → Action BitReader (List U32)
  | [] => pure []
  | bits :: widths => do
      let value ← readBits bits
      let values ← readEach widths
      pure (value :: values)

/-- The worst width and the total of a group, from what was seen before it. -/
def surveyWidths : List U32 → U32 → Nat → Action BitReader (U32 × Nat)
  | [], worst, total => pure (worst, total)
  | bits :: widths, worst, total => do
      let total ← checkedAdd 64 total bits.toNat
      surveyWidths widths (if worst < bits - 1 then bits - 1 else worst) total

/-- The windows of a group inside its 40 byte span, from a bit of the span on. -/
def readSpan (group : List U8) : List U32 → Nat → Action BitReader (List U32)
  | [], _ => pure []
  | bits :: widths, position => do
      -- the mask is a no-op on the offsets of a group of at most 248 bits
      let off := position >>> 3 &&& 31
      let stop ← checkedAdd 64 off 8
      require (off ≤ stop ∧ stop ≤ group.length)
      let window := fromLeBytes ((group.drop off).take 8)
      let shift ← shiftAmount 64 (position &&& 7)
      let mask ← lowMask 64 bits.toNat
      let value := (window >>> shift).setWidth 32 &&& mask.setWidth 32
      let position ← checkedAdd 32 position bits.toNat
      let values ← readSpan group widths position
      pure (value :: values)

/-- Read a group of values with one validation for the whole group. -/
def readBitsGroup (widths : List U32) : Action BitReader (List U32) := do
  let reader ← getState
  let (worst, total) ← surveyWidths widths 0 0
  debugAssert (worst < 32)
  inChecked do
    let stop ← checkedAdd 64 reader.bitsRead total
    require (stop ≤ reader.numBits)
  let base := reader.bitsRead >>> 3
  if total ≤ 248 then do
    let stop ← checkedAdd 64 base 40
    if base ≤ stop ∧ stop ≤ reader.data.length then do
      let group := (reader.data.drop base).take 40
      require (group.length = 40)
      let values ← readSpan group widths (reader.bitsRead &&& 7)
      let bitsRead ← checkedAdd 64 reader.bitsRead total
      setState { reader with bitsRead }
      pure values
    else
      readEach widths
  else
    readEach widths

/-- Skip to the next byte boundary; false if a padding bit is set. -/
def readAlign : Action BitReader Bool := do
  let reader ← getState
  let remainderBits := reader.bitsRead % 8
  if remainderBits ≠ 0 then do
    let value ← readBits (BitVec.ofNat 32 (8 - remainderBits))
    let reader ← getState
    debugAssert (reader.bitsRead % 8 = 0)
    pure (decide (value = 0))
  else
    pure true

/-- Read bytes as a slice of the underlying buffer, the stream being byte aligned. -/
def readByteSlice (bytes : Nat) : Action BitReader (List U8) := do
  let reader ← getState
  debugAssert (reader.alignBits = 0)
  inChecked do
    let payload ← checkedMul 64 bytes 8
    let stop ← checkedAdd 64 reader.bitsRead payload
    require (stop ≤ reader.numBits)
  let start := reader.bitsRead >>> 3
  let payload ← checkedMul 64 bytes 8
  let bitsRead ← checkedAdd 64 reader.bitsRead payload
  setState { reader with bitsRead }
  let stop ← checkedAdd 64 start bytes
  require (start ≤ stop ∧ stop ≤ reader.data.length)
  pure ((reader.data.drop start).take bytes)

/-- `dest.copy_from_slice(self.read_byte_slice(dest.len()))`, and what a `dest` of this length holds
then. The copy panics where the lengths differ. -/
def readBytes (length : Nat) : Action BitReader (List U8) := do
  let source ← readByteSlice length
  require (source.length = length)
  pure source

end BitReader

end Serialize
