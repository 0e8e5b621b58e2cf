import Serialize.Model.Control
import Serialize.Model.Writes
import Serialize.Float.Binary32

/-!
# The controls build

The streams as they are built for the negative controls: every guarded rule asks first whether the
active control deletes it. What no rule is guarded in is the code of every other build.
-/

namespace Serialize

open Machine
open Binary32 (Arithmetic)
open Utf8 (Text fromUtf8)

namespace Controls

/-- The double nearest to a magnitude: as many low bits are dropped as leave 53, to nearest even. -/
def nearestDouble (n : Nat) : Nat :=
  let dropped := Nat.size n - 53
  Binary32.nearest n (2 ^ dropped) * 2 ^ dropped

/-- `value as f64`, which is a whole number. -/
def asDouble (value : Int) : Int := value.sign * nearestDouble value.natAbs

/-- A 64 bit value carried through a double: exact to `2^53`, rounded past it. -/
def throughDouble (value : I64) : I64 :=
  if 2 ^ 63 ≤ asDouble value.toInt then BitVec.intMax 64 else BitVec.ofInt 64 (asDouble value.toInt)

variable (active : Option Control)

/-! ### The provided methods -/

section Provided

variable {S : Type} [StreamCore S]

def reject : Action S Unit := do
  debugAssert (isReading S = true)
  fail (if isReading S && deleted active .rejectReason then .valueOutOfRange else .rejected)

def serializeInt (min max : I32) : Action (S × I32) Unit := do
  onState (declarationCheck (min.sle max = true))
  if min = max then do
    onState refuseIfFailed
    whenReading (store min)
  else do
    let range : U32 := max - min
    let bits := bitsRequired 0 range
    let value ← load
    whenWriting do
      debugAssert (min.sle value = true)
      debugAssert (value.sle max = true)
    let unsignedValue ← inLocal (if isWriting S then value - min else 0) (serializeBits bits)
    whenReading
      (if range < unsignedValue ∧ deleted active .rangedRange = false then
        onState (fail .valueOutOfRange)
      else store
        (if deleted active .rangedReconstruction then unsignedValue else unsignedValue + min))

def serializeInt64 (min max : I64) : Action (S × I64) Unit := do
  onState (declarationCheck (min.sle max = true))
  if min = max then do
    onState refuseIfFailed
    whenReading (store min)
  else do
    let range : U64 := max - min
    let bits := bitsRequired64 0 range
    let value ← load
    whenWriting do
      debugAssert (min.sle value = true)
      debugAssert (value.sle max = true)
    let unsignedValue ← serializeDwords (if isWriting S then value - min else 0) bits
    whenReading
      (if range < unsignedValue then onState (fail .valueOutOfRange)
      else store (if deleted active .int64ThroughDouble then throughDouble (unsignedValue + min)
        else unsignedValue + min))

def serializeF32 : Action (S × F32) Unit := do
  let value ← load
  whenWriting (debugAssert (floatBitsAreFinite value = true))
  let intValue ← inLocal (if isWriting S then value else 0) (serializeBits 32)
  whenReading
    (if floatBitsAreFinite intValue = true ∨ deleted active .floatFinite = true then store intValue
    else onState (fail .nonFiniteFloat))

def serializeF64 : Action (S × F64) Unit := do
  let value ← load
  whenWriting (debugAssert (doubleBitsAreFinite value = true))
  let intValue ← inLocal (if isWriting S then value else 0) (serializeBits64 64)
  whenReading
    (if doubleBitsAreFinite intValue = true ∨ deleted active .doubleFinite = true then store intValue
    else onState (fail .nonFiniteFloat))

def serializeFixed (T : FixedPointStorage) (integerBits fractionBits : U32)
    (minUnits maxUnits : I64) : Action (S × BitVec T.bits) Unit := do
  onState (declarationCheck (1 ≤ integerBits.toNat))
  onState (declarationCheck (integerBits.toNat + fractionBits.toNat = T.bits))
  onState (declarationCheck (minUnits.sle maxUnits = true))
  onState (capacityCheck T integerBits minUnits maxUnits)
  let shift ← shiftAmount 128 fractionBits.toNat
  let rawMin : U128 := minUnits.signExtend 128 <<< shift
  noOverflow (((maxUnits.signExtend 128).ssubOverflow (minUnits.signExtend 128)) = false)
  let rawRange : U128 :=
    (maxUnits.signExtend 128 - minUnits.signExtend 128) <<< shift
  if minUnits = maxUnits then do
    onlyIf (deleted active .fixedDegenerateTerminal = false) (onState refuseIfFailed)
    let value ← load
    whenWriting (debugAssert (T.toUnsigned value = rawMin))
    whenReading (store (T.fromUnsigned rawMin))
  else do
    let bits := bitLength rawRange
    let value ← load
    whenWriting (debugAssert (T.toUnsigned value - rawMin ≤ rawRange))
    let offset ← inLocal (if isWriting S then T.toUnsigned value - rawMin else 0)
      (serializeOffset128 bits)
    whenReading
      (if rawRange < offset then onState (fail .valueOutOfRange)
      else store (T.fromUnsigned (rawMin + offset)))

def serializeAbsolute (previous : I32) : Action (S × I32) Unit := do
  let current ← load
  let value ← inLocal (if isWriting S then current else 0) (serializeBits 32)
  whenReading (do
    let reconstructed : Int := value.toNat
    if ¬intRelativeInDomain previous reconstructed then
      onState (fail .valueOutOfRange)
    else do
      let difference ← checkedSubI64 reconstructed previous.toInt
      if difference ≤ 69914 ∧ deleted active .intRelativeCanonical = false then
        onState (fail .nonCanonical)
      else store (BitVec.ofInt 32 reconstructed))

/-- The tiers of `serialize_int_relative`, each with the ranged integer of this build. -/
def serializeBuckets (previous : I32) (difference : U32) :
    List (U32 × I32 × I32) → Action (S × I32) Unit
  | [] => serializeAbsolute active previous
  | (threshold, bucketMin, bucketMax) :: rest => do
      let inBucket ← inLocal (isWriting S && decide (difference ≤ threshold)) serializeBool
      if inBucket = true then do
        let bucketDifference ← inLocal (if isWriting S then difference else 0)
          (serializeInt active bucketMin bucketMax)
        whenReading (do
          let reconstructed ← checkedAddI64 previous.toInt bucketDifference.toInt
          acceptIntRelative previous reconstructed)
      else
        serializeBuckets previous difference rest

def serializeIntRelative (previous : I32) : Action (S × I32) Unit := do
  onState (declarationCheck ((0 : I32).sle previous = true))
  let current ← load
  whenWriting (debugAssert (previous.slt current = true))
  let difference : U32 := if isWriting S then current - previous else 0
  let oneBit ← inLocal (isWriting S && decide (difference = 1)) serializeBool
  if oneBit = true then
    whenReading (do
      let reconstructed ← checkedAddI64 previous.toInt 1
      acceptIntRelative previous reconstructed)
  else
    serializeBuckets active previous difference buckets

variable [Arithmetic]

def serializeCompressedFloatPrecomputed (maxIntegerValue bits : U32) (delta min : F32) :
    Action (S × F32) Unit := do
  onState (declarationCheck (1 ≤ maxIntegerValue ∧ maxIntegerValue ≤ 4294967040))
  onState (declarationCheck (bits = bitsRequired 0 maxIntegerValue))
  onState (declarationCheck (Binary32.lt Binary32.zero delta = true))
  onState (declarationCheck (Binary32.isFinite delta = true))
  let value ← load
  whenWriting do
    debugAssert (Binary32.isFinite value = true)
    debugAssert (Binary32.isFinite (Arithmetic.add min delta) = true)
  let integerValue ← inLocal
    (if isWriting S then quantize value maxIntegerValue delta min else 0) (serializeBits bits)
  whenReading
    (if maxIntegerValue < integerValue then onState (fail .valueOutOfRange)
    else
      let decoded := decodeCompressed integerValue maxIntegerValue delta min
      if floatBitsAreFinite decoded = true ∨ deleted active .compressedFloatFinite = true then
        store decoded
      else onState (fail .nonFiniteFloat))

def serializeCompressedFloat (min max resolution : F32) : Action (S × F32) Unit := do
  onState (declarationCheck
    (Binary32.lt min max = true ∧ Binary32.lt Binary32.zero resolution = true))
  onState (declarationCheck (Binary32.isFinite (Arithmetic.sub max min) = true))
  onState (declarationCheck
    (Binary32.isFinite (Arithmetic.div (Arithmetic.sub max min) resolution) = true))
  let params ← serializeCompressedFloatParams min max resolution
  serializeCompressedFloatPrecomputed active params.maxIntegerValue params.bits params.delta min

end Provided

/-! ### The streams -/

section ReadStream

open ReadStream

def readAlign : Action ReadStream Unit := do
  let stream ← getState
  let refused ← refuses (BitVec.ofNat 32 stream.reader.alignBits)
  if refused = true then
    latch stream.refusal
  else do
    let zeros ← onReader BitReader.readAlign
    if zeros = true ∨ deleted active .alignPadding = true then pure () else latch .nonzeroPadding

def readEnd : Action ReadStream Unit := do
  refuseIfLatched
  let remaining ← onReader BitReader.bitsRemaining
  if 8 ≤ remaining ∧ deleted active .endTrailingData = false then
    latch .trailingData
  else do
    let paddingBits := remaining % 8
    onlyIf (0 < paddingBits) do
      let padding ← onReader (BitReader.readBits (BitVec.ofNat 32 paddingBits))
      onlyIf (padding ≠ 0 ∧ deleted active .endPadding = false) (latch .nonzeroPadding)

/-- What a string read makes of its payload. -/
def acceptPayload (bytes : List U8) : Action (ReadStream × Text) Unit :=
  if bytes.contains 0 = true ∧ deleted active .stringEmbeddedNul = false then
    onState (latch (if deleted active .wrongReason then .invalidUtf8 else .embeddedNul))
  else match fromUtf8 bytes with
    | some text => store text
    | none =>
        match utf8RuleDeleted active bytes with
        | some text => store text
        | none => onState (latch .invalidUtf8)

def readString (bufferSize : Nat) : Action (ReadStream × Text) Unit :=
  if bufferSize = 0 ∨ i32Max < bufferSize then
    onState (latch .valueOutOfRange)
  else do
    let largest ← largestLength bufferSize
    let length ← inLocal 0 (serializeInt active 0 largest)
    onState (readAlign active)
    let bytes ← onState (readPayload (length.signExtend 64).toNat)
    acceptPayload active bytes

def serializeObject {ω : Type} (object : Action (ReadStream × ω) Unit) :
    Action (ReadStream × ω) Unit :=
  if deleted active .objectTerminal then object
  else do
    onState refuseIfLatched
    let result ← attempt object
    match result with
    | .ok () => onState refuseIfLatched
    | .error error => do
        let stream ← onState getState
        if deleted active .objectLatchRejected ∧ stream.failed = none then
          refuse error
        else do
          let _ ← attempt (onState (latch (α := Unit) error))
          onState refuseIfLatched

/-- The read stream of the controls build. -/
@[reducible]
def readStream : Stream ReadStream where
  serializeBytes {n} := do
    onState (readAlign active)
    let bytes ← onState (readPayload n)
    copyInto bytes
  serializeAlign := readAlign active
  serializeString := readString active
  serializeEnd := readEnd active
  serializeObject := serializeObject active
  alignBits := alignBits
  bitsProcessed := bitsProcessed

end ReadStream

/-- The write stream of the controls build, whose string calls the ranged integer of this build. -/
@[reducible]
def writeStream : Stream WriteStream where
  serializeBytes := serializeBytes
  serializeAlign := serializeAlign
  serializeString bufferSize := do
    let value ← load
    let length ← stringLength value bufferSize
    onState (WriteStream.debugAssertRoom (bitsRequired 0 (saturatingPred bufferSize))
      value.bytes.length)
    let largest ← largestLength bufferSize
    let _ ← inLocal length (serializeInt active 0 largest)
    onState (WriteStream.onWriter BitWriter.writeAlign)
    onState (WriteStream.onWriter (BitWriter.writeBytes value.bytes))
  serializeEnd := serializeEnd
  serializeObject := Stream.serializeObject
  alignBits := alignBits
  bitsProcessed := bitsProcessed

/-- The measure stream of the controls build. -/
@[reducible]
def measureStream : Stream MeasureStream where
  serializeBytes := serializeBytes
  serializeAlign := serializeAlign
  serializeString bufferSize := do
    let value ← load
    let length ← stringLength value bufferSize
    let largest ← largestLength bufferSize
    let _ ← inLocal length (serializeInt active 0 largest)
    onState MeasureStream.measureAlign
    onState (MeasureStream.countBytes value.bytes.length)
  serializeEnd := serializeEnd
  serializeObject := Stream.serializeObject
  alignBits := alignBits
  bitsProcessed := bitsProcessed

/-! ### Calls of the controls build -/

variable [Arithmetic]

/-- An operation on a stream of the controls build. -/
def run {S : Type} [Stream S] : (operation : Operation) → Action (S × operation.Value) Unit
  | .int min max => serializeInt active min max
  | .int64 min max => serializeInt64 active min max
  | .fixed T integerBits fractionBits minUnits maxUnits =>
      serializeFixed active T integerBits fractionBits minUnits maxUnits
  | .intRelative previous => serializeIntRelative active previous
  | .f32 => serializeF32 active
  | .f64 => serializeF64 active
  | .compressedFloat min max resolution => serializeCompressedFloat active min max resolution
  | .compressedFloatPrecomputed maxIntegerValue width delta min =>
      serializeCompressedFloatPrecomputed active maxIntegerValue width delta min
  | operation => operation.run

/-- The reader of the controls build. -/
@[reducible]
def reader : Reader ReadStream where
  observation := Reader.observation
  operation := @run active _ ReadStream (readStream active)
  finish := readEnd active
  fail := fail
  reject := reject active
  object := serializeObject active

@[reducible]
def writer : Reader WriteStream where
  observation := Reader.observation
  operation := @run active _ WriteStream (writeStream active)
  finish := serializeEnd
  fail := fail
  reject := reject active
  object := Stream.serializeObject

@[reducible]
def measurer : Reader MeasureStream where
  observation := Reader.observation
  operation := @run active _ MeasureStream (measureStream active)
  finish := serializeEnd
  fail := fail
  reject := reject active
  object := Stream.serializeObject

/-- A client's run on the reader of the controls build. -/
def runClient {ω : Type} (client : Client ω) : Action (ReadStream × Log ω) (Result × ω) :=
  @Client.run ReadStream ω (reader active) client

end Controls

end Serialize
