import Serialize.Model.Stream

/-!
# Fixed point, relative integers and compressed floats

The provided methods built on the ranged and raw fields.
-/

namespace Serialize

open Machine
open Binary32 (Arithmetic)

section Composite

variable {S : Type} [StreamCore S] {δ : Type}

/-! ### Fixed point -/

/-- Integer types that can store a fixed point value. -/
inductive FixedPointStorage where
  | i8 | u8 | i16 | u16 | i32 | u32 | i64 | u64 | i128 | u128
  deriving DecidableEq, Repr

namespace FixedPointStorage

/-- The width of the storage type in bits: the width of the Q format. -/
def bits : FixedPointStorage → Nat
  | .i8 | .u8 => 8
  | .i16 | .u16 => 16
  | .i32 | .u32 => 32
  | .i64 | .u64 => 64
  | .i128 | .u128 => 128

/-- True for signed storage. -/
def signed : FixedPointStorage → Bool
  | .i8 | .i16 | .i32 | .i64 | .i128 => true
  | .u8 | .u16 | .u32 | .u64 | .u128 => false

/-- `self as u128`: sign extends signed storage and zero extends unsigned storage. -/
def toUnsigned (T : FixedPointStorage) (value : BitVec T.bits) : U128 :=
  if T.signed then value.signExtend 128 else value.setWidth 128

/-- `raw as T`. -/
def fromUnsigned (T : FixedPointStorage) (raw : U128) : BitVec T.bits := raw.setWidth T.bits

end FixedPointStorage

/-- The bounds in whole units fit the whole unit capacity of the Q format. -/
def capacityCheck (T : FixedPointStorage) (integerBits : U32) (minUnits maxUnits : I64) :
    Action S Unit :=
  if T.signed then do
    let shift ← checkedSub 32 integerBits.toNat 1
    let shift ← shiftAmount 128 shift
    let maxRepresentable ← lowMask 128 shift
    let minRepresentable : I128 := -(1#128 <<< shift)
    declarationCheck (minRepresentable.sle (minUnits.signExtend 128) = true
      ∧ (maxUnits.signExtend 128).sle maxRepresentable = true)
  else
    declarationCheck ((0 : I64).sle minUnits = true
      ∧ (64 ≤ integerBits.toNat ∨ maxUnits < 1#64 <<< integerBits.toNat))

def serializeFixed (T : FixedPointStorage) (integerBits fractionBits : U32)
    (minUnits maxUnits : I64) : Action (S × BitVec T.bits) Unit := do
  onState (declarationCheck (1 ≤ integerBits.toNat))
  -- a sum that overflows `u32` is no storage width, so `checked_add` is the plain sum
  onState (declarationCheck (integerBits.toNat + fractionBits.toNat = T.bits))
  onState (declarationCheck (minUnits.sle maxUnits = true))
  onState (capacityCheck T integerBits minUnits maxUnits)
  let shift ← shiftAmount 128 fractionBits.toNat
  let rawMin : U128 := minUnits.signExtend 128 <<< shift
  -- the difference of two `i64` in `i128`, which does not overflow
  noOverflow (((maxUnits.signExtend 128).ssubOverflow (minUnits.signExtend 128)) = false)
  let rawRange : U128 :=
    (maxUnits.signExtend 128 - minUnits.signExtend 128) <<< shift
  if minUnits = maxUnits then do
    -- degenerate range: the value is the range, nothing to send
    onState refuseIfFailed
    let value ← load
    whenWriting (debugAssert (T.toUnsigned value = rawMin))
    whenReading (store (T.fromUnsigned rawMin))
  else do
    let bits := bitLength rawRange
    let value ← load
    whenWriting (debugAssert (T.toUnsigned value - rawMin ≤ rawRange))
    let offset ← inLocal (if isWriting S then T.toUnsigned value - rawMin else 0)
      (serializeOffset128 bits)
    whenReading
      (if rawRange < offset then onState (fail .valueOutOfRange)
      else store (T.fromUnsigned (rawMin + offset)))

/-! ### Relative integers -/

/-- The tiers after the one-bit one: threshold, then the bounds of the tier's integer. -/
def buckets : List (U32 × I32 × I32) :=
  [(6, 2, 6), (23, 7, 23), (280, 24, 280), (4377, 281, 4377), (69914, 4378, 69914)]

/-- The reconstructed value lies in `[0, i32::MAX]` and is strictly greater than `previous`. -/
def intRelativeInDomain (previous : I32) (reconstructed : Int) : Prop :=
  (0 ≤ reconstructed ∧ reconstructed ≤ i32Max) ∧ previous.toInt < reconstructed

instance (previous : I32) (reconstructed : Int) :
    Decidable (intRelativeInDomain previous reconstructed) :=
  inferInstanceAs (Decidable (_ ∧ _))

/-- The reconstruction check every bounded tier ends in. -/
def acceptIntRelative (previous : I32) (reconstructed : Int) : Action (S × I32) Unit :=
  if ¬intRelativeInDomain previous reconstructed then onState (fail .valueOutOfRange)
  else store (BitVec.ofInt 32 reconstructed)

/-- The absolute tier transmits current itself, as 32 raw unsigned bits. -/
def serializeAbsolute (previous : I32) : Action (S × I32) Unit := do
  let current ← load
  let value ← inLocal (if isWriting S then current else 0) (serializeBits 32)
  whenReading (do
    let reconstructed : Int := value.toNat
    if ¬intRelativeInDomain previous reconstructed then
      onState (fail .valueOutOfRange)
    else do
      let difference ← checkedSubI64 reconstructed previous.toInt
      if difference ≤ 69914 then onState (fail .nonCanonical)
      else store (BitVec.ofInt 32 reconstructed))

/-- The loop over the bounded tiers, and the absolute tier after it. -/
def serializeBuckets (previous : I32) (difference : U32) :
    List (U32 × I32 × I32) → Action (S × I32) Unit
  | [] => serializeAbsolute previous
  | (threshold, bucketMin, bucketMax) :: rest => do
      let inBucket ← inLocal (isWriting S && decide (difference ≤ threshold)) serializeBool
      if inBucket = true then do
        let bucketDifference ← inLocal (if isWriting S then difference else 0)
          (serializeInt bucketMin bucketMax)
        whenReading (do
          let reconstructed ← checkedAddI64 previous.toInt bucketDifference.toInt
          acceptIntRelative previous reconstructed)
      else
        serializeBuckets previous difference rest

def serializeIntRelative (previous : I32) : Action (S × I32) Unit := do
  onState (declarationCheck ((0 : I32).sle previous = true))
  let current ← load
  whenWriting (debugAssert (previous.slt current = true))
  let difference : U32 := if isWriting S then current - previous else 0
  let oneBit ← inLocal (isWriting S && decide (difference = 1)) serializeBool
  if oneBit = true then
    whenReading (do
      let reconstructed ← checkedAddI64 previous.toInt 1
      acceptIntRelative previous reconstructed)
  else
    serializeBuckets previous difference buckets

/-! ### Compressed floats -/

variable [Arithmetic]

/-- The wire constants a compressed float declaration derives to. -/
structure CompressedFloatParams where
  maxIntegerValue : U32
  bits : U32
  delta : F32
  deriving DecidableEq, Repr

/-- The quantum count clamped to `[1, 4294967040]`, a NaN landing in the low clamp. -/
def clampQuantumCount (values : F32) : F32 :=
  if Binary32.isNaN values || Binary32.lt values Binary32.one then Binary32.one
  else if Binary32.lt Binary32.largestBelowU32 values then Binary32.largestBelowU32
  else values

/-- The derivation of the wire constants, its assertions aside. -/
def compressedFloatParams (min max resolution : F32) : CompressedFloatParams :=
  let delta := Arithmetic.sub max min
  let maxIntegerValue :=
    Arithmetic.toU32 (Arithmetic.ceil (clampQuantumCount (Arithmetic.div delta resolution)))
  { maxIntegerValue, bits := bitsRequired 0 maxIntegerValue, delta }

def serializeCompressedFloatParams {σ : Type} (min max resolution : F32) :
    Action σ CompressedFloatParams := do
  debugAssert (Binary32.lt min max = true ∧ Binary32.lt Binary32.zero resolution = true)
  debugAssert (Binary32.isFinite (Arithmetic.sub max min) = true)
  debugAssert (Binary32.isFinite (Arithmetic.div (Arithmetic.sub max min) resolution) = true)
  pure (compressedFloatParams min max resolution)

/-- The integer a value quantizes to: normalized, clamped to `[0, 1]`, scaled, rounded, clamped. -/
def quantize (value : F32) (maxIntegerValue : U32) (delta min : F32) : U32 :=
  let normalized := Arithmetic.div (Arithmetic.sub value min) delta
  let normalized :=
    if Binary32.isNaN normalized || Binary32.lt normalized Binary32.zero then Binary32.zero
    else if Binary32.lt Binary32.one normalized then Binary32.one
    else normalized
  let integerValue := Arithmetic.toU32 (Arithmetic.floor
    (Arithmetic.add (Arithmetic.mul normalized (Arithmetic.ofU32 maxIntegerValue)) Binary32.half))
  if maxIntegerValue < integerValue then maxIntegerValue else integerValue

/-- The value an integer decodes to. -/
def decodeCompressed (integerValue maxIntegerValue : U32) (delta min : F32) : F32 :=
  let normalized :=
    Arithmetic.div (Arithmetic.ofU32 integerValue) (Arithmetic.ofU32 maxIntegerValue)
  Arithmetic.add (Arithmetic.mul normalized delta) min

def serializeCompressedFloatPrecomputed (maxIntegerValue bits : U32) (delta min : F32) :
    Action (S × F32) Unit := do
  onState (declarationCheck (1 ≤ maxIntegerValue ∧ maxIntegerValue ≤ 4294967040))
  onState (declarationCheck (bits = bitsRequired 0 maxIntegerValue))
  onState (declarationCheck (Binary32.lt Binary32.zero delta = true))
  onState (declarationCheck (Binary32.isFinite delta = true))
  let value ← load
  whenWriting do
    debugAssert (Binary32.isFinite value = true)
    debugAssert (Binary32.isFinite (Arithmetic.add min delta) = true)
  let integerValue ← inLocal
    (if isWriting S then quantize value maxIntegerValue delta min else 0) (serializeBits bits)
  whenReading
    (if maxIntegerValue < integerValue then onState (fail .valueOutOfRange)
    else
      let decoded := decodeCompressed integerValue maxIntegerValue delta min
      if floatBitsAreFinite decoded then store decoded
      else onState (fail .nonFiniteFloat))

def serializeCompressedFloat (min max resolution : F32) : Action (S × F32) Unit := do
  onState (declarationCheck
    (Binary32.lt min max = true ∧ Binary32.lt Binary32.zero resolution = true))
  onState (declarationCheck (Binary32.isFinite (Arithmetic.sub max min) = true))
  onState (declarationCheck
    (Binary32.isFinite (Arithmetic.div (Arithmetic.sub max min) resolution) = true))
  let params ← serializeCompressedFloatParams min max resolution
  serializeCompressedFloatPrecomputed params.maxIntegerValue params.bits params.delta min

end Composite

end Serialize
