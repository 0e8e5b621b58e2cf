import Serialize.Model.BitPacker
import Serialize.Float.Arithmetic
import Serialize.Text.Utf8
import Mathlib.Data.Vector.Defs

/-!
# The stream interface and its provided methods

One serialize method handles write, read and measure: a method is written once against the interface
and branches on whether the stream writes or reads. The caller's value is the one a method is called
on; a local that the code hands to another method is `inLocal`.

The interface is split in two, because the string operation of every stream calls the provided
integer method: `StreamCore` holds what the provided methods need, `Stream` the rest.
-/

namespace Serialize

open Machine BitString
open Utf8 (Text)

/-- What the provided methods need of a stream. -/
class StreamCore (S : Type) where
  /-- True if this stream writes (or measures) values. -/
  isWriting : Bool
  /-- True if this stream reads values. -/
  isReading : Bool
  /-- Fail the operation: on a read stream the failure latches. -/
  fail : Error → Action S Unit
  /-- The failure gate an operation that touches no bits still passes. -/
  gate : Action S Unit
  serializeBits : U32 → Action (S × U32) Unit

/-- The unified stream interface. -/
class Stream (S : Type) extends StreamCore S where
  serializeBytes : {n : Nat} → Action (S × List.Vector U8 n) Unit
  serializeAlign : Action S Unit
  serializeString : Nat → Action (S × Text) Unit
  serializeEnd : Action S Unit
  /-- Run a nested object's own serialize method, the object being the caller's value. -/
  serializeObject : {ω : Type} → Action (S × ω) Unit → Action (S × ω) Unit
  alignBits : S → Nat
  bitsProcessed : S → Nat

export StreamCore (isWriting isReading fail gate serializeBits)
export Stream (serializeBytes serializeAlign serializeString serializeEnd serializeObject alignBits
  bitsProcessed)

section Provided

variable {S : Type} [StreamCore S] {δ : Type}

/-- A caller's declaration, validated before any bits move: refused on a read stream, asserted on
the others. -/
def declarationCheck (declared : Prop) [Decidable declared] : Action S Unit :=
  if declared then pure ()
  else if isReading S then fail .valueOutOfRange
  else debugAssert False

def whenReading (m : Action (S × δ) Unit) : Action (S × δ) Unit := onlyIf (isReading S = true) m

def whenWriting (m : Action (S × δ) Unit) : Action (S × δ) Unit := onlyIf (isWriting S = true) m

def refuseIfFailed : Action S Unit := gate

/-- The caller's own refusal of a value whose bytes were well formed. -/
def reject : Action S Unit := do
  debugAssert (isReading S = true)
  fail .rejected

/-- The groups of a field of up to 64 bits: the low dword first, then the high remainder. The result
is what the groups hold afterwards. -/
def serializeDwords (value : U64) (bits : U32) : Action (S × δ) U64 :=
  if bits ≤ 32 then do
    let lo ← inLocal (value.setWidth 32) (serializeBits bits)
    pure (lo.setWidth 64)
  else do
    let lo ← inLocal ((value &&& 0xFFFFFFFF).setWidth 32) (serializeBits 32)
    let rest ← checkedSubBits bits 32
    let hi ← inLocal ((value >>> 32).setWidth 32) (serializeBits rest)
    pure (hi.setWidth 64 <<< 32 ||| lo.setWidth 64)

/-! ### Ranged integers -/

def serializeInt (min max : I32) : Action (S × I32) Unit := do
  onState (declarationCheck (min.sle max = true))
  if min = max then do
    -- degenerate range: zero bits, so the failure gate is taken explicitly
    onState refuseIfFailed
    whenReading (store min)
  else do
    let range : U32 := max - min
    let bits := bitsRequired 0 range
    let value ← load
    whenWriting do
      debugAssert (min.sle value = true)
      debugAssert (value.sle max = true)
    let unsignedValue ← inLocal (if isWriting S then value - min else 0) (serializeBits bits)
    whenReading
      (if range < unsignedValue then onState (fail .valueOutOfRange)
      else store (unsignedValue + min))

def serializeInt64 (min max : I64) : Action (S × I64) Unit := do
  onState (declarationCheck (min.sle max = true))
  if min = max then do
    onState refuseIfFailed
    whenReading (store min)
  else do
    let range : U64 := max - min
    let bits := bitsRequired64 0 range
    let value ← load
    whenWriting do
      debugAssert (min.sle value = true)
      debugAssert (value.sle max = true)
    let unsignedValue ← serializeDwords (if isWriting S then value - min else 0) bits
    whenReading
      (if range < unsignedValue then onState (fail .valueOutOfRange)
      else store (unsignedValue + min))

/-- The groups of a wide offset put back together. -/
def joinGroups (group0 group1 group2 group3 : U32) : U128 :=
  group3.setWidth 128 <<< 96 ||| group2.setWidth 128 <<< 64 ||| group1.setWidth 128 <<< 32
    ||| group0.setWidth 128

/-- The shared wide offset codec: 32 bit groups, least significant first, the last one carrying the
remainder. -/
def serializeOffset128 (bits : U32) : Action (S × U128) Unit := do
  debugAssert (1 ≤ bits ∧ bits ≤ 128)
  let offset ← load
  let group0 : U32 := offset.setWidth 32
  let group1 : U32 := (offset >>> 32).setWidth 32
  let group2 : U32 := (offset >>> 64).setWidth 32
  let group3 : U32 := (offset >>> 96).setWidth 32
  if bits ≤ 32 then do
    let group0 ← inLocal group0 (serializeBits bits)
    whenReading (store (joinGroups group0 group1 group2 group3))
  else if bits ≤ 64 then do
    let group0 ← inLocal group0 (serializeBits 32)
    let rest ← checkedSubBits bits 32
    let group1 ← inLocal group1 (serializeBits rest)
    whenReading (store (joinGroups group0 group1 group2 group3))
  else if bits ≤ 96 then do
    let group0 ← inLocal group0 (serializeBits 32)
    let group1 ← inLocal group1 (serializeBits 32)
    let rest ← checkedSubBits bits 64
    let group2 ← inLocal group2 (serializeBits rest)
    whenReading (store (joinGroups group0 group1 group2 group3))
  else do
    let group0 ← inLocal group0 (serializeBits 32)
    let group1 ← inLocal group1 (serializeBits 32)
    let group2 ← inLocal group2 (serializeBits 32)
    let rest ← checkedSubBits bits 96
    let group3 ← inLocal group3 (serializeBits rest)
    whenReading (store (joinGroups group0 group1 group2 group3))

def serializeInt128 (min max : I128) : Action (S × I128) Unit := do
  onState (declarationCheck (min.sle max = true))
  if min = max then do
    onState refuseIfFailed
    whenReading (store min)
  else do
    let range : U128 := max - min
    let bits := bitsRequired128 0 range
    let value ← load
    whenWriting do
      debugAssert (min.sle value = true)
      debugAssert (value.sle max = true)
    let offset ← inLocal (if isWriting S then value - min else 0) (serializeOffset128 bits)
    whenReading
      (if range < offset then onState (fail .valueOutOfRange)
      else store (offset + min))

/-! ### Raw fields -/

def serializeBits64 (bits : U32) : Action (S × U64) Unit := do
  onState (declarationCheck (1 ≤ bits ∧ bits ≤ 64))
  let value ← load
  whenWriting (inChecked do
    noOverflow (bits.toNat < 128)
    require (value.toNat < 2 ^ bits.toNat))
  let value ← serializeDwords value bits
  whenReading (store value)

def serializeBool : Action (S × Bool) Unit := do
  let value ← load
  let unsignedValue ← inLocal (if isWriting S && value then 1 else 0) (serializeBits 1)
  whenReading (store (decide (unsignedValue ≠ 0)))

/-- `serialize_u8` and `serialize_u16`: a narrow integer through a 32 bit local. -/
def serializeNarrow (w : Nat) : Action (S × BitVec w) Unit := do
  let value ← load
  let unsignedValue ← inLocal (value.setWidth 32) (serializeBits (BitVec.ofNat 32 w))
  whenReading (store (unsignedValue.setWidth w))

def serializeU8 : Action (S × U8) Unit := serializeNarrow 8

def serializeU16 : Action (S × U16) Unit := serializeNarrow 16

def serializeU32 : Action (S × U32) Unit := serializeBits 32

def serializeU64 : Action (S × U64) Unit := serializeBits64 64

def serializeU128 : Action (S × U128) Unit := do
  let value ← load
  let lo ← inLocal (value.setWidth 64) (serializeBits64 64)
  let hi ← inLocal ((value >>> 64).setWidth 64) (serializeBits64 64)
  whenReading (store (hi.setWidth 128 <<< 64 ||| lo.setWidth 128))

/-- The exponent field is not all ones. -/
def floatBitsAreFinite (bits : U32) : Bool := bits &&& 0x7F800000 != 0x7F800000

def doubleBitsAreFinite (bits : U64) : Bool := bits &&& 0x7FF0000000000000 != 0x7FF0000000000000

def serializeF32 : Action (S × F32) Unit := do
  let value ← load
  whenWriting (debugAssert (floatBitsAreFinite value = true))
  let intValue ← inLocal (if isWriting S then value else 0) (serializeBits 32)
  whenReading
    (if floatBitsAreFinite intValue then store intValue
    else onState (fail .nonFiniteFloat))

def serializeF64 : Action (S × F64) Unit := do
  let value ← load
  whenWriting (debugAssert (doubleBitsAreFinite value = true))
  let intValue ← inLocal (if isWriting S then value else 0) (serializeBits64 64)
  whenReading
    (if doubleBitsAreFinite intValue then store intValue
    else onState (fail .nonFiniteFloat))

end Provided

end Serialize
