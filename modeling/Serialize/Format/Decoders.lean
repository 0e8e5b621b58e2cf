import Serialize.Decode.Code
import Serialize.Format.Encoding

/-!
# The decoder of each operation

What a read stream asks for in each operation, as a decoder over the bits of the packet: the reading
half of the operation, with the stream, the caller's value and the window loads gone. A wide field
is still asked for in its groups, because a packet that ends inside it has consumed the groups
before.
-/

namespace Serialize

open Machine BitString Decode
open Binary32 (Arithmetic)
open Utf8 (Text fromUtf8)

instance : PastEnd Error := ⟨.pastEnd⟩

namespace Decoders

def refuseWith {α : Type} (error : Error) : Decoder Error α := .refuse 0 error

/-- A declaration, checked before any bits are asked for. -/
def declare (declared : Prop) [Decidable declared] : Decoder Error Unit :=
  if declared then .accept () else refuseWith .valueOutOfRange

/-- No bits at all: only the latch is consulted. -/
def gate : Decoder Error Unit := .payload 0 fun _ => .accept ()

/-- A group of up to 32 bits. -/
def group (width : U32) : Decoder Error U32 :=
  if 1 ≤ width.toNat ∧ width.toNat ≤ 32 then
    .field width fun taken => .accept (BitVec.ofNat 32 (ofBits taken))
  else .refuse width .valueOutOfRange

/-- Padding up to the next byte boundary, all of it zero. -/
def align : Decoder Error Unit :=
  .locate fun position => .field (BitVec.ofNat 32 (byteBoundary position)) fun taken =>
    if ofBits taken = 0 then .accept () else refuseWith .nonzeroPadding

/-- A run of whole bytes. -/
def octets (count : Nat) : Decoder Error (List.Vector U8 count) :=
  .payload (8 * count) fun taken => .accept ⟨octetsOfBits count taken, length_octetsOfBits count taken⟩

def dwords (width : U32) : Decoder Error U64 :=
  if width ≤ 32 then do
    let lo ← group width
    return lo.setWidth 64
  else do
    let lo ← group 32
    let hi ← group (width - 32)
    return hi.setWidth 64 <<< 32 ||| lo.setWidth 64

def offset128 (width : U32) : Decoder Error U128 :=
  if width ≤ 32 then do
    let group0 ← group width
    return joinGroups group0 0 0 0
  else if width ≤ 64 then do
    let group0 ← group 32
    let group1 ← group (width - 32)
    return joinGroups group0 group1 0 0
  else if width ≤ 96 then do
    let group0 ← group 32
    let group1 ← group 32
    let group2 ← group (width - 64)
    return joinGroups group0 group1 group2 0
  else do
    let group0 ← group 32
    let group1 ← group 32
    let group2 ← group 32
    let group3 ← group (width - 96)
    return joinGroups group0 group1 group2 group3

/-- A ranged integer of any width, given the decoder of its offset. -/
def ranged {w : Nat} (offset : Decoder Error (BitVec w)) (min max : BitVec w) :
    Decoder Error (BitVec w) := do
  declare (min.sle max = true)
  if min = max then do
    gate
    return min
  else do
    let value ← offset
    if max - min < value then refuseWith .valueOutOfRange else return value + min

def int (min max : I32) : Decoder Error I32 := ranged (group (bitsRequired 0 (max - min))) min max

def int64 (min max : I64) : Decoder Error I64 := ranged (dwords (bitsRequired64 0 (max - min))) min max

def int128 (min max : I128) : Decoder Error I128 :=
  ranged (offset128 (bitsRequired128 0 (max - min))) min max

def bits64 (width : U32) : Decoder Error U64 := do
  declare (1 ≤ width ∧ width ≤ 64)
  dwords width

def bool : Decoder Error Bool := do
  let value ← group 1
  return decide (value ≠ 0)

def narrow (w : Nat) : Decoder Error (BitVec w) := do
  let value ← group (BitVec.ofNat 32 w)
  return value.setWidth w

def u128 : Decoder Error U128 := do
  let lo ← bits64 64
  let hi ← bits64 64
  return hi.setWidth 128 <<< 64 ||| lo.setWidth 128

def f32 : Decoder Error F32 := do
  let value ← group 32
  if floatBitsAreFinite value then return value else refuseWith .nonFiniteFloat

def f64 : Decoder Error F64 := do
  let value ← bits64 64
  if doubleBitsAreFinite value then return value else refuseWith .nonFiniteFloat

/-- The bounds in whole units fit the whole unit capacity of the Q format. -/
def Capacity (T : FixedPointStorage) (integerBits : U32) (minUnits maxUnits : I64) : Prop :=
  if T.signed then
    (-(1#128 <<< (integerBits.toNat - 1))).sle (minUnits.signExtend 128) = true
      ∧ (maxUnits.signExtend 128).sle ((1#128 <<< (integerBits.toNat - 1)) - 1#128) = true
  else
    (0 : I64).sle minUnits = true
      ∧ (64 ≤ integerBits.toNat ∨ maxUnits < 1#64 <<< integerBits.toNat)

instance (T : FixedPointStorage) (integerBits : U32) (minUnits maxUnits : I64) :
    Decidable (Capacity T integerBits minUnits maxUnits) :=
  inferInstanceAs (Decidable (if T.signed then _ else _))

def fixed (T : FixedPointStorage) (integerBits fractionBits : U32) (minUnits maxUnits : I64) :
    Decoder Error (BitVec T.bits) := do
  declare (1 ≤ integerBits.toNat)
  declare (integerBits.toNat + fractionBits.toNat = T.bits)
  declare (minUnits.sle maxUnits = true)
  declare (Capacity T integerBits minUnits maxUnits)
  let rawMin : U128 := minUnits.signExtend 128 <<< fractionBits.toNat
  let rawRange : U128 :=
    (maxUnits.signExtend 128 - minUnits.signExtend 128) <<< fractionBits.toNat
  if minUnits = maxUnits then do
    gate
    return T.fromUnsigned rawMin
  else do
    let offset ← offset128 (bitLength rawRange)
    if rawRange < offset then refuseWith .valueOutOfRange
    else return T.fromUnsigned (rawMin + offset)

/-- The check every bounded tier of a relative integer ends in. -/
def relative (previous : I32) (reconstructed : Int) : Decoder Error I32 :=
  if intRelativeInDomain previous reconstructed then .accept (BitVec.ofInt 32 reconstructed)
  else refuseWith .valueOutOfRange

def absolute (previous : I32) : Decoder Error I32 := do
  let value ← group 32
  if ¬intRelativeInDomain previous value.toNat then refuseWith .valueOutOfRange
  else if (value.toNat : Int) - previous.toInt ≤ 69914 then refuseWith .nonCanonical
  else return BitVec.ofInt 32 value.toNat

def tiers (previous : I32) : List (U32 × I32 × I32) → Decoder Error I32
  | [] => absolute previous
  | (_, low, high) :: rest => do
      let inBucket ← bool
      if inBucket = true then do
        let difference ← int low high
        relative previous (previous.toInt + difference.toInt)
      else tiers previous rest

def intRelative (previous : I32) : Decoder Error I32 := do
  declare ((0 : I32).sle previous = true)
  let oneBit ← bool
  if oneBit = true then relative previous (previous.toInt + 1) else tiers previous buckets

def bytes (count : Nat) : Decoder Error (List.Vector U8 count) := do
  align
  octets count

/-- The payload of a string: the NUL scan before the encoding is checked. -/
def text (payload : List U8) : Decoder Error Text :=
  if payload.contains 0 then refuseWith .embeddedNul
  else (fromUtf8 payload).elim (refuseWith .invalidUtf8) .accept

def string (bufferSize : Nat) : Decoder Error Text :=
  if bufferSize = 0 ∨ i32Max < bufferSize then refuseWith .valueOutOfRange
  else do
    let length ← int 0 (BitVec.ofNat 32 bufferSize - 1)
    let payload ← bytes (length.signExtend 64).toNat
    text payload.toList

variable [Arithmetic]

def compressedFloatPrecomputed (maxIntegerValue width : U32) (delta min : F32) :
    Decoder Error F32 := do
  declare (1 ≤ maxIntegerValue ∧ maxIntegerValue ≤ 4294967040)
  declare (width = bitsRequired 0 maxIntegerValue)
  declare (Binary32.lt Binary32.zero delta = true)
  declare (Binary32.isFinite delta = true)
  let value ← group width
  if maxIntegerValue < value then refuseWith .valueOutOfRange
  else
    let decoded := decodeCompressed value maxIntegerValue delta min
    if floatBitsAreFinite decoded then return decoded else refuseWith .nonFiniteFloat

def compressedFloat (min max resolution : F32) : Decoder Error F32 := do
  declare (Binary32.lt min max = true ∧ Binary32.lt Binary32.zero resolution = true)
  declare (Binary32.isFinite (Arithmetic.sub max min) = true)
  declare (Binary32.isFinite (Arithmetic.div (Arithmetic.sub max min) resolution) = true)
  let params := compressedFloatParams min max resolution
  compressedFloatPrecomputed params.maxIntegerValue params.bits params.delta min

end Decoders

/-- The decoder of an operation. -/
def Operation.decoder [Arithmetic] : (operation : Operation) → Decoder Error operation.Value
  | .bits width => Decoders.group width
  | .bits64 width => Decoders.bits64 width
  | .bool => Decoders.bool
  | .u8 => Decoders.narrow 8
  | .u16 => Decoders.narrow 16
  | .u32 => Decoders.group 32
  | .u64 => Decoders.bits64 64
  | .u128 => Decoders.u128
  | .int min max => Decoders.int min max
  | .int64 min max => Decoders.int64 min max
  | .int128 min max => Decoders.int128 min max
  | .fixed T integerBits fractionBits minUnits maxUnits =>
      Decoders.fixed T integerBits fractionBits minUnits maxUnits
  | .intRelative previous => Decoders.intRelative previous
  | .f32 => Decoders.f32
  | .f64 => Decoders.f64
  | .bytes count => Decoders.bytes count
  | .string bufferSize => Decoders.string bufferSize
  | .align => Decoders.align
  | .compressedFloat min max resolution => Decoders.compressedFloat min max resolution
  | .compressedFloatPrecomputed maxIntegerValue width delta min =>
      Decoders.compressedFloatPrecomputed maxIntegerValue width delta min

/-! ### Every operation asks for something

An operation that carries no bits still consults the latch. -/

namespace Decoders

variable {α : Type}

theorem declare_bind_guarded {declared : Prop} [Decidable declared] {next : Unit → Decoder Error α}
    (h : (next ()).Guarded) : ((declare declared).bind next).Guarded := by
  rw [declare]
  split
  · exact h
  · trivial

theorem group_guarded (width : U32) : (group width).Guarded := by
  rw [group]
  split
  · trivial
  · trivial

theorem align_guarded : align.Guarded := fun _ => trivial

theorem dwords_guarded (width : U32) : (dwords width).Guarded := by
  rw [dwords]
  split
  · exact (group_guarded _).bind _
  · exact (group_guarded _).bind _

theorem offset128_guarded (width : U32) : (offset128 width).Guarded := by
  rw [offset128]
  split
  · exact (group_guarded _).bind _
  split
  · exact (group_guarded _).bind _
  split
  · exact (group_guarded _).bind _
  · exact (group_guarded _).bind _

theorem ranged_guarded {w : Nat} {offset : Decoder Error (BitVec w)} (h : offset.Guarded)
    (min max : BitVec w) : (ranged offset min max).Guarded := by
  refine declare_bind_guarded ?_
  split
  · trivial
  · exact h.bind _

theorem bits64_guarded (width : U32) : (bits64 width).Guarded :=
  declare_bind_guarded (dwords_guarded width)

theorem fixed_guarded (T : FixedPointStorage) (integerBits fractionBits : U32)
    (minUnits maxUnits : I64) : (fixed T integerBits fractionBits minUnits maxUnits).Guarded := by
  refine declare_bind_guarded (declare_bind_guarded (declare_bind_guarded
    (declare_bind_guarded ?_)))
  dsimp only
  split
  · trivial
  · exact (offset128_guarded _).bind _

theorem intRelative_guarded (previous : I32) : (intRelative previous).Guarded :=
  declare_bind_guarded (((group_guarded 1).bind _).bind _)

theorem string_guarded (bufferSize : Nat) : (string bufferSize).Guarded := by
  rw [string]
  split
  · trivial
  · exact (ranged_guarded (group_guarded _) _ _).bind _

variable [Arithmetic]

theorem compressedFloatPrecomputed_guarded (maxIntegerValue width : U32) (delta min : F32) :
    (compressedFloatPrecomputed maxIntegerValue width delta min).Guarded :=
  declare_bind_guarded (declare_bind_guarded (declare_bind_guarded (declare_bind_guarded
    ((group_guarded width).bind _))))

theorem compressedFloat_guarded (min max resolution : F32) :
    (compressedFloat min max resolution).Guarded :=
  declare_bind_guarded (declare_bind_guarded (declare_bind_guarded
    (compressedFloatPrecomputed_guarded _ _ _ _)))

end Decoders

theorem Operation.decoder_guarded [Arithmetic] (operation : Operation) :
    operation.decoder.Guarded := by
  cases operation with
  | bits width => exact Decoders.group_guarded width
  | bits64 width => exact Decoders.bits64_guarded width
  | bool => exact (Decoders.group_guarded 1).bind _
  | u8 => exact (Decoders.group_guarded _).bind _
  | u16 => exact (Decoders.group_guarded _).bind _
  | u32 => exact Decoders.group_guarded 32
  | u64 => exact Decoders.bits64_guarded 64
  | u128 => exact (Decoders.bits64_guarded 64).bind _
  | int min max => exact Decoders.ranged_guarded (Decoders.group_guarded _) min max
  | int64 min max => exact Decoders.ranged_guarded (Decoders.dwords_guarded _) min max
  | int128 min max => exact Decoders.ranged_guarded (Decoders.offset128_guarded _) min max
  | fixed T integerBits fractionBits minUnits maxUnits =>
      exact Decoders.fixed_guarded T integerBits fractionBits minUnits maxUnits
  | intRelative previous => exact Decoders.intRelative_guarded previous
  | f32 => exact (Decoders.group_guarded 32).bind _
  | f64 => exact (Decoders.bits64_guarded 64).bind _
  | bytes count => exact Decoders.align_guarded.bind _
  | string bufferSize => exact Decoders.string_guarded bufferSize
  | align => exact Decoders.align_guarded
  | compressedFloat min max resolution => exact Decoders.compressedFloat_guarded min max resolution
  | compressedFloatPrecomputed maxIntegerValue width delta min =>
      exact Decoders.compressedFloatPrecomputed_guarded maxIntegerValue width delta min

/-! ### Why a decoder refuses -/

/-- How a decoder leaves a cursor: by a refusal and its reason, or by none. -/
def SettlesAs {α : Type} : Option Error → Outcome Error (Cursor Error) α → Prop
  | none, .ok _ c => c.Live
  | some error, .err error' c => error' = error ∧ c.failed = some error
  | _, _ => False

theorem Decoders.latch_settles {α : Type} {c : Cursor Error} (hlive : c.Live) (error : Error) :
    SettlesAs (some error) (c.latch error : Outcome Error (Cursor Error) α) := by
  rw [Cursor.latch_of_live hlive]
  exact ⟨rfl, rfl⟩

end Serialize
