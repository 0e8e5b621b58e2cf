import Serialize.Format.Domain

/-!
# The reference encoding

What each operation contributes to the bit string of a packet, in mathematical integers and low bit
first, with no groups, no scratch and no machine arithmetic. The encoding of an operation depends on
its bit position only through alignment, and alignment is a parameter: a packet aligns to the next
byte boundary, a measure counts every alignment at its worst.
-/

namespace Serialize

open BitString
open Binary32 (Arithmetic)

/-- The bits up to the next byte boundary. -/
def byteBoundary (position : Nat) : Nat := (8 - position % 8) % 8

/-- The worst case of an alignment, whatever the position. -/
def worstAlignment (_position : Nat) : Nat := 7

/-- A ranged integer: the offset from the bottom of the range, in the bit length of its span. -/
def rangedBits (min max value : Int) : List Bool :=
  toBits (Nat.size (max - min).toNat) (value - min).toNat

/-- The bounded tiers of a relative integer after the one-bit one. -/
def relativeTiers : List (Int × Int) := [(2, 6), (7, 23), (24, 280), (281, 4377), (4378, 69914)]

/-- A relative integer past the one-bit tier: one flag for each tier up to the first that holds the
difference, then the tier's payload, or the value itself where no tier holds it. -/
def tierBits (difference current : Int) : List (Int × Int) → List Bool
  | [] => toBits 32 current.toNat
  | (low, high) :: rest =>
      if difference ≤ high then true :: rangedBits low high difference
      else false :: tierBits difference current rest

def relativeBits (previous current : Int) : List Bool :=
  if current - previous = 1 then [true]
  else false :: tierBits (current - previous) current relativeTiers

section Alignment

variable (alignment : Nat → Nat)

/-- Zeros up to the next boundary. -/
def alignCode (position : Nat) : List Bool := List.replicate (alignment position) false

/-- An alignment, then the bytes. -/
def bytesCode (position : Nat) (bytes : List U8) : List Bool :=
  alignCode alignment position ++ bitsOfOctets bytes

/-- The length of a string's bytes, then the bytes. -/
def stringCode (bufferSize position : Nat) (bytes : List U8) : List Bool :=
  let length := rangedBits 0 (bufferSize - 1) bytes.length
  length ++ bytesCode alignment (position + length.length) bytes

/-- The bits an operation contributes at a position. -/
def Operation.encode [Arithmetic] (position : Nat) : (operation : Operation) → operation.Value →
    List Bool
  | .bits width, value => toBits width.toNat value.toNat
  | .bits64 width, value => toBits width.toNat value.toNat
  | .bool, value => [value]
  | .u8, value => toBits 8 value.toNat
  | .u16, value => toBits 16 value.toNat
  | .u32, value => toBits 32 value.toNat
  | .u64, value => toBits 64 value.toNat
  | .u128, value => toBits 128 value.toNat
  | .int min max, value => rangedBits min.toInt max.toInt value.toInt
  | .int64 min max, value => rangedBits min.toInt max.toInt value.toInt
  | .int128 min max, value => rangedBits min.toInt max.toInt value.toInt
  | .fixed T _ fractionBits minUnits maxUnits, value =>
      rangedBits (rawBound minUnits fractionBits) (rawBound maxUnits fractionBits) (T.toInt value)
  | .intRelative previous, current => relativeBits previous.toInt current.toInt
  | .f32, value => toBits 32 value.toNat
  | .f64, value => toBits 64 value.toNat
  | .bytes _, value => bytesCode alignment position value.toList
  | .string bufferSize, value => stringCode alignment bufferSize position value.bytes
  | .align, _ => alignCode alignment position
  | .compressedFloat min max resolution, value =>
      let params := compressedFloatParams min max resolution
      toBits params.bits.toNat (quantize value params.maxIntegerValue params.delta min).toNat
  | .compressedFloatPrecomputed maxIntegerValue width delta min, value =>
      toBits width.toNat (quantize value maxIntegerValue delta min).toNat

/-- The bits of a sequence of operations, one after another. -/
def encodeAll [Arithmetic] : Nat → List Carried → List Bool
  | _, [] => []
  | position, carried :: rest =>
      let code := carried.1.encode alignment position carried.2
      code ++ encodeAll (position + code.length) rest

theorem encodeAll_singleton [Arithmetic] (position : Nat) (entry : Carried) :
    encodeAll alignment position [entry] = entry.1.encode alignment position entry.2 :=
  List.append_nil _

theorem encodeAll_append [Arithmetic] (position : Nat) (first second : List Carried) :
    encodeAll alignment position (first ++ second) = encodeAll alignment position first
      ++ encodeAll alignment (position + (encodeAll alignment position first).length) second := by
  induction first generalizing position with
  | nil => rfl
  | cons carried rest ih =>
      rw [List.cons_append, encodeAll, encodeAll, ih, List.append_assoc, List.length_append,
        Nat.add_assoc]

end Alignment

/-! ### Lengths -/

theorem byteBoundary_le (position : Nat) : byteBoundary position ≤ 7 := by
  rw [byteBoundary]
  omega

theorem length_alignCode (alignment : Nat → Nat) (position : Nat) :
    (alignCode alignment position).length = alignment position :=
  List.length_replicate

theorem length_bytesCode (alignment : Nat → Nat) (position : Nat) (bytes : List U8) :
    (bytesCode alignment position bytes).length = alignment position + 8 * bytes.length := by
  rw [bytesCode, List.length_append, length_alignCode, length_bitsOfOctets]

theorem length_stringCode (alignment : Nat → Nat) (bufferSize position : Nat) (bytes : List U8) :
    (stringCode alignment bufferSize position bytes).length = Nat.size (bufferSize - 1)
      + (alignment (position + Nat.size (bufferSize - 1)) + 8 * bytes.length) := by
  have hspan : ((bufferSize : Int) - 1 - 0).toNat = bufferSize - 1 := by omega
  rw [stringCode, List.length_append, length_bytesCode, rangedBits, length_toBits, hspan]

end Serialize
