import Serialize.Model.ReadStream
import Serialize.Model.MeasureStream

/-!
# The built-in operations

Every operation of the stream interface that carries a value, as data: which method is called, with
which declaration. The type of the value an operation carries depends on the operation.
-/

namespace Serialize

open Machine
open Binary32 (Arithmetic)
open Utf8 (Text)

/-- A call of a built-in operation, its declaration filled in. -/
inductive Operation where
  | bits (width : U32)
  | bits64 (width : U32)
  | bool
  | u8
  | u16
  | u32
  | u64
  | u128
  | int (min max : I32)
  | int64 (min max : I64)
  | int128 (min max : I128)
  | fixed (T : FixedPointStorage) (integerBits fractionBits : U32) (minUnits maxUnits : I64)
  | intRelative (previous : I32)
  | f32
  | f64
  | bytes (count : Nat)
  | string (bufferSize : Nat)
  | align
  | compressedFloat (min max resolution : F32)
  | compressedFloatPrecomputed (maxIntegerValue width : U32) (delta min : F32)
  deriving DecidableEq, Repr

namespace Operation

/-- What the operation carries. -/
abbrev Value : Operation → Type
  | .bits _ => U32
  | .bits64 _ => U64
  | .bool => Bool
  | .u8 => U8
  | .u16 => U16
  | .u32 => U32
  | .u64 => U64
  | .u128 => U128
  | .int _ _ => I32
  | .int64 _ _ => I64
  | .int128 _ _ => I128
  | .fixed T _ _ _ _ => BitVec T.bits
  | .intRelative _ => I32
  | .f32 => F32
  | .f64 => F64
  | .bytes count => List.Vector U8 count
  | .string _ => Text
  | .align => Unit
  | .compressedFloat _ _ _ => F32
  | .compressedFloatPrecomputed _ _ _ _ => F32

/-- A variable to which nothing was stored yet. -/
def blank : (operation : Operation) → operation.Value
  | .bits _ | .bits64 _ | .u8 | .u16 | .u32 | .u64 | .u128 => 0
  | .int _ _ | .int64 _ _ | .int128 _ _ | .fixed _ _ _ _ _ | .intRelative _ => 0
  | .f32 | .f64 | .compressedFloat _ _ _ | .compressedFloatPrecomputed _ _ _ _ => 0
  | .bool => false
  | .bytes count => List.Vector.replicate count 0
  | .string _ => ⟨[], rfl⟩
  | .align => ()

/-- The operation on a stream, over the caller's value. -/
def run {S : Type} [Stream S] [Arithmetic] : (operation : Operation) →
    Action (S × operation.Value) Unit
  | .bits width => serializeBits width
  | .bits64 width => serializeBits64 width
  | .bool => serializeBool
  | .u8 => serializeU8
  | .u16 => serializeU16
  | .u32 => serializeU32
  | .u64 => serializeU64
  | .u128 => serializeU128
  | .int min max => serializeInt min max
  | .int64 min max => serializeInt64 min max
  | .int128 min max => serializeInt128 min max
  | .fixed T integerBits fractionBits minUnits maxUnits =>
      serializeFixed T integerBits fractionBits minUnits maxUnits
  | .intRelative previous => serializeIntRelative previous
  | .f32 => serializeF32
  | .f64 => serializeF64
  | .bytes _ => serializeBytes
  | .string bufferSize => serializeString bufferSize
  | .align => onState serializeAlign
  | .compressedFloat min max resolution => serializeCompressedFloat min max resolution
  | .compressedFloatPrecomputed maxIntegerValue width delta min =>
      serializeCompressedFloatPrecomputed maxIntegerValue width delta min

/-- Every operation other than the compressed floats carries its value exactly. -/
def Exact : Operation → Prop
  | .compressedFloat _ _ _ => False
  | .compressedFloatPrecomputed _ _ _ _ => False
  | _ => True

/-- The operation aligns the stream. -/
def Aligns : Operation → Prop
  | .align => True
  | .bytes _ => True
  | .string _ => True
  | _ => False

end Operation

/-- An operation and the value it carries. -/
abbrev Carried := (operation : Operation) × operation.Value

end Serialize
