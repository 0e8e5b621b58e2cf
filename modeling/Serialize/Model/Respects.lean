import Serialize.Machine.Respects
import Serialize.Model.Operation

/-!
# What a relation on streams hides

A relation on streams that the primitives of a stream respect is respected by every provided method,
since a method sees the stream through its primitives alone.
-/

namespace Serialize

open Machine
open Binary32 (Arithmetic)
open Utf8 (Text)

set_option synthInstance.maxSize 1000

variable {profile : Profile} {δ : Type}

/-! ### The provided methods -/

/-- The relation hides nothing the primitives of the stream look at. -/
class CoreRespects {S : Type} [StreamCore S] (profile : Profile) (R : S → S → Prop) : Prop where
  fail : ∀ error, Respects profile R (fail error : Action S Unit)
  gate : Respects profile R (gate : Action S Unit)
  serializeBits : ∀ bits,
    Respects profile (Carrying R) (serializeBits bits : Action (S × U32) Unit)

section Provided

variable {S : Type} [StreamCore S] {R : S → S → Prop} [hcore : CoreRespects profile R]

instance (error : Error) : Respects profile R (fail error : Action S Unit) := hcore.fail error

instance : Respects profile R (gate : Action S Unit) := hcore.gate

instance (bits : U32) :
    Respects profile (Carrying R) (serializeBits bits : Action (S × U32) Unit) :=
  hcore.serializeBits bits

instance (declared : Prop) [Decidable declared] :
    Respects profile R (declarationCheck declared : Action S Unit) := by
  unfold declarationCheck
  infer_instance

instance (m : Action (S × δ) Unit) [Respects profile (Carrying R) m] :
    Respects profile (Carrying R) (whenReading m) := by
  unfold whenReading
  infer_instance

instance (m : Action (S × δ) Unit) [Respects profile (Carrying R) m] :
    Respects profile (Carrying R) (whenWriting m) := by
  unfold whenWriting
  infer_instance

instance : Respects profile R (refuseIfFailed : Action S Unit) := hcore.gate

instance : Respects profile R (reject : Action S Unit) := by
  unfold reject
  infer_instance

instance (value : U64) (bits : U32) :
    Respects profile (Carrying R) (serializeDwords value bits : Action (S × δ) U64) := by
  unfold serializeDwords
  infer_instance

instance (min max : I32) :
    Respects profile (Carrying R) (serializeInt min max : Action (S × I32) Unit) := by
  unfold serializeInt
  dsimp only
  infer_instance

instance (min max : I64) :
    Respects profile (Carrying R) (serializeInt64 min max : Action (S × I64) Unit) := by
  unfold serializeInt64
  dsimp only
  infer_instance

instance (bits : U32) :
    Respects profile (Carrying R) (serializeOffset128 bits : Action (S × U128) Unit) := by
  unfold serializeOffset128
  dsimp only
  infer_instance

instance (min max : I128) :
    Respects profile (Carrying R) (serializeInt128 min max : Action (S × I128) Unit) := by
  unfold serializeInt128
  dsimp only
  infer_instance

instance (bits : U32) :
    Respects profile (Carrying R) (serializeBits64 bits : Action (S × U64) Unit) := by
  unfold serializeBits64
  infer_instance

instance : Respects profile (Carrying R) (serializeBool : Action (S × Bool) Unit) := by
  unfold serializeBool
  infer_instance

instance (w : Nat) :
    Respects profile (Carrying R) (serializeNarrow w : Action (S × BitVec w) Unit) := by
  unfold serializeNarrow
  infer_instance

instance : Respects profile (Carrying R) (serializeU128 : Action (S × U128) Unit) := by
  unfold serializeU128
  infer_instance

instance : Respects profile (Carrying R) (serializeF32 : Action (S × F32) Unit) := by
  unfold serializeF32
  infer_instance

instance : Respects profile (Carrying R) (serializeF64 : Action (S × F64) Unit) := by
  unfold serializeF64
  infer_instance

instance (T : FixedPointStorage) (integerBits : U32) (minUnits maxUnits : I64) :
    Respects profile R (capacityCheck T integerBits minUnits maxUnits : Action S Unit) := by
  unfold capacityCheck
  dsimp only
  infer_instance

instance (T : FixedPointStorage) (integerBits fractionBits : U32) (minUnits maxUnits : I64) :
    Respects profile (Carrying R) (serializeFixed T integerBits fractionBits minUnits maxUnits :
      Action (S × BitVec T.bits) Unit) := by
  unfold serializeFixed
  dsimp only
  refine Respects.bind inferInstance fun _ => Respects.bind inferInstance fun _ =>
    Respects.bind inferInstance fun _ => Respects.bind inferInstance fun _ =>
    Respects.bind inferInstance fun _ => Respects.bind inferInstance fun _ => ?_
  infer_instance

instance (previous : I32) (reconstructed : Int) :
    Respects profile (Carrying R) (acceptIntRelative previous reconstructed :
      Action (S × I32) Unit) := by
  unfold acceptIntRelative
  infer_instance

instance (previous : I32) :
    Respects profile (Carrying R) (serializeAbsolute previous : Action (S × I32) Unit) := by
  unfold serializeAbsolute
  dsimp only
  infer_instance

instance (previous : I32) (difference : U32) (tiers : List (U32 × I32 × I32)) :
    Respects profile (Carrying R) (serializeBuckets previous difference tiers :
      Action (S × I32) Unit) := by
  induction tiers with
  | nil =>
      unfold serializeBuckets
      infer_instance
  | cons tier tiers ih =>
      unfold serializeBuckets
      infer_instance

instance (previous : I32) :
    Respects profile (Carrying R) (serializeIntRelative previous : Action (S × I32) Unit) := by
  unfold serializeIntRelative
  dsimp only
  infer_instance

variable [Arithmetic]

instance {σ : Type} {R : σ → σ → Prop} (min max resolution : F32) :
    Respects profile R (serializeCompressedFloatParams min max resolution :
      Action σ CompressedFloatParams) := by
  unfold serializeCompressedFloatParams
  infer_instance

instance (maxIntegerValue bits : U32) (delta min : F32) :
    Respects profile (Carrying R) (serializeCompressedFloatPrecomputed maxIntegerValue bits delta min :
      Action (S × F32) Unit) := by
  unfold serializeCompressedFloatPrecomputed
  dsimp only
  refine Respects.bind inferInstance fun _ => Respects.bind inferInstance fun _ => ?_
  infer_instance

instance (min max resolution : F32) :
    Respects profile (Carrying R) (serializeCompressedFloat min max resolution :
      Action (S × F32) Unit) := by
  unfold serializeCompressedFloat
  infer_instance

end Provided

/-! ### Streams -/

/-- The relation hides nothing the stream's own methods look at. -/
class StreamRespects {S : Type} [Stream S] (profile : Profile) (R : S → S → Prop) : Prop
    extends CoreRespects profile R where
  serializeBytes : ∀ n,
    Respects profile (Carrying R) (serializeBytes : Action (S × List.Vector U8 n) Unit)
  serializeAlign : Respects profile R (serializeAlign : Action S Unit)
  serializeString : ∀ bufferSize,
    Respects profile (Carrying R) (serializeString bufferSize : Action (S × Text) Unit)

instance {σ : Type} {R : σ → σ → Prop} (bufferSize : Nat) :
    Respects profile R (largestLength bufferSize : Action σ I32) := by
  unfold largestLength
  infer_instance

instance [Arithmetic] {S : Type} [Stream S] {R : S → S → Prop} [h : StreamRespects profile R]
    (operation : Operation) :
    Respects profile (Carrying R) (operation.run : Action (S × operation.Value) Unit) := by
  cases operation with
  | bytes count => exact h.serializeBytes count
  | string bufferSize => exact h.serializeString bufferSize
  | align =>
      have halign := h.serializeAlign
      show Respects profile (Carrying R) (onState serializeAlign)
      infer_instance
  | _ =>
      dsimp only [Operation.run, serializeU8, serializeU16, serializeU32, serializeU64]
      infer_instance

end Serialize
