import Serialize.Machine.Latch
import Serialize.Reader.Primitives

/-!
# What a refusal leaves

Whatever a read refuses with is latched, and the caller's value is then as it was; a read that returns
leaves the latch alone. This is how the operations are put together: it holds under every profile and
wherever the stream stands.
-/

namespace Serialize

open Machine
open Binary32 (Arithmetic)
open Utf8 (Text)

set_option synthInstance.maxSize 1000

instance : Latched Error ReadStream := ⟨ReadStream.failed⟩

/-! ### The primitives of the reader -/

namespace BitReader

instance : Infallible bitsRemaining := by
  unfold bitsRemaining
  infer_instance

instance (byteIndex : Nat) : Infallible (loadWindow byteIndex) := by
  unfold loadWindow loadWindowSlow
  dsimp only
  infer_instance

instance (bits : U32) : Infallible (wouldReadPastEnd bits) := by
  unfold wouldReadPastEnd
  infer_instance

instance (bits : U32) : Infallible (readBits bits) := by
  unfold readBits
  dsimp only
  infer_instance

instance : Infallible readAlign := by
  unfold readAlign
  dsimp only
  infer_instance

instance (bytes : Nat) : Infallible (readByteSlice bytes) := by
  unfold readByteSlice
  dsimp only
  infer_instance

end BitReader

namespace ReadStream

variable {α : Type}

instance (error : Error) : Steady (latch error : Action ReadStream α) := ⟨fun h => by cases h⟩

instance (error : Error) : Reports (latch error : Action ReadStream α) where
  latched_of_err h := by
    cases h
    rfl

theorem of_refuseIfLatched_eq_ok {profile : Profile} {stream stream' : ReadStream}
    (h : refuseIfLatched profile stream = .ok () stream') : stream' = stream ∧ stream.failed = none := by
  rw [refuseIfLatched_eq] at h
  cases hfailed : stream.failed with
  | none =>
      rw [hfailed] at h
      cases h
      exact ⟨rfl, rfl⟩
  | some error =>
      rw [hfailed] at h
      cases h

theorem of_refuseIfLatched_eq_err {profile : Profile} {stream stream' : ReadStream} {error : Error}
    (h : refuseIfLatched profile stream = .err error stream') :
    stream' = stream ∧ stream.failed = some error := by
  rw [refuseIfLatched_eq] at h
  cases hfailed : stream.failed with
  | none =>
      rw [hfailed] at h
      cases h
  | some reason =>
      rw [hfailed] at h
      cases h
      exact ⟨rfl, rfl⟩

instance : Steady refuseIfLatched := ⟨fun h => by rw [(of_refuseIfLatched_eq_ok h).1]⟩

instance : Reports refuseIfLatched where
  latched_of_err h := by
    obtain ⟨rfl, hfailed⟩ := of_refuseIfLatched_eq_err h
    exact hfailed

instance (m : Action BitReader α) : Steady (onReader m) where
  latched_eq {profile stream value stream'} h := by
    rw [onReader, focus_apply] at h
    cases hrun : m profile stream.reader with
    | ok part reader =>
        rw [hrun] at h
        cases h
        rfl
    | err error reader =>
        rw [hrun] at h
        cases h
    | trap reader =>
        rw [hrun] at h
        cases h

instance (m : Action BitReader α) [Infallible m] : Infallible (onReader m) := by
  unfold onReader
  infer_instance

instance (bits : U32) : Infallible (refuses bits) := by
  unfold refuses
  infer_instance

instance (bits : U32) : Steady (refuses bits) := by
  unfold refuses
  infer_instance

instance (bits : U32) : Steady (refuseBits bits) := by
  unfold refuseBits
  infer_instance

instance (bits : U32) : Reports (refuseBits bits) := by
  unfold refuseBits
  infer_instance

instance : Steady readAlign := by
  unfold readAlign
  infer_instance

instance : Reports readAlign := by
  unfold readAlign
  infer_instance

instance (bytes : Nat) : Steady (readPayload bytes) := by
  unfold readPayload
  infer_instance

instance (bytes : Nat) : Reports (readPayload bytes) := by
  unfold readPayload
  infer_instance

instance {n : Nat} (source : List U8) :
    Commits (copyInto source : Action (ReadStream × List.Vector U8 n) Unit) := by
  unfold copyInto
  split
  · exact {
      latched_eq := fun h => by
        cases h
        rfl
      of_err := fun h => by cases h }
  · infer_instance

instance : Steady readEnd := by
  unfold readEnd
  dsimp only
  infer_instance

instance : Reports readEnd := by
  unfold readEnd
  dsimp only
  infer_instance

instance (bits : U32) : Commits (serializeBits bits : Action (ReadStream × U32) Unit) := by
  unfold serializeBits instStreamCore
  infer_instance

end ReadStream

/-! ### The provided methods on a reader -/

section Provided

variable {δ : Type}

instance (error : Error) : Steady (fail error : Action ReadStream Unit) :=
  (inferInstance : Steady (ReadStream.latch error))

instance (error : Error) : Reports (fail error : Action ReadStream Unit) :=
  (inferInstance : Reports (ReadStream.latch error))

instance : Steady (refuseIfFailed : Action ReadStream Unit) :=
  (inferInstance : Steady ReadStream.refuseIfLatched)

instance : Reports (refuseIfFailed : Action ReadStream Unit) :=
  (inferInstance : Reports ReadStream.refuseIfLatched)

instance (declared : Prop) [Decidable declared] :
    Steady (declarationCheck declared : Action ReadStream Unit) := by
  unfold declarationCheck
  show Steady (if declared then pure () else if true = true then ReadStream.latch .valueOutOfRange
    else debugAssert False)
  infer_instance

instance (declared : Prop) [Decidable declared] :
    Reports (declarationCheck declared : Action ReadStream Unit) := by
  unfold declarationCheck
  show Reports (if declared then pure () else if true = true then ReadStream.latch .valueOutOfRange
    else debugAssert False)
  infer_instance

instance (m : Action (ReadStream × δ) Unit) [Steady m] : Steady (whenReading m) := by
  unfold whenReading
  infer_instance

instance (m : Action (ReadStream × δ) Unit) [Commits m] : Commits (whenReading m) := by
  unfold whenReading
  infer_instance

instance (m : Action (ReadStream × δ) Unit) : Looks (whenWriting m) :=
  (inferInstance : Looks (pure ()))

instance (value : U64) (bits : U32) : Frames (serializeDwords value bits : Action (ReadStream × δ) U64) := by
  unfold serializeDwords
  infer_instance

instance (min max : I32) : Commits (serializeInt min max : Action (ReadStream × I32) Unit) := by
  unfold serializeInt
  dsimp only
  infer_instance

instance (min max : I64) : Commits (serializeInt64 min max : Action (ReadStream × I64) Unit) := by
  unfold serializeInt64
  dsimp only
  infer_instance

instance (bits : U32) : Commits (serializeOffset128 bits : Action (ReadStream × U128) Unit) := by
  unfold serializeOffset128
  dsimp only
  infer_instance

instance (min max : I128) : Commits (serializeInt128 min max : Action (ReadStream × I128) Unit) := by
  unfold serializeInt128
  dsimp only
  infer_instance

instance (bits : U32) : Commits (serializeBits64 bits : Action (ReadStream × U64) Unit) := by
  unfold serializeBits64
  infer_instance

instance : Commits (serializeBool : Action (ReadStream × Bool) Unit) := by
  unfold serializeBool
  infer_instance

instance (w : Nat) : Commits (serializeNarrow w : Action (ReadStream × BitVec w) Unit) := by
  unfold serializeNarrow
  infer_instance

instance : Commits (serializeU128 : Action (ReadStream × U128) Unit) := by
  unfold serializeU128
  infer_instance

instance : Commits (serializeF32 : Action (ReadStream × F32) Unit) := by
  unfold serializeF32
  infer_instance

instance : Commits (serializeF64 : Action (ReadStream × F64) Unit) := by
  unfold serializeF64
  infer_instance

instance (T : FixedPointStorage) (integerBits : U32) (minUnits maxUnits : I64) :
    Steady (capacityCheck T integerBits minUnits maxUnits : Action ReadStream Unit) := by
  unfold capacityCheck
  dsimp only
  infer_instance

instance (T : FixedPointStorage) (integerBits : U32) (minUnits maxUnits : I64) :
    Reports (capacityCheck T integerBits minUnits maxUnits : Action ReadStream Unit) := by
  unfold capacityCheck
  dsimp only
  infer_instance

instance (T : FixedPointStorage) (integerBits fractionBits : U32) (minUnits maxUnits : I64) :
    Commits (serializeFixed T integerBits fractionBits minUnits maxUnits :
      Action (ReadStream × BitVec T.bits) Unit) := by
  unfold serializeFixed
  dsimp only
  refine Frames.bind_commits inferInstance fun _ => Frames.bind_commits inferInstance fun _ =>
    Frames.bind_commits inferInstance fun _ => Frames.bind_commits inferInstance fun _ =>
    Frames.bind_commits inferInstance fun _ => Frames.bind_commits inferInstance fun _ => ?_
  infer_instance

instance (previous : I32) (reconstructed : Int) :
    Commits (acceptIntRelative previous reconstructed : Action (ReadStream × I32) Unit) := by
  unfold acceptIntRelative
  infer_instance

instance (previous : I32) : Commits (serializeAbsolute previous : Action (ReadStream × I32) Unit) := by
  unfold serializeAbsolute
  dsimp only
  infer_instance

instance (previous : I32) (difference : U32) (tiers : List (U32 × I32 × I32)) :
    Commits (serializeBuckets previous difference tiers : Action (ReadStream × I32) Unit) := by
  induction tiers with
  | nil =>
      unfold serializeBuckets
      infer_instance
  | cons tier tiers ih =>
      unfold serializeBuckets
      infer_instance

instance (previous : I32) :
    Commits (serializeIntRelative previous : Action (ReadStream × I32) Unit) := by
  unfold serializeIntRelative
  dsimp only
  infer_instance

instance {σ : Type} (bufferSize : Nat) : Looks (largestLength bufferSize : Action σ I32) := by
  unfold largestLength
  infer_instance

variable [Arithmetic]

instance {σ : Type} (min max resolution : F32) :
    Looks (serializeCompressedFloatParams min max resolution : Action σ CompressedFloatParams) := by
  unfold serializeCompressedFloatParams
  infer_instance

instance (maxIntegerValue bits : U32) (delta min : F32) :
    Commits (serializeCompressedFloatPrecomputed maxIntegerValue bits delta min :
      Action (ReadStream × F32) Unit) := by
  unfold serializeCompressedFloatPrecomputed
  dsimp only
  refine Frames.bind_commits inferInstance fun _ => Frames.bind_commits inferInstance fun _ => ?_
  infer_instance

instance (min max resolution : F32) :
    Commits (serializeCompressedFloat min max resolution : Action (ReadStream × F32) Unit) := by
  unfold serializeCompressedFloat
  infer_instance

end Provided

/-! ### Operations -/

instance {n : Nat} : Commits (serializeBytes : Action (ReadStream × List.Vector U8 n) Unit) := by
  unfold serializeBytes ReadStream.instStream
  infer_instance

instance (bufferSize : Nat) : Commits (serializeString bufferSize : Action (ReadStream × Text) Unit) := by
  have hpayload : ∀ bytes : List U8, Commits
      (match Utf8.fromUtf8 bytes with
        | some text => store text
        | none => onState (ReadStream.latch .invalidUtf8) : Action (ReadStream × Text) Unit) := by
    intro bytes
    split <;> infer_instance
  unfold serializeString ReadStream.instStream
  infer_instance

/-- **A read that refuses latches its reason and stores nothing.** -/
theorem Operation.run_commits [Arithmetic] (operation : Operation) :
    Commits (operation.run : Action (ReadStream × operation.Value) Unit) := by
  cases operation with
  | align => exact (inferInstance : Commits (onState ReadStream.readAlign))
  | _ =>
      dsimp only [Operation.run, serializeU8, serializeU16, serializeU32, serializeU64]
      infer_instance

end Serialize
