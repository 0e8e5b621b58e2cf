import Serialize.Machine.Builds
import Serialize.Model.Client
import Serialize.Model.Program

/-!
# The model under each profile

The assertions of the packer and of the streams look and do not touch, and a check on arithmetic
that holds changes nothing. So every part of the model does under a profile with fewer checks
whatever it does under one that came back from it.
-/

namespace Serialize

open Machine
open Binary32 (Arithmetic)
open Utf8 (Text)

set_option synthInstance.maxSize 1000

/-! ### The packer -/

namespace BitWriter

instance : Looks bitsAvailable := by
  unfold bitsAvailable
  infer_instance

instance (data : List U8) : ProfilesAgree (new data) := by
  unfold new
  infer_instance

instance (start : Nat) (bytes : List U8) : ProfilesAgree (copyToData start bytes) := by
  unfold copyToData
  infer_instance

instance (value : U32) (newScratchBits : Nat) : ProfilesAgree (spillScratch value newScratchBits) := by
  unfold spillScratch
  infer_instance

instance (value bits : U32) : ProfilesAgree (writeBits value bits) := by
  unfold writeBits
  infer_instance

instance : ProfilesAgree writeAlign := by
  unfold writeAlign
  dsimp only
  infer_instance

instance (bytes : List U8) : ProfilesAgree (writeEach bytes) := by
  induction bytes with
  | nil =>
      unfold writeEach
      infer_instance
  | cons byte bytes ih =>
      unfold writeEach
      infer_instance

instance (words : List U8) (numWords : Nat) : ProfilesAgree (copyWords words numWords) := by
  unfold copyWords
  infer_instance

instance (data : List U8) : ProfilesAgree (writeBytes data) := by
  unfold writeBytes
  dsimp only
  infer_instance

instance : ProfilesAgree flushBits := by
  unfold flushBits
  infer_instance

end BitWriter

namespace BitReader

instance (buffer : List U8) (bytes : Nat) : ProfilesAgree (new buffer bytes) := by
  unfold new
  infer_instance

instance : ProfilesAgree bitsRemaining := by
  unfold bitsRemaining
  infer_instance

instance (byteIndex : Nat) : ProfilesAgree (loadWindowSlow byteIndex) := by
  unfold loadWindowSlow
  dsimp only
  infer_instance

instance (byteIndex : Nat) : ProfilesAgree (loadWindow byteIndex) := by
  unfold loadWindow
  dsimp only
  infer_instance

instance (bits : U32) : ProfilesAgree (wouldReadPastEnd bits) := by
  unfold wouldReadPastEnd
  infer_instance

instance (bits : U32) : ProfilesAgree (readBits bits) := by
  unfold readBits
  dsimp only
  infer_instance

instance (widths : List U32) : ProfilesAgree (readEach widths) := by
  induction widths with
  | nil =>
      unfold readEach
      infer_instance
  | cons bits widths ih =>
      unfold readEach
      infer_instance

instance (widths : List U32) (worst : U32) (total : Nat) :
    ProfilesAgree (surveyWidths widths worst total) := by
  induction widths generalizing worst total with
  | nil =>
      unfold surveyWidths
      infer_instance
  | cons bits widths ih =>
      unfold surveyWidths
      infer_instance

instance (group : List U8) (widths : List U32) (position : Nat) :
    ProfilesAgree (readSpan group widths position) := by
  induction widths generalizing position with
  | nil =>
      unfold readSpan
      infer_instance
  | cons bits widths ih =>
      unfold readSpan
      infer_instance

instance (widths : List U32) : ProfilesAgree (readBitsGroup widths) := by
  unfold readBitsGroup
  refine ProfilesAgree.bind inferInstance fun reader => ProfilesAgree.bind inferInstance fun survey => ?_
  dsimp only
  infer_instance

instance : ProfilesAgree readAlign := by
  unfold readAlign
  dsimp only
  infer_instance

instance (bytes : Nat) : ProfilesAgree (readByteSlice bytes) := by
  unfold readByteSlice
  dsimp only
  infer_instance

end BitReader

/-! ### The provided methods -/

/-- A stream the provided methods agree on under every profile. -/
class CoreAgrees (S : Type) [StreamCore S] : Prop where
  fail : ∀ error, ProfilesAgree (fail error : Action S Unit)
  gate : ProfilesAgree (gate : Action S Unit)
  serializeBits : ∀ bits, ProfilesAgree (serializeBits bits : Action (S × U32) Unit)

section Provided

variable {S : Type} [StreamCore S] [hcore : CoreAgrees S] {δ : Type}

instance (error : Error) : ProfilesAgree (fail error : Action S Unit) := hcore.fail error

instance : ProfilesAgree (gate : Action S Unit) := hcore.gate

instance (bits : U32) : ProfilesAgree (serializeBits bits : Action (S × U32) Unit) :=
  hcore.serializeBits bits

instance (declared : Prop) [Decidable declared] :
    ProfilesAgree (declarationCheck declared : Action S Unit) := by
  unfold declarationCheck
  infer_instance

instance (m : Action (S × δ) Unit) [ProfilesAgree m] : ProfilesAgree (whenReading m) := by
  unfold whenReading
  infer_instance

instance (m : Action (S × δ) Unit) [ProfilesAgree m] : ProfilesAgree (whenWriting m) := by
  unfold whenWriting
  infer_instance

instance : ProfilesAgree (refuseIfFailed : Action S Unit) := hcore.gate

instance : ProfilesAgree (reject : Action S Unit) := by
  unfold reject
  infer_instance

instance (value : U64) (bits : U32) :
    ProfilesAgree (serializeDwords value bits : Action (S × δ) U64) := by
  unfold serializeDwords
  infer_instance

instance (min max : I32) : ProfilesAgree (serializeInt min max : Action (S × I32) Unit) := by
  unfold serializeInt
  dsimp only
  infer_instance

instance (min max : I64) : ProfilesAgree (serializeInt64 min max : Action (S × I64) Unit) := by
  unfold serializeInt64
  dsimp only
  infer_instance

instance (bits : U32) : ProfilesAgree (serializeOffset128 bits : Action (S × U128) Unit) := by
  unfold serializeOffset128
  dsimp only
  infer_instance

instance (min max : I128) : ProfilesAgree (serializeInt128 min max : Action (S × I128) Unit) := by
  unfold serializeInt128
  dsimp only
  infer_instance

instance (bits : U32) : ProfilesAgree (serializeBits64 bits : Action (S × U64) Unit) := by
  unfold serializeBits64
  infer_instance

instance : ProfilesAgree (serializeBool : Action (S × Bool) Unit) := by
  unfold serializeBool
  infer_instance

instance (w : Nat) : ProfilesAgree (serializeNarrow w : Action (S × BitVec w) Unit) := by
  unfold serializeNarrow
  infer_instance

instance : ProfilesAgree (serializeU128 : Action (S × U128) Unit) := by
  unfold serializeU128
  infer_instance

instance : ProfilesAgree (serializeF32 : Action (S × F32) Unit) := by
  unfold serializeF32
  infer_instance

instance : ProfilesAgree (serializeF64 : Action (S × F64) Unit) := by
  unfold serializeF64
  infer_instance

instance (T : FixedPointStorage) (integerBits : U32) (minUnits maxUnits : I64) :
    ProfilesAgree (capacityCheck T integerBits minUnits maxUnits : Action S Unit) := by
  unfold capacityCheck
  dsimp only
  infer_instance

instance (T : FixedPointStorage) (integerBits fractionBits : U32) (minUnits maxUnits : I64) :
    ProfilesAgree (serializeFixed T integerBits fractionBits minUnits maxUnits :
      Action (S × BitVec T.bits) Unit) := by
  unfold serializeFixed
  dsimp only
  refine ProfilesAgree.bind inferInstance fun _ => ProfilesAgree.bind inferInstance fun _ =>
    ProfilesAgree.bind inferInstance fun _ => ProfilesAgree.bind inferInstance fun _ =>
    ProfilesAgree.bind inferInstance fun _ => ProfilesAgree.bind inferInstance fun _ => ?_
  infer_instance

instance (previous : I32) (reconstructed : Int) :
    ProfilesAgree (acceptIntRelative previous reconstructed : Action (S × I32) Unit) := by
  unfold acceptIntRelative
  infer_instance

instance (previous : I32) : ProfilesAgree (serializeAbsolute previous : Action (S × I32) Unit) := by
  unfold serializeAbsolute
  dsimp only
  infer_instance

instance (previous : I32) (difference : U32) (tiers : List (U32 × I32 × I32)) :
    ProfilesAgree (serializeBuckets previous difference tiers : Action (S × I32) Unit) := by
  induction tiers with
  | nil =>
      unfold serializeBuckets
      infer_instance
  | cons tier tiers ih =>
      unfold serializeBuckets
      infer_instance

instance (previous : I32) : ProfilesAgree (serializeIntRelative previous : Action (S × I32) Unit) := by
  unfold serializeIntRelative
  dsimp only
  infer_instance

variable [Arithmetic]

instance {σ : Type} (min max resolution : F32) :
    ProfilesAgree (serializeCompressedFloatParams min max resolution : Action σ CompressedFloatParams) := by
  unfold serializeCompressedFloatParams
  infer_instance

instance (maxIntegerValue bits : U32) (delta min : F32) :
    ProfilesAgree (serializeCompressedFloatPrecomputed maxIntegerValue bits delta min :
      Action (S × F32) Unit) := by
  unfold serializeCompressedFloatPrecomputed
  dsimp only
  refine ProfilesAgree.bind inferInstance fun _ => ProfilesAgree.bind inferInstance fun _ => ?_
  infer_instance

instance (min max resolution : F32) :
    ProfilesAgree (serializeCompressedFloat min max resolution : Action (S × F32) Unit) := by
  unfold serializeCompressedFloat
  infer_instance

end Provided

/-! ### The streams -/

/-- A stream every operation agrees on under every profile. -/
class StreamAgrees (S : Type) [Stream S] : Prop extends CoreAgrees S where
  serializeBytes : ∀ n, ProfilesAgree (serializeBytes : Action (S × List.Vector U8 n) Unit)
  serializeAlign : ProfilesAgree (serializeAlign : Action S Unit)
  serializeString : ∀ bufferSize, ProfilesAgree (serializeString bufferSize : Action (S × Text) Unit)
  serializeEnd : ProfilesAgree (serializeEnd : Action S Unit)
  serializeObject : ∀ {ω : Type} (object : Action (S × ω) Unit), ProfilesAgree object →
    ProfilesAgree (serializeObject object)

instance {σ : Type} (value : Text) (bufferSize : Nat) :
    ProfilesAgree (stringLength value bufferSize : Action σ I32) := by
  unfold stringLength
  infer_instance

instance {σ : Type} (bufferSize : Nat) : ProfilesAgree (largestLength bufferSize : Action σ I32) := by
  unfold largestLength
  infer_instance

namespace WriteStream

instance {α : Type} (m : Action BitWriter α) [ProfilesAgree m] : ProfilesAgree (onWriter m) := by
  unfold onWriter
  infer_instance

instance (buffer : List U8) : ProfilesAgree (new buffer) := by
  unfold new
  infer_instance

instance : ProfilesAgree flush := by
  unfold flush
  infer_instance

instance (fieldBits : U32) (payload : Nat) : ProfilesAgree (debugAssertRoom fieldBits payload) := by
  have hlooks : Looks (onWriter do
      let writer ← getState
      let afterField ← checkedAdd 64 writer.bitsWritten fieldBits.toNat
      let align := (8 - afterField % 8) % 8
      let header ← checkedAdd 64 fieldBits.toNat align
      let payloadBits ← checkedMul 64 payload 8
      let needed ← checkedAdd 64 header payloadBits
      let available ← BitWriter.bitsAvailable
      require (needed ≤ available)) := by
    dsimp only
    exact Looks.of_focus (fun _ => rfl) _
  unfold debugAssertRoom
  infer_instance

instance : CoreAgrees WriteStream where
  fail error := (inferInstance : ProfilesAgree (refuse error))
  gate := (inferInstance : ProfilesAgree (pure ()))
  serializeBits bits := by
    unfold serializeBits instStreamCore
    infer_instance

instance : StreamAgrees WriteStream where
  serializeBytes n := by
    unfold Stream.serializeBytes instStream
    infer_instance
  serializeAlign := by
    unfold Stream.serializeAlign instStream
    infer_instance
  serializeString bufferSize := by
    unfold Stream.serializeString instStream
    infer_instance
  serializeEnd := (inferInstance : ProfilesAgree (pure ()))
  serializeObject object h := h

end WriteStream

namespace MeasureStream

instance (bits : Nat) : ProfilesAgree (count bits) := by
  unfold count
  infer_instance

instance : ProfilesAgree measureAlign := by
  unfold measureAlign
  infer_instance

instance (bytes : Nat) : ProfilesAgree (countBytes bytes) := by
  unfold countBytes
  infer_instance

instance : CoreAgrees MeasureStream where
  fail error := (inferInstance : ProfilesAgree (refuse error))
  gate := (inferInstance : ProfilesAgree (pure ()))
  serializeBits bits := by
    unfold serializeBits instStreamCore
    infer_instance

instance : StreamAgrees MeasureStream where
  serializeBytes n := by
    unfold Stream.serializeBytes instStream
    infer_instance
  serializeAlign := by
    unfold Stream.serializeAlign instStream
    infer_instance
  serializeString bufferSize := by
    unfold Stream.serializeString instStream
    infer_instance
  serializeEnd := (inferInstance : ProfilesAgree (pure ()))
  serializeObject object h := h

end MeasureStream

namespace ReadStream

instance {α : Type} (m : Action BitReader α) [ProfilesAgree m] : ProfilesAgree (onReader m) := by
  unfold onReader
  infer_instance

instance (buffer : List U8) (bytes : Nat) : ProfilesAgree (new buffer bytes) := by
  unfold new
  infer_instance

instance {α : Type} (error : Error) : ProfilesAgree (latch error : Action ReadStream α) := by
  unfold latch
  infer_instance

instance : ProfilesAgree refuseIfLatched := by
  refine ProfilesAgree.bind inferInstance fun stream => ?_
  cases stream.failed with
  | none => exact (inferInstance : ProfilesAgree (pure ()))
  | some error => exact (inferInstance : ProfilesAgree (refuse error))

instance (bits : U32) : ProfilesAgree (refuses bits) := by
  unfold refuses
  infer_instance

instance (bits : U32) : ProfilesAgree (refuseBits bits) := by
  unfold refuseBits
  infer_instance

instance : ProfilesAgree readAlign := by
  unfold readAlign
  infer_instance

instance (bytes : Nat) : ProfilesAgree (readPayload bytes) := by
  unfold readPayload
  infer_instance

instance {n : Nat} (source : List U8) :
    ProfilesAgree (copyInto source : Action (ReadStream × List.Vector U8 n) Unit) := by
  unfold copyInto
  split
  · exact ProfilesAgree.of_same fun _ _ _ => rfl
  · infer_instance

instance : ProfilesAgree readEnd := by
  unfold readEnd
  dsimp only
  infer_instance

instance : CoreAgrees ReadStream where
  fail error := (inferInstance : ProfilesAgree (latch error))
  gate := (inferInstance : ProfilesAgree refuseIfLatched)
  serializeBits bits := by
    unfold serializeBits instStreamCore
    infer_instance

instance : StreamAgrees ReadStream where
  serializeBytes n := by
    unfold Stream.serializeBytes instStream
    infer_instance
  serializeAlign := (inferInstance : ProfilesAgree readAlign)
  serializeString bufferSize := by
    have hpayload : ∀ bytes : List U8, ProfilesAgree
        (match Utf8.fromUtf8 bytes with
          | some text => store text
          | none => onState (latch .invalidUtf8) : Action (ReadStream × Text) Unit) := by
      intro bytes
      split <;> infer_instance
    unfold Stream.serializeString instStream
    infer_instance
  serializeEnd := (inferInstance : ProfilesAgree readEnd)
  serializeObject object h := by
    refine ProfilesAgree.bind inferInstance fun _ => ProfilesAgree.bind inferInstance fun result => ?_
    cases result with
    | ok value => exact (inferInstance : ProfilesAgree (onState refuseIfLatched))
    | error error => infer_instance

end ReadStream

/-! ### Operations, programs and clients -/

section Runs

variable [Arithmetic]

instance {S : Type} [Stream S] [h : StreamAgrees S] (operation : Operation) :
    ProfilesAgree (operation.run : Action (S × operation.Value) Unit) := by
  cases operation with
  | bytes count => exact h.serializeBytes count
  | string bufferSize => exact h.serializeString bufferSize
  | align =>
      have halign := h.serializeAlign
      show ProfilesAgree (onState serializeAlign)
      infer_instance
  | _ =>
      dsimp only [Operation.run, serializeU8, serializeU16, serializeU32, serializeU64]
      infer_instance

theorem Program.run_agrees {S : Type} [Stream S] [h : StreamAgrees S] (program : Program)
    (memory : Memory) : ProfilesAgree (program.run memory : Action (S × List Carried) Unit) := by
  induction program with
  | done => exact (inferInstance : ProfilesAgree (pure ()))
  | step operation next ih =>
      unfold run
      infer_instance
  | object body next ihbody ih =>
      have hobject := h.serializeObject _ ihbody
      unfold run
      infer_instance
  | finish next ih =>
      have hend := h.serializeEnd
      unfold run
      infer_instance

end Runs

/-! A client's own steps look at no profile. -/

namespace Client

variable {R ω δ : Type}

theorem handing_agrees (prior : δ) {call : Action (R × (Log ω × δ)) Unit} (h : ProfilesAgree call) :
    ProfilesAgree (handing prior call) where
  agree {lax strict} hlax p hreturned := by
    have hcall : (call strict (p.1, p.2, prior)).Returned := by
      rw [handing] at hreturned
      cases hrun : call strict (p.1, p.2, prior) with
      | ok value q => trivial
      | err error q => trivial
      | trap q =>
          rw [hrun] at hreturned
          exact hreturned
    rw [handing, handing, h.agree hlax _ hcall]

theorem method_agrees {body : Action (R × Log ω) (Result × ω)} (h : ProfilesAgree body) :
    ProfilesAgree (method body) where
  agree {lax strict} hlax p hreturned := by
    have hbody : (body strict (p.1, p.2.1)).Returned := by
      rw [method] at hreturned
      cases hrun : body strict (p.1, p.2.1) with
      | ok answer q => trivial
      | err error q => trivial
      | trap q =>
          rw [hrun] at hreturned
          exact hreturned
    rw [method, method, h.agree hlax _ hbody]

theorem logged_agrees [Reader R] (describe : δ → Call ω) {call : Action (R × Log ω) (Result × δ)}
    (h : ProfilesAgree call) : ProfilesAgree (logged describe call) :=
  ProfilesAgree.bind (.of_same fun _ _ _ => rfl) fun _ => h.bind fun _ =>
    ProfilesAgree.bind (.of_same fun _ _ _ => rfl) fun _ => inferInstance

theorem quietly_agrees {call : Action (R × δ) Unit} (h : ProfilesAgree call) :
    ProfilesAgree (quietly call : Action (R × (Log ω × δ)) Unit) := by
  unfold quietly
  infer_instance

theorem run_agrees [Arithmetic] (client : Client ω) :
    ProfilesAgree (client.run : Action (ReadStream × Log ω) (Result × ω)) := by
  induction client with
  | done result memory => exact (inferInstance : ProfilesAgree (pure (result, memory)))
  | observe next ih => exact ProfilesAgree.bind (.of_same fun _ _ _ => rfl) fun seen => ih seen
  | call operation prior next ih =>
      have hrun : ProfilesAgree (Reader.operation operation : Action (ReadStream × _) Unit) :=
        (inferInstance : ProfilesAgree operation.run)
      exact (logged_agrees _ (handing_agrees prior (quietly_agrees hrun))).bind fun answer => ih _ _
  | finish next ih =>
      have hrun : ProfilesAgree (onState Reader.finish : Action (ReadStream × Unit) Unit) :=
        (inferInstance : ProfilesAgree (onState ReadStream.readEnd))
      exact (logged_agrees _ (handing_agrees () (quietly_agrees hrun))).bind fun answer => ih _
  | fail error next ih =>
      have hrun : ProfilesAgree (onState (Reader.fail error) : Action (ReadStream × Unit) Unit) :=
        (inferInstance : ProfilesAgree (onState (Serialize.fail error)))
      exact (logged_agrees _ (handing_agrees () (quietly_agrees hrun))).bind fun answer => ih _
  | reject next ih =>
      have hrun : ProfilesAgree (onState Reader.reject : Action (ReadStream × Unit) Unit) :=
        (inferInstance : ProfilesAgree (onState Serialize.reject))
      exact (logged_agrees _ (handing_agrees () (quietly_agrees hrun))).bind fun answer => ih _
  | object prior body next ihbody ih =>
      have hrun : ProfilesAgree (Reader.object (method body.run) :
          Action (ReadStream × (Log _ × (_ × Bool))) Unit) :=
        StreamAgrees.serializeObject _ (method_agrees ihbody)
      exact (logged_agrees _ (handing_agrees (prior, false) hrun)).bind fun answer => ih _ _

end Client

end Serialize
