import Serialize.Contracts.RoundTrip
import Serialize.Machine.Builds
import Serialize.Model.Writes
import Serialize.Reader.Events

/-!
# The write side never refuses

Nothing a write or a measure stream does by itself returns an error: the only errors a caller sees
there are the ones it asked for, and they leave the stream as it was. So a by-value write, which
drops the result of the operation it is the twin of, drops nothing.
-/

namespace Serialize

open Machine
open Binary32 (Arithmetic)
open Utf8 (Text)

set_option synthInstance.maxSize 2000

/-! ### The packer -/

namespace BitWriter

instance : Infallible bitsAvailable := by
  unfold bitsAvailable
  infer_instance

instance (start : Nat) (bytes : List U8) : Infallible (copyToData start bytes) := by
  unfold copyToData
  infer_instance

instance (value : U32) (newScratchBits : Nat) : Infallible (spillScratch value newScratchBits) := by
  unfold spillScratch
  infer_instance

instance (value bits : U32) : Infallible (writeBits value bits) := by
  unfold writeBits
  infer_instance

instance : Infallible writeAlign := by
  unfold writeAlign
  dsimp only
  infer_instance

instance (bytes : List U8) : Infallible (writeEach bytes) := by
  induction bytes with
  | nil =>
      unfold writeEach
      infer_instance
  | cons byte bytes ih =>
      unfold writeEach
      infer_instance

instance (words : List U8) (numWords : Nat) : Infallible (copyWords words numWords) := by
  unfold copyWords
  infer_instance

instance (data : List U8) : Infallible (writeBytes data) := by
  unfold writeBytes
  dsimp only
  infer_instance

end BitWriter

/-! ### The provided methods -/

/-- A stream that reads nothing and whose primitives do not refuse. -/
class TrustedCore (S : Type) [StreamCore S] : Prop where
  isReading : isReading S = false
  gate : Infallible (gate : Action S Unit)
  serializeBits : ∀ bits, Infallible (serializeBits bits : Action (S × U32) Unit)

section Provided

variable {S : Type} [StreamCore S] [hcore : TrustedCore S] {δ : Type}

instance : Infallible (gate : Action S Unit) := hcore.gate

instance (bits : U32) : Infallible (serializeBits bits : Action (S × U32) Unit) :=
  hcore.serializeBits bits

instance (declared : Prop) [Decidable declared] :
    Infallible (declarationCheck declared : Action S Unit) := by
  have hreading : ¬isReading S = true := by
    rw [hcore.isReading]
    decide
  rw [declarationCheck, if_neg hreading]
  infer_instance

/-- What is done on reading only is not done. -/
instance (m : Action (S × δ) Unit) : Infallible (whenReading m) := by
  rw [whenReading, onlyIf, if_neg (by rw [hcore.isReading]; decide)]
  infer_instance

instance (m : Action (S × δ) Unit) [Infallible m] : Infallible (whenWriting m) := by
  unfold whenWriting
  infer_instance

instance : Infallible (refuseIfFailed : Action S Unit) := hcore.gate

instance (value : U64) (bits : U32) :
    Infallible (serializeDwords value bits : Action (S × δ) U64) := by
  unfold serializeDwords
  infer_instance

instance (min max : I32) : Infallible (serializeInt min max : Action (S × I32) Unit) := by
  unfold serializeInt
  dsimp only
  infer_instance

instance (min max : I64) : Infallible (serializeInt64 min max : Action (S × I64) Unit) := by
  unfold serializeInt64
  dsimp only
  infer_instance

instance (bits : U32) : Infallible (serializeOffset128 bits : Action (S × U128) Unit) := by
  unfold serializeOffset128
  dsimp only
  infer_instance

instance (min max : I128) : Infallible (serializeInt128 min max : Action (S × I128) Unit) := by
  unfold serializeInt128
  dsimp only
  infer_instance

instance (bits : U32) : Infallible (serializeBits64 bits : Action (S × U64) Unit) := by
  unfold serializeBits64
  infer_instance

instance : Infallible (serializeBool : Action (S × Bool) Unit) := by
  unfold serializeBool
  infer_instance

instance (w : Nat) : Infallible (serializeNarrow w : Action (S × BitVec w) Unit) := by
  unfold serializeNarrow
  infer_instance

instance : Infallible (serializeU128 : Action (S × U128) Unit) := by
  unfold serializeU128
  infer_instance

instance : Infallible (serializeF32 : Action (S × F32) Unit) := by
  unfold serializeF32
  infer_instance

instance : Infallible (serializeF64 : Action (S × F64) Unit) := by
  unfold serializeF64
  infer_instance

instance (T : FixedPointStorage) (integerBits : U32) (minUnits maxUnits : I64) :
    Infallible (capacityCheck T integerBits minUnits maxUnits : Action S Unit) := by
  unfold capacityCheck
  dsimp only
  infer_instance

instance (T : FixedPointStorage) (integerBits fractionBits : U32) (minUnits maxUnits : I64) :
    Infallible (serializeFixed T integerBits fractionBits minUnits maxUnits :
      Action (S × BitVec T.bits) Unit) := by
  unfold serializeFixed
  dsimp only
  refine Infallible.bind inferInstance fun _ => Infallible.bind inferInstance fun _ =>
    Infallible.bind inferInstance fun _ => Infallible.bind inferInstance fun _ =>
    Infallible.bind inferInstance fun _ => Infallible.bind inferInstance fun _ => ?_
  infer_instance

instance (previous : I32) : Infallible (serializeAbsolute previous : Action (S × I32) Unit) := by
  unfold serializeAbsolute
  dsimp only
  infer_instance

instance (previous : I32) (difference : U32) (tiers : List (U32 × I32 × I32)) :
    Infallible (serializeBuckets previous difference tiers : Action (S × I32) Unit) := by
  induction tiers with
  | nil =>
      unfold serializeBuckets
      infer_instance
  | cons tier tiers ih =>
      unfold serializeBuckets
      infer_instance

instance (previous : I32) : Infallible (serializeIntRelative previous : Action (S × I32) Unit) := by
  unfold serializeIntRelative
  dsimp only
  infer_instance

variable [Arithmetic]

instance {σ : Type} (min max resolution : F32) :
    Infallible (serializeCompressedFloatParams min max resolution : Action σ CompressedFloatParams) := by
  unfold serializeCompressedFloatParams
  infer_instance

instance (maxIntegerValue bits : U32) (delta min : F32) :
    Infallible (serializeCompressedFloatPrecomputed maxIntegerValue bits delta min :
      Action (S × F32) Unit) := by
  unfold serializeCompressedFloatPrecomputed
  dsimp only
  infer_instance

instance (min max resolution : F32) :
    Infallible (serializeCompressedFloat min max resolution : Action (S × F32) Unit) := by
  unfold serializeCompressedFloat
  infer_instance

end Provided

/-! ### The streams -/

/-- A stream no operation refuses on, and where a nested object is its own serialize method. -/
class Trusted (S : Type) [Stream S] : Prop extends TrustedCore S where
  fail_eq : ∀ error, (fail error : Action S Unit) = refuse error
  serializeBytes : ∀ n, Infallible (serializeBytes : Action (S × List.Vector U8 n) Unit)
  serializeAlign : Infallible (serializeAlign : Action S Unit)
  serializeString : ∀ bufferSize, Infallible (serializeString bufferSize : Action (S × Text) Unit)
  serializeEnd : Infallible (serializeEnd : Action S Unit)
  serializeObject_eq : ∀ {δ : Type} (object : Action (S × δ) Unit), serializeObject object = object

instance {σ : Type} (value : Text) (bufferSize : Nat) :
    Infallible (stringLength value bufferSize : Action σ I32) := by
  unfold stringLength
  infer_instance

instance {σ : Type} (bufferSize : Nat) : Infallible (largestLength bufferSize : Action σ I32) := by
  unfold largestLength
  infer_instance

namespace WriteStream

instance {α : Type} (m : Action BitWriter α) [Infallible m] : Infallible (onWriter m) := by
  unfold onWriter
  infer_instance

instance (fieldBits : U32) (payload : Nat) : Infallible (debugAssertRoom fieldBits payload) := by
  unfold debugAssertRoom
  infer_instance

instance : TrustedCore WriteStream where
  isReading := rfl
  gate := (inferInstance : Infallible (pure ()))
  serializeBits bits := by
    unfold serializeBits instStreamCore
    infer_instance

instance : Trusted WriteStream where
  fail_eq _ := rfl
  serializeBytes n := by
    unfold Stream.serializeBytes instStream
    infer_instance
  serializeAlign := by
    unfold Stream.serializeAlign instStream
    infer_instance
  serializeString bufferSize := by
    unfold Stream.serializeString instStream
    infer_instance
  serializeEnd := (inferInstance : Infallible (pure ()))
  serializeObject_eq _ := rfl

end WriteStream

namespace MeasureStream

instance (bits : Nat) : Infallible (count bits) := by
  unfold count
  infer_instance

instance : Infallible measureAlign := by
  unfold measureAlign
  infer_instance

instance (bytes : Nat) : Infallible (countBytes bytes) := by
  unfold countBytes
  infer_instance

instance : TrustedCore MeasureStream where
  isReading := rfl
  gate := (inferInstance : Infallible (pure ()))
  serializeBits bits := by
    unfold serializeBits instStreamCore
    infer_instance

instance : Trusted MeasureStream where
  fail_eq _ := rfl
  serializeBytes n := by
    unfold Stream.serializeBytes instStream
    infer_instance
  serializeAlign := by
    unfold Stream.serializeAlign instStream
    infer_instance
  serializeString bufferSize := by
    unfold Stream.serializeString instStream
    infer_instance
  serializeEnd := (inferInstance : Infallible (pure ()))
  serializeObject_eq _ := rfl

end MeasureStream

section Operations

variable {S : Type} [Stream S] [htrusted : Trusted S] [Arithmetic]

instance (n : Nat) : Infallible (serializeBytes : Action (S × List.Vector U8 n) Unit) :=
  htrusted.serializeBytes n

instance : Infallible (serializeAlign : Action S Unit) := htrusted.serializeAlign

instance (bufferSize : Nat) : Infallible (serializeString bufferSize : Action (S × Text) Unit) :=
  htrusted.serializeString bufferSize

instance : Infallible (serializeEnd : Action S Unit) := htrusted.serializeEnd

instance (operation : Operation) :
    Infallible (operation.run : Action (S × operation.Value) Unit) := by
  cases operation with
  | u8 =>
      show Infallible (serializeNarrow 8)
      infer_instance
  | u16 =>
      show Infallible (serializeNarrow 16)
      infer_instance
  | u32 =>
      show Infallible (serializeBits 32)
      infer_instance
  | u64 =>
      show Infallible (serializeBits64 64)
      infer_instance
  | _ =>
      unfold Operation.run
      infer_instance

end Operations

/-! ### Clients -/

/-- What a client calls, where no operation refuses. -/
class TrustedReader (R : Type) [Reader R] : Prop where
  operation : ∀ operation : Operation,
    Infallible (Reader.operation operation : Action (R × operation.Value) Unit)
  finish : Infallible (Reader.finish : Action R Unit)
  fail_eq : ∀ error, (Reader.fail error : Action R Unit) = refuse error
  reject_eq : (Reader.reject : Action R Unit) = (do debugAssert False; refuse .rejected)
  object_eq : ∀ {δ : Type} (object : Action (R × δ) Unit), Reader.object object = object

theorem reject_eq {S : Type} [Stream S] [htrusted : Trusted S] :
    (reject : Action S Unit) = (do debugAssert False; refuse .rejected) := by
  have hreading : ¬isReading S = true := by
    rw [htrusted.isReading]
    decide
  funext profile stream
  rw [reject, htrusted.fail_eq, bind_apply, bind_apply]
  rcases profile with build | -
  · cases build with
    | checked => rw [debugAssert_checked_of_not hreading, debugAssert_checked_of_not not_false]
    | unchecked => rfl
  · rfl

instance [Arithmetic] : TrustedReader WriteStream where
  operation operation := (inferInstance : Infallible operation.run)
  finish := (inferInstance : Infallible serializeEnd)
  fail_eq _ := rfl
  reject_eq := reject_eq
  object_eq _ := rfl

instance [Arithmetic] : TrustedReader MeasureStream where
  operation operation := (inferInstance : Infallible operation.run)
  finish := (inferInstance : Infallible serializeEnd)
  fail_eq _ := rfl
  reject_eq := reject_eq
  object_eq _ := rfl

variable {ω δ : Type}

namespace Client

/-- The client with its own refusals taken out: it goes on as if the error had come back. A
rejection stays where it panics. -/
def unrefused (profile : Profile) : Client ω → Client ω
  | .done result memory => .done result memory
  | .observe next => .observe fun seen => (next seen).unrefused profile
  | .call operation prior next =>
      .call operation prior fun result final => (next result final).unrefused profile
  | .finish next => .finish fun result => (next result).unrefused profile
  | .fail error next => (next (.error error)).unrefused profile
  | .reject next => match profile with
      | .checked => .reject fun result => (next result).unrefused profile
      | _ => (next (.error .rejected)).unrefused profile
  | .object prior body next =>
      .object prior (body.unrefused profile) fun result memory => (next result memory).unrefused profile

section Asked

variable {R : Type} [Reader R]

variable [htrusted : TrustedReader R]

end Asked

/-! ### Refusals taken out -/

section Unrefused

variable {R : Type} [Reader R] {α : Type}

/-- Under this profile the two computations do the same to the reader, whatever their logs. -/
abbrev SameRun (profile : Profile) (m n : Action (R × Log ω) α) : Prop :=
  SimUnder profile SameReader NoEscape m n

variable {profile : Profile}

omit [Reader R] in
/-- A step that returns `value` and leaves the reader alone can be left out. -/
theorem SameRun.skip {β : Type} {m : Action (R × Log ω) α} {next : α → Action (R × Log ω) β}
    {n : Action (R × Log ω) β} {value : α}
    (h : ∀ reader log, ∃ log', m profile (reader, log) = .ok value (reader, log'))
    (hnext : SameRun profile (next value) n) : SameRun profile (m >>= next) n := by
  rintro ⟨reader, log⟩ q hpq
  obtain ⟨log', hm⟩ := h reader log
  rw [bind_apply, hm, Outcome.bind_ok]
  exact hnext (reader, log') q hpq

omit [Reader R] in
theorem method_sameRun {body body' : Action (R × Log ω) (Result × ω)}
    (h : SameRun profile body body') (prior : ω) :
    SameRun profile (handing (prior, false) (method body)) (handing (prior, false) (method body')) := by
  rintro ⟨reader, log⟩ ⟨_, log'⟩ rfl
  have hmatch := h (reader, log) (reader, log') rfl
  simp only [handing, method]
  rcases hbody : body profile (reader, log) with ⟨⟨error | ⟨⟩, memory⟩, p⟩ | ⟨error, p⟩ | p
  · rw [hbody] at hmatch
    obtain ⟨q, hq, hsame⟩ := hmatch.ok_left
    rw [hq]
    exact ⟨rfl, hsame⟩
  · rw [hbody] at hmatch
    obtain ⟨q, hq, hsame⟩ := hmatch.ok_left
    rw [hq]
    exact ⟨rfl, hsame⟩
  · rw [hbody] at hmatch
    obtain hescape | ⟨q, hq, hsame⟩ := hmatch.err_left
    · exact hescape.elim
    rw [hq]
    exact ⟨rfl, hsame⟩
  · rw [hbody] at hmatch
    obtain ⟨q, hq, hsame⟩ := hmatch.trap_left
    rw [hq]
    exact hsame

theorem logged_sameRun (describe : δ → Call ω) {call call' : Action (R × Log ω) (Result × δ)}
    (h : SameRun profile call call') :
    SameRun profile (logged describe call) (logged describe call') := by
  refine (look_blind profile).bind fun before => h.bind fun answer =>
    (look_blind profile).bind fun after => SimUnder.bind ?_ fun _ => SimUnder.pure answer
  rintro ⟨reader, log⟩ ⟨_, log'⟩ rfl
  exact ⟨rfl, rfl⟩

/-- A refusal of the caller's comes back, and leaves the reader as it was. -/
theorem logged_refusal (describe : Unit → Call ω) {call : Action (R × Unit) Unit} {error : Error}
    (h : ∀ reader, call profile (reader, ()) = .err error (reader, ())) (reader : R) (log : Log ω) :
    ∃ log', logged describe (handing () (quietly call)) profile (reader, log)
      = .ok (.error error, ()) (reader, log') := by
  have hcall : handing () (quietly call) profile (reader, log.notice (Reader.observation reader))
      = .ok (.error error, ()) (reader, log.notice (Reader.observation reader)) := by
    rw [handing_quietly, h]
  exact logged_of_ok describe hcall

omit [Reader R] in
/-- What is left of a run when its log is not looked at. -/
theorem SameRun.mapState {m n : Action (R × Log ω) α} (h : SameRun profile m n) (reader : R)
    (log : Log ω) : (m profile (reader, log)).mapState Prod.fst
      = (n profile (reader, log)).mapState Prod.fst := by
  have hmatch := h (reader, log) (reader, log) rfl
  match hm : m profile (reader, log), hn : n profile (reader, log), hmatch with
  | .ok value p, .ok _ q, ⟨rfl, hsame⟩ => exact congrArg (Outcome.ok value) hsame
  | .err error p, _, .inl hescape => exact hescape.elim
  | .err error p, _, .inr ⟨q, rfl, hsame⟩ => exact congrArg (Outcome.err error) hsame
  | .trap p, .trap q, hsame => exact congrArg Outcome.trap hsame

variable [htrusted : TrustedReader R]

/-- **A refusal leaves no trace**: with it taken out the run does the same to the reader. -/
theorem run_unrefused (client : Client ω) :
    SameRun profile (client.run : Action (R × Log ω) (Result × ω)) (client.unrefused profile).run := by
  induction client with
  | done result memory => exact SimUnder.pure _
  | observe next ih => exact (look_blind profile).bind ih
  | call operation prior next ih =>
      exact (logged_sameRun _ (handing_blind _ _ profile)).bind fun answer => ih _ _
  | finish next ih => exact (logged_sameRun _ (handing_blind _ _ profile)).bind fun answer => ih _
  | fail error next ih =>
      refine SameRun.skip (logged_refusal _ fun reader => ?_) (ih _)
      rw [htrusted.fail_eq]
      rfl
  | reject next ih =>
      rcases profile with build | -
      · cases build with
        | checked => exact (logged_sameRun _ (handing_blind _ _ .checked)).bind fun answer => ih _
        | unchecked =>
            refine SameRun.skip (logged_refusal _ fun reader => ?_) (ih _)
            rw [htrusted.reject_eq]
            rfl
      · refine SameRun.skip (logged_refusal _ fun reader => ?_) (ih _)
        rw [htrusted.reject_eq]
        rfl
  | object prior body next ihbody ih =>
      refine (logged_sameRun _ ?_).bind fun answer => ih _ _
      rw [htrusted.object_eq, htrusted.object_eq]
      exact method_sameRun ihbody prior

end Unrefused

end Client

/-- **A refusal on the write side leaves no trace**: the client that never made it leaves the same
stream and ends alike. -/
theorem refusals_leave_no_trace [Arithmetic] (client : Client ω) (profile : Profile) :
    (∀ stream : WriteStream, (client.run profile (stream, Log.empty)).mapState Prod.fst
      = ((client.unrefused profile).run profile (stream, Log.empty)).mapState Prod.fst) ∧
    ∀ stream : MeasureStream, (client.run profile (stream, Log.empty)).mapState Prod.fst
      = ((client.unrefused profile).run profile (stream, Log.empty)).mapState Prod.fst :=
  ⟨fun stream => client.run_unrefused.mapState stream Log.empty,
    fun stream => client.run_unrefused.mapState stream Log.empty⟩

end Serialize
