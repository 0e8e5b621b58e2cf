import Serialize.Float.Nearest
import Serialize.Model.Sabotaged
import Serialize.Reader.Refusals
import Serialize.Reader.Session

/-!
# What a deleted rule touches

An operation of the controls profile is the operation of every other profile, but for the refusals of the
rule its control deletes. A rule decides only on a live stream, and only in the operations that are
guarded by it.
-/

namespace Serialize

open Machine
open Binary32 (Arithmetic)
open Utf8 (Text fromUtf8)

set_option synthInstance.maxSize 1000

/-! ### The primitives of the reader -/

namespace ReadStream

variable {α : Type}

instance (error : Error) : Stops (latch error : Action ReadStream α) := ⟨fun h => by cases h⟩

theorem latch_avoids {reason error : Error} (hne : error ≠ reason) :
    Avoids reason (latch error : Action ReadStream α) where
  latched_of_err {profile stream stream'} h := by
    rw [latch_eq] at h
    injection h with hreason
    show stream.failed = some reason
    cases hfailed : stream.failed with
    | none =>
        rw [hfailed] at hreason
        exact absurd hreason hne
    | some first =>
        rw [hfailed] at hreason
        exact congrArg some hreason

instance : Stops refuseIfLatched := ⟨fun h => (of_refuseIfLatched_eq_ok h).2⟩

instance (reason : Error) : Avoids reason refuseIfLatched where
  latched_of_err h := (of_refuseIfLatched_eq_err h).2

/-- What is not refused is asked of a live stream. -/
theorem live_of_refuses {bits : U32} {profile : Profile} {stream stream' : ReadStream}
    (h : refuses bits profile stream = .ok false stream') : stream.failed = none := by
  obtain ⟨part, middle, hstate, hrest⟩ := bind_eq_ok.mp h
  cases hstate
  obtain ⟨past, final, -, hanswer⟩ := bind_eq_ok.mp hrest
  injection hanswer with hanswer
  cases hfailed : stream.failed with
  | none => rfl
  | some error =>
      rw [hfailed] at hanswer
      cases hanswer

instance (bits : U32) : Stops (serializeBits bits : Action (ReadStream × U32) Unit) where
  live_of_ok {profile p value q} h := by
    obtain ⟨refused, middle, hrefuses, hrest⟩ := bind_eq_ok.mp h
    obtain ⟨hrefuses, -⟩ := onState_eq_ok.mp hrefuses
    cases refused with
    | false => exact live_of_refuses hrefuses
    | true =>
        rw [Bool.true_or, if_pos rfl] at hrest
        cases (onState_eq_ok.mp hrest).1

/-- A read refuses for nothing but its width and the end of the packet. -/
theorem refuseBits_avoids {reason : Error} (hpast : .pastEnd ≠ reason)
    (hrange : .valueOutOfRange ≠ reason) (bits : U32) : Avoids reason (refuseBits bits) where
  latched_of_err {profile stream stream'} h := by
    rw [refuseBits_eq, latch_eq] at h
    injection h with hreason
    show stream.failed = some reason
    cases hfailed : stream.failed with
    | none =>
        rw [hfailed, Option.getD_none, bitsRefusal] at hreason
        split at hreason
        next => exact absurd hreason hpast
        next => exact absurd hreason hrange
    | some error =>
        rw [hfailed] at hreason
        exact congrArg some hreason

theorem serializeBits_avoids {reason : Error} (hpast : .pastEnd ≠ reason)
    (hrange : .valueOutOfRange ≠ reason) (bits : U32) :
    Avoids reason (serializeBits bits : Action (ReadStream × U32) Unit) := by
  have := refuseBits_avoids hpast hrange bits
  unfold serializeBits instStreamCore
  infer_instance

end ReadStream

/-! ### The provided methods on a reader -/

section Provided

variable {δ : Type}

instance (error : Error) : Stops (fail error : Action ReadStream Unit) :=
  (inferInstance : Stops (ReadStream.latch error))

instance : Stops (refuseIfFailed : Action ReadStream Unit) :=
  (inferInstance : Stops ReadStream.refuseIfLatched)

instance (m m' : Action (ReadStream × δ) Unit) [h : FailAlike m m'] :
    FailAlike (whenReading m) (whenReading m') := h

instance (reason : Error) (m m' : Action (ReadStream × δ) Unit) [h : Spares reason m m'] :
    Spares reason (whenReading m) (whenReading m') := h

instance (value : U64) (bits : U32) : Stops (serializeDwords value bits : Action (ReadStream × δ) U64) := by
  unfold serializeDwords
  infer_instance

instance (bits : U32) : Stops (serializeBits64 bits : Action (ReadStream × U64) Unit) := by
  unfold serializeBits64
  infer_instance

instance : Stops (serializeBool : Action (ReadStream × Bool) Unit) := by
  unfold serializeBool
  infer_instance

instance (min max : I32) : Stops (serializeInt min max : Action (ReadStream × I32) Unit) := by
  unfold serializeInt
  dsimp only
  infer_instance

end Provided

/-! ### The controls profile -/

namespace Controls

theorem deleted_self (control : Control) : deleted (some control) control = true := decide_eq_true rfl

theorem deleted_of_ne {control site : Control} (h : control ≠ site) :
    deleted (some control) site = false :=
  decide_eq_false fun heq => h (Option.some.inj heq)

section Provided

variable {δ : Type} (active : Option Control)

/-- Whatever is done where a live stream refuses for the reason. -/
instance (priority := high) (reason : Error) (m : Action (ReadStream × δ) Unit) :
    Spares reason (onState (fail reason) : Action (ReadStream × δ) Unit) m where
  eq_or_err profile p h := by
    have hlatch : fail reason profile p.1 = .err reason { p.1 with failed := some reason } := by
      show ReadStream.latch reason profile p.1 = _
      rw [latch_eq, show p.1.failed = none from h]
      rfl
    exact .inr ⟨(_, p.2), onState_eq_err.mpr ⟨hlatch, rfl⟩⟩

end Provided

/-! ### Where nothing is deleted -/

section Kept

variable {S : Type} [StreamCore S] {active : Option Control}

theorem reject_eq (h : deleted active .rejectReason = false) :
    (reject active : Action S Unit) = Serialize.reject := by
  rw [reject, Serialize.reject, h, Bool.and_false]
  rfl

theorem serializeInt_eq (hrange : deleted active .rangedRange = false)
    (hreconstruction : deleted active .rangedReconstruction = false) (min max : I32) :
    (serializeInt active min max : Action (S × I32) Unit) = Serialize.serializeInt min max := by
  unfold serializeInt Serialize.serializeInt
  simp only [hrange, hreconstruction, and_true, Bool.false_eq_true, if_false]

/-- An offset from zero is the value. -/
theorem serializeInt_zero_eq (h : deleted active .rangedRange = false) (max : I32) :
    (serializeInt active 0 max : Action (S × I32) Unit) = Serialize.serializeInt 0 max := by
  unfold serializeInt Serialize.serializeInt
  simp only [h, and_true, add_zero, ite_self]

theorem serializeInt64_eq (h : deleted active .int64ThroughDouble = false) (min max : I64) :
    (serializeInt64 active min max : Action (S × I64) Unit) = Serialize.serializeInt64 min max := by
  unfold serializeInt64 Serialize.serializeInt64
  simp only [h, Bool.false_eq_true, if_false]

theorem serializeF32_eq (h : deleted active .floatFinite = false) :
    (serializeF32 active : Action (S × F32) Unit) = Serialize.serializeF32 := by
  unfold serializeF32 Serialize.serializeF32
  simp only [h, Bool.false_eq_true, or_false]

theorem serializeF64_eq (h : deleted active .doubleFinite = false) :
    (serializeF64 active : Action (S × F64) Unit) = Serialize.serializeF64 := by
  unfold serializeF64 Serialize.serializeF64
  simp only [h, Bool.false_eq_true, or_false]

theorem serializeFixed_eq (h : deleted active .fixedDegenerateTerminal = false)
    (T : FixedPointStorage) (integerBits fractionBits : U32) (minUnits maxUnits : I64) :
    (serializeFixed active T integerBits fractionBits minUnits maxUnits :
      Action (S × BitVec T.bits) Unit)
      = Serialize.serializeFixed T integerBits fractionBits minUnits maxUnits := by
  unfold serializeFixed Serialize.serializeFixed
  simp only [h, onlyIf, if_true]

theorem serializeAbsolute_eq (h : deleted active .intRelativeCanonical = false) (previous : I32) :
    (serializeAbsolute active previous : Action (S × I32) Unit)
      = Serialize.serializeAbsolute previous := by
  unfold serializeAbsolute Serialize.serializeAbsolute
  simp only [h, and_true]

theorem serializeBuckets_eq
    (hint : ∀ min max, (serializeInt active min max : Action (S × I32) Unit)
      = Serialize.serializeInt min max)
    (habsolute : ∀ previous, (serializeAbsolute active previous : Action (S × I32) Unit)
      = Serialize.serializeAbsolute previous)
    (previous : I32) (difference : U32) (tiers : List (U32 × I32 × I32)) :
    (serializeBuckets active previous difference tiers : Action (S × I32) Unit)
      = Serialize.serializeBuckets previous difference tiers := by
  induction tiers with
  | nil => exact habsolute previous
  | cons tier tiers ih =>
      unfold serializeBuckets Serialize.serializeBuckets
      simp only [hint, ih]

theorem serializeIntRelative_eq
    (hint : ∀ min max, (serializeInt active min max : Action (S × I32) Unit)
      = Serialize.serializeInt min max)
    (habsolute : ∀ previous, (serializeAbsolute active previous : Action (S × I32) Unit)
      = Serialize.serializeAbsolute previous)
    (previous : I32) : (serializeIntRelative active previous : Action (S × I32) Unit)
      = Serialize.serializeIntRelative previous := by
  unfold serializeIntRelative Serialize.serializeIntRelative
  simp only [serializeBuckets_eq hint habsolute]

variable [Arithmetic]

theorem serializeCompressedFloatPrecomputed_eq (h : deleted active .compressedFloatFinite = false)
    (maxIntegerValue bits : U32) (delta min : F32) :
    (serializeCompressedFloatPrecomputed active maxIntegerValue bits delta min :
      Action (S × F32) Unit)
      = Serialize.serializeCompressedFloatPrecomputed maxIntegerValue bits delta min := by
  unfold serializeCompressedFloatPrecomputed Serialize.serializeCompressedFloatPrecomputed
  simp only [h, Bool.false_eq_true, or_false]

theorem serializeCompressedFloat_eq
    (h : ∀ maxIntegerValue bits delta min,
      (serializeCompressedFloatPrecomputed active maxIntegerValue bits delta min :
        Action (S × F32) Unit)
        = Serialize.serializeCompressedFloatPrecomputed maxIntegerValue bits delta min)
    (min max resolution : F32) :
    (serializeCompressedFloat active min max resolution : Action (S × F32) Unit)
      = Serialize.serializeCompressedFloat min max resolution := by
  unfold serializeCompressedFloat Serialize.serializeCompressedFloat
  simp only [h]

end Kept

section KeptReader

open ReadStream

variable {active : Option Control}

theorem readAlign_eq (h : deleted active .alignPadding = false) :
    readAlign active = ReadStream.readAlign := by
  unfold readAlign ReadStream.readAlign
  simp only [h, Bool.false_eq_true, or_false]

theorem readEnd_eq (htrailing : deleted active .endTrailingData = false)
    (hpadding : deleted active .endPadding = false) : readEnd active = ReadStream.readEnd := by
  unfold readEnd ReadStream.readEnd
  simp only [htrailing, hpadding, onlyIf, and_true]

theorem serializeObject_eq (hterminal : deleted active .objectTerminal = false)
    (hlatch : deleted active .objectLatchRejected = false) {ω : Type}
    (object : Action (ReadStream × ω) Unit) :
    serializeObject active object = Serialize.serializeObject object := by
  unfold serializeObject Serialize.serializeObject instStream
  simp only [hterminal, hlatch, Bool.false_eq_true, if_false, false_and]
  rfl

theorem utf8RuleDeleted_eq (hutf8 : deleted active .stringUtf8 = false)
    (hsurrogate : deleted active .stringUtf8Surrogate = false) (bytes : List U8) :
    utf8RuleDeleted active bytes = none := by
  rw [utf8RuleDeleted, hutf8, hsurrogate]
  rfl

theorem acceptPayload_eq (hnul : deleted active .stringEmbeddedNul = false)
    (hreason : deleted active .wrongReason = false) (hutf8 : deleted active .stringUtf8 = false)
    (hsurrogate : deleted active .stringUtf8Surrogate = false) (bytes : List U8) :
    acceptPayload active bytes = acceptPayload none bytes := by
  unfold acceptPayload
  rw [hnul, hreason, utf8RuleDeleted_eq hutf8 hsurrogate]
  rfl

theorem acceptPayload_none (bytes : List U8) : acceptPayload none bytes
    = if bytes.contains 0 then onState (latch .embeddedNul)
      else match fromUtf8 bytes with
        | some text => store text
        | none => onState (latch .invalidUtf8) := by
  unfold acceptPayload
  simp only [deleted, reduceCtorEq, decide_false, and_true]
  rfl

theorem readString_none (bufferSize : Nat) :
    readString none bufferSize = Serialize.serializeString bufferSize := by
  have hint := @serializeInt_eq ReadStream _ none rfl rfl
  have halign := @readAlign_eq none rfl
  have hread : readString none bufferSize
      = (if bufferSize = 0 ∨ i32Max < bufferSize then
          onState (latch .valueOutOfRange)
        else do
          let largest ← largestLength bufferSize
          let length ← inLocal 0 (Serialize.serializeInt 0 largest)
          onState ReadStream.readAlign
          let bytes ← onState (readPayload (length.signExtend 64).toNat)
          if bytes.contains 0 then onState (latch .embeddedNul)
          else match fromUtf8 bytes with
            | some text => store text
            | none => onState (latch .invalidUtf8)) := by
    unfold readString
    simp only [hint, halign, acceptPayload_none]
  exact hread

theorem readString_eq
    (hint : ∀ max, (serializeInt active 0 max : Action (ReadStream × I32) Unit)
      = Serialize.serializeInt 0 max)
    (halign : readAlign active = ReadStream.readAlign)
    (hpayload : ∀ bytes, acceptPayload active bytes = acceptPayload none bytes) (bufferSize : Nat) :
    readString active bufferSize = Serialize.serializeString bufferSize := by
  rw [← readString_none]
  unfold readString
  simp only [hint, halign, hpayload, @serializeInt_eq ReadStream _ none rfl rfl,
    @readAlign_eq none rfl]

end KeptReader

/-! ### What is spared -/

section Spared

variable (active : Option Control)

instance (min max : I32) : Steady (serializeInt active min max : Action (ReadStream × I32) Unit) := by
  unfold serializeInt
  dsimp only
  infer_instance

instance serializeInt_failAlike (min max : I32) :
    FailAlike (Serialize.serializeInt min max : Action (ReadStream × I32) Unit)
      (serializeInt active min max) := by
  unfold serializeInt Serialize.serializeInt
  dsimp only
  infer_instance

theorem serializeInt_spares (h : deleted active .rangedReconstruction = false) (min max : I32) :
    Spares .valueOutOfRange (Serialize.serializeInt min max : Action (ReadStream × I32) Unit)
      (serializeInt active min max) := by
  unfold serializeInt Serialize.serializeInt
  simp only [h, Bool.false_eq_true, if_false, ite_and]
  infer_instance

instance serializeInt64_failAlike (min max : I64) :
    FailAlike (Serialize.serializeInt64 min max : Action (ReadStream × I64) Unit)
      (serializeInt64 active min max) := by
  unfold serializeInt64 Serialize.serializeInt64
  dsimp only
  infer_instance

instance serializeF32_failAlike : FailAlike (Serialize.serializeF32 : Action (ReadStream × F32) Unit)
    (serializeF32 active) := by
  unfold serializeF32 Serialize.serializeF32
  infer_instance

instance serializeF32_spares :
    Spares .nonFiniteFloat (Serialize.serializeF32 : Action (ReadStream × F32) Unit)
    (serializeF32 active) := by
  unfold serializeF32 Serialize.serializeF32
  simp only [ite_or]
  infer_instance

instance serializeF64_failAlike : FailAlike (Serialize.serializeF64 : Action (ReadStream × F64) Unit)
    (serializeF64 active) := by
  unfold serializeF64 Serialize.serializeF64
  infer_instance

instance serializeF64_spares :
    Spares .nonFiniteFloat (Serialize.serializeF64 : Action (ReadStream × F64) Unit)
    (serializeF64 active) := by
  unfold serializeF64 Serialize.serializeF64
  simp only [ite_or]
  infer_instance

instance (previous : I32) :
    FailAlike (Serialize.serializeAbsolute previous : Action (ReadStream × I32) Unit)
      (serializeAbsolute active previous) := by
  unfold serializeAbsolute Serialize.serializeAbsolute
  infer_instance

instance (previous : I32) : Spares .nonCanonical
    (Serialize.serializeAbsolute previous : Action (ReadStream × I32) Unit)
    (serializeAbsolute active previous) := by
  unfold serializeAbsolute Serialize.serializeAbsolute
  simp only [ite_and]
  infer_instance

instance (previous : I32) (difference : U32) (tiers : List (U32 × I32 × I32)) :
    FailAlike (Serialize.serializeBuckets previous difference tiers : Action (ReadStream × I32) Unit)
      (serializeBuckets active previous difference tiers) := by
  cases tiers with
  | nil =>
      unfold serializeBuckets Serialize.serializeBuckets
      infer_instance
  | cons tier tiers =>
      unfold serializeBuckets Serialize.serializeBuckets
      infer_instance

instance serializeIntRelative_failAlike (previous : I32) :
    FailAlike (Serialize.serializeIntRelative previous : Action (ReadStream × I32) Unit)
      (serializeIntRelative active previous) := by
  unfold serializeIntRelative Serialize.serializeIntRelative
  dsimp only
  infer_instance

variable [Arithmetic]

instance serializeCompressedFloatPrecomputed_failAlike (maxIntegerValue bits : U32) (delta min : F32) :
    FailAlike (Serialize.serializeCompressedFloatPrecomputed maxIntegerValue bits delta min :
      Action (ReadStream × F32) Unit)
      (serializeCompressedFloatPrecomputed active maxIntegerValue bits delta min) := by
  unfold serializeCompressedFloatPrecomputed Serialize.serializeCompressedFloatPrecomputed
  dsimp only
  infer_instance

instance serializeCompressedFloatPrecomputed_spares (maxIntegerValue bits : U32) (delta min : F32) : Spares .nonFiniteFloat
    (Serialize.serializeCompressedFloatPrecomputed maxIntegerValue bits delta min :
      Action (ReadStream × F32) Unit)
    (serializeCompressedFloatPrecomputed active maxIntegerValue bits delta min) := by
  unfold serializeCompressedFloatPrecomputed Serialize.serializeCompressedFloatPrecomputed
  simp only [ite_or]
  infer_instance

instance serializeCompressedFloat_failAlike (min max resolution : F32) :
    FailAlike (Serialize.serializeCompressedFloat min max resolution : Action (ReadStream × F32) Unit)
      (serializeCompressedFloat active min max resolution) := by
  unfold serializeCompressedFloat Serialize.serializeCompressedFloat
  infer_instance

instance serializeCompressedFloat_spares (min max resolution : F32) : Spares .nonFiniteFloat
    (Serialize.serializeCompressedFloat min max resolution : Action (ReadStream × F32) Unit)
    (serializeCompressedFloat active min max resolution) := by
  unfold serializeCompressedFloat Serialize.serializeCompressedFloat
  infer_instance

end Spared

section SparedRelative

variable {active : Option Control} {reason : Error}

theorem serializeBuckets_spares
    (hint : ∀ min max, Spares reason (Serialize.serializeInt min max : Action (ReadStream × I32) Unit)
      (serializeInt active min max))
    (habsolute : ∀ previous, Spares reason
      (Serialize.serializeAbsolute previous : Action (ReadStream × I32) Unit)
      (serializeAbsolute active previous))
    (previous : I32) (difference : U32) (tiers : List (U32 × I32 × I32)) :
    Spares reason (Serialize.serializeBuckets previous difference tiers : Action (ReadStream × I32) Unit)
      (serializeBuckets active previous difference tiers) := by
  induction tiers with
  | nil => exact habsolute previous
  | cons tier tiers ih =>
      unfold serializeBuckets Serialize.serializeBuckets
      infer_instance

theorem serializeIntRelative_spares
    (hint : ∀ min max, Spares reason (Serialize.serializeInt min max : Action (ReadStream × I32) Unit)
      (serializeInt active min max))
    (habsolute : ∀ previous, Spares reason
      (Serialize.serializeAbsolute previous : Action (ReadStream × I32) Unit)
      (serializeAbsolute active previous))
    (previous : I32) :
    Spares reason (Serialize.serializeIntRelative previous : Action (ReadStream × I32) Unit)
      (serializeIntRelative active previous) := by
  have hbuckets := serializeBuckets_spares hint habsolute
  unfold serializeIntRelative Serialize.serializeIntRelative
  dsimp only
  infer_instance

end SparedRelative

/-! ### What goes astray -/

section Astray

instance {δ : Type} {f : δ → δ} (m m' : Action (ReadStream × δ) Unit) [h : Rewrites f m m'] :
    Rewrites f (whenReading m) (whenReading m') := h

instance {δ : Type} {f : δ → δ} (error : Error) :
    Rewrites f (onState (fail error) : Action (ReadStream × δ) Unit) (onState (fail error)) :=
  .of_ne_ok fun _ _ _ h => by cases (onState_eq_ok.mp h).1

theorem serializeInt_rewrites {min max : I32} (hne : min ≠ max) :
    Rewrites (· - min) (Serialize.serializeInt min max : Action (ReadStream × I32) Unit)
      (serializeInt (some .rangedReconstruction) min max) := by
  have hstore : ∀ unsignedValue : I32, Rewrites (· - min)
      (store (unsignedValue + min) : Action (ReadStream × I32) Unit) (store unsignedValue) := by
    intro unsignedValue
    have hrewrites : Rewrites (· - min) (store (unsignedValue + min) : Action (ReadStream × I32) Unit)
        (store (unsignedValue + min - min)) := inferInstance
    rw [add_sub_cancel_right] at hrewrites
    exact hrewrites
  unfold serializeInt Serialize.serializeInt
  simp only [deleted_self, if_true, show deleted (some .rangedReconstruction) .rangedRange = false from rfl,
    and_true, hne, if_false]
  infer_instance

/-- A range of one value has nothing to reconstruct. -/
theorem serializeInt_self_eq (active : Option Control) (min : I32) :
    (serializeInt active min min : Action (ReadStream × I32) Unit) = Serialize.serializeInt min min := by
  unfold serializeInt Serialize.serializeInt
  simp only [if_true]

theorem serializeInt64_rewrites {min max : I64} (hne : min ≠ max) :
    Rewrites throughDouble (Serialize.serializeInt64 min max : Action (ReadStream × I64) Unit)
      (serializeInt64 (some .int64ThroughDouble) min max) := by
  unfold serializeInt64 Serialize.serializeInt64
  simp only [deleted_self, if_true, hne, if_false]
  infer_instance

theorem serializeInt64_self_eq (active : Option Control) (min : I64) :
    (serializeInt64 active min min : Action (ReadStream × I64) Unit)
      = Serialize.serializeInt64 min min := by
  unfold serializeInt64 Serialize.serializeInt64
  simp only [if_true]

/-- What is reconstructed is accepted or out of range. -/
theorem acceptIntRelative_ends {profile : Profile} {p : ReadStream × I32} (hlive : p.1.failed = none)
    (previous bucketDifference : I32) :
    (∃ value q, (checkedAddI64 previous.toInt bucketDifference.toInt >>= fun reconstructed =>
        acceptIntRelative previous reconstructed : Action (ReadStream × I32) Unit) profile p
        = .ok value q)
      ∨ ∃ q, (checkedAddI64 previous.toInt bucketDifference.toInt >>= fun reconstructed =>
        acceptIntRelative previous reconstructed : Action (ReadStream × I32) Unit) profile p
        = .err .valueOutOfRange q := by
  have hprevious := i32_toInt_bounds previous
  have hdifference := i32_toInt_bounds bucketDifference
  rw [bind_apply, checkedAddI64_of ⟨by omega, by omega⟩, Outcome.bind_ok, acceptIntRelative]
  split
  next =>
    have hspares : Spares .valueOutOfRange
        (onState (fail .valueOutOfRange) : Action (ReadStream × I32) Unit) (store 0) := inferInstance
    rcases hspares.eq_or_err profile p hlive with heq | herr
    · cases heq
    · exact .inr herr
  next => exact .inl ⟨(), _, rfl⟩

theorem serializeBuckets_strays (previous : I32) (difference : U32) (tiers : List (U32 × I32 × I32)) :
    Strays .valueOutOfRange
      (Serialize.serializeBuckets previous difference tiers : Action (ReadStream × I32) Unit)
      (serializeBuckets (some .rangedReconstruction) previous difference tiers) := by
  induction tiers with
  | nil =>
      unfold serializeBuckets Serialize.serializeBuckets
      rw [serializeAbsolute_eq rfl]
      infer_instance
  | cons tier tiers ih =>
      obtain ⟨threshold, bucketMin, bucketMax⟩ := tier
      have htier : Strays .valueOutOfRange
          (do
            let bucketDifference ← inLocal (if isWriting ReadStream then difference else 0)
              (Serialize.serializeInt bucketMin bucketMax)
            whenReading (do
              let reconstructed ← checkedAddI64 previous.toInt bucketDifference.toInt
              acceptIntRelative previous reconstructed) : Action (ReadStream × I32) Unit)
          (do
            let bucketDifference ← inLocal (if isWriting ReadStream then difference else 0)
              (serializeInt (some .rangedReconstruction) bucketMin bucketMax)
            whenReading (do
              let reconstructed ← checkedAddI64 previous.toInt bucketDifference.toInt
              acceptIntRelative previous reconstructed)) := by
        by_cases hne : bucketMin = bucketMax
        · rw [hne, serializeInt_self_eq]
          infer_instance
        refine ⟨fun {profile p} hlive => ?_⟩
        have hrewrites := (serializeInt_rewrites hne).eq_bind profile
          (p.1, if isWriting ReadStream then difference else 0)
        rw [bind_apply, bind_apply]
        rcases hrun : Serialize.serializeInt bucketMin bucketMax profile
          (p.1, if isWriting ReadStream then difference else 0) with
          ⟨⟨⟩, stream, value⟩ | ⟨error, stream, value⟩ | ⟨stream, value⟩
        · rw [inLocal_of_ok hrun, Outcome.bind_ok]
          have hlive' : stream.failed = none := (Steady.latched_eq hrun).trans hlive
          exact .inr (acceptIntRelative_ends hlive' previous value)
        · rw [hrun] at hrewrites
          rw [inLocal_of_err hrun, inLocal_of_err hrewrites]
          exact .inl rfl
        · rw [hrun] at hrewrites
          rw [inLocal_of_trap hrun, inLocal_of_trap hrewrites]
          exact .inl rfl
      unfold serializeBuckets Serialize.serializeBuckets
      infer_instance

theorem serializeIntRelative_strays (previous : I32) : Strays .valueOutOfRange
    (Serialize.serializeIntRelative previous : Action (ReadStream × I32) Unit)
    (serializeIntRelative (some .rangedReconstruction) previous) := by
  have hbuckets := serializeBuckets_strays previous
  unfold serializeIntRelative Serialize.serializeIntRelative
  dsimp only
  infer_instance

/-! A fixed point field with one value. -/

theorem declarationCheck_bind_of_not {δ β : Type} {declared : Prop} [Decidable declared]
    (h : ¬declared) (next next' : Unit → Action (ReadStream × δ) β) :
    (onState (declarationCheck declared) >>= next) = (onState (declarationCheck declared) >>= next') := by
  rw [declarationCheck, if_neg h]
  rfl

section Fixed

variable {T : FixedPointStorage} {integerBits fractionBits : U32} {minUnits maxUnits : I64}

theorem onState_declarationCheck_bind {δ β : Type} {declared : Prop} [Decidable declared] (h : declared)
    (next : Unit → Action (ReadStream × δ) β) :
    (onState (declarationCheck declared) >>= next) = next () := by
  rw [declarationCheck, if_pos h]
  rfl

/-- A rule on the one value of a field has no say in another field. -/
theorem serializeFixed_eq_of_not (active : Option Control)
    (h : ¬(Operation.FixedLegal T integerBits fractionBits minUnits maxUnits ∧ minUnits = maxUnits)) :
    (serializeFixed active T integerBits fractionBits minUnits maxUnits :
      Action (ReadStream × BitVec T.bits) Unit)
      = Serialize.serializeFixed T integerBits fractionBits minUnits maxUnits := by
  unfold serializeFixed Serialize.serializeFixed
  have hbits := T.bits_le
  by_cases heq : minUnits = maxUnits
  case neg => simp only [heq, if_false]
  by_cases hpositive : 1 ≤ integerBits.toNat
  case neg => exact declarationCheck_bind_of_not hpositive _ _
  rw [onState_declarationCheck_bind hpositive, onState_declarationCheck_bind hpositive]
  by_cases hwidth : integerBits.toNat + fractionBits.toNat = T.bits
  case neg => exact declarationCheck_bind_of_not hwidth _ _
  rw [onState_declarationCheck_bind hwidth, onState_declarationCheck_bind hwidth]
  by_cases hsle : minUnits.sle maxUnits = true
  case neg => exact declarationCheck_bind_of_not hsle _ _
  rw [onState_declarationCheck_bind hsle, onState_declarationCheck_bind hsle,
    capacityCheck_eq T minUnits maxUnits hpositive (by omega)]
  refine declarationCheck_bind_of_not (fun hcapacity => h ⟨?_, heq⟩) _ _
  have horder := BitVec.sle_iff_toInt_le.mp hsle
  obtain ⟨hlow, hhigh⟩ := (Decoders.capacity_iff hpositive hwidth horder).mp hcapacity
  exact ⟨hpositive, hwidth, horder, hlow, hhigh⟩

/-- On its own, a field with one value takes the gate, where it is there, and leaves the value. -/
theorem serializeFixed_degenerate (active : Option Control)
    (hlegal : Operation.FixedLegal T integerBits fractionBits minUnits minUnits) :
    (serializeFixed active T integerBits fractionBits minUnits minUnits :
      Action (ReadStream × BitVec T.bits) Unit)
      = (onlyIf (deleted active .fixedDegenerateTerminal = false) (onState refuseIfFailed) >>= fun _ =>
        store (T.fromUnsigned (minUnits.signExtend 128 <<< fractionBits.toNat))) := by
  have hbits := T.bits_le
  have hwidth := hlegal.width
  have hpositive := hlegal.integerBits_pos
  have hfraction : fractionBits.toNat < 128 := by omega
  unfold serializeFixed
  rw [onState_declarationCheck_bind hpositive, onState_declarationCheck_bind hwidth,
    onState_declarationCheck_bind (BitVec.sle_iff_toInt_le.mpr hlegal.order),
    capacityCheck_eq T minUnits minUnits hpositive (by omega),
    onState_declarationCheck_bind (Decoders.capacity_of_legal hlegal)]
  funext profile p
  rw [bind_apply, shiftAmount_of hfraction, Outcome.bind_ok, bind_apply,
    noOverflow_of (units_do_not_overflow _ _), Outcome.bind_ok]
  dsimp only
  rw [if_pos rfl]
  rfl

/-- On a live stream or a failed one, with the gate deleted the value is stored. -/
theorem serializeFixed_deleted (hlegal : Operation.FixedLegal T integerBits fractionBits minUnits minUnits)
    (profile : Profile) (p : ReadStream × BitVec T.bits) :
    serializeFixed (some .fixedDegenerateTerminal) T integerBits fractionBits minUnits minUnits profile p
      = .ok () (p.1, T.fromUnsigned (minUnits.signExtend 128 <<< fractionBits.toNat)) := by
  rw [serializeFixed_degenerate _ hlegal]
  rfl

theorem serializeFixed_gated (hlegal : Operation.FixedLegal T integerBits fractionBits minUnits minUnits)
    (profile : Profile) (p : ReadStream × BitVec T.bits) :
    Serialize.serializeFixed T integerBits fractionBits minUnits minUnits profile p
      = p.1.failed.elim
        (.ok () (p.1, T.fromUnsigned (minUnits.signExtend 128 <<< fractionBits.toNat)))
        fun error => .err error p := by
  have hgate : refuseIfFailed profile p.1 = p.1.failed.elim (.ok () p.1) fun error => .err error p.1 :=
    refuseIfLatched_eq profile p.1
  rw [← @serializeFixed_eq ReadStream _ none rfl, serializeFixed_degenerate _ hlegal, bind_apply]
  show ((onState refuseIfFailed : Action (ReadStream × BitVec T.bits) Unit) profile p).bind _ = _
  rw [onState_apply, hgate]
  cases p.1.failed with
  | none => rfl
  | some error => rfl

end Fixed

/-! A double holds what it was rounded to. -/

/-- A significand of at most 53 bits at an exponent is its own nearest double. -/
theorem nearestDouble_mul_two_pow {k : Nat} (hk : k < 2 ^ 53) (d : Nat) :
    nearestDouble (k * 2 ^ d) = k * 2 ^ d := by
  obtain ⟨dropped, hdropped⟩ : ∃ dropped, Nat.size (k * 2 ^ d) - 53 = dropped := ⟨_, rfl⟩
  have hle : dropped ≤ d := by
    have hsize : Nat.size (k * 2 ^ d) ≤ 53 + d := Nat.size_le.mpr (by
      rw [pow_add]
      exact Nat.mul_lt_mul_of_pos_right hk (Nat.two_pow_pos d))
    omega
  have hsplit : k * 2 ^ d = k * 2 ^ (d - dropped) * 2 ^ dropped := by
    rw [Nat.mul_assoc, ← pow_add, Nat.sub_add_cancel hle]
  have hnearest := Binary32.nearest_mul_right (k * 2 ^ (d - dropped)) 1 (Nat.two_pow_pos dropped)
  rw [Nat.one_mul, Binary32.nearest_one] at hnearest
  rw [nearestDouble, hdropped, hsplit, hnearest]

theorem nearestDouble_eq (n : Nat) : ∃ k d, k ≤ 2 ^ 53 ∧ nearestDouble n = k * 2 ^ d := by
  refine ⟨_, _, ?_, rfl⟩
  have hsize : n < 2 ^ (53 + (Nat.size n - 53)) := Nat.size_le.mp (by omega)
  have hquotient : n / 2 ^ (Nat.size n - 53) < 2 ^ 53 := by
    rw [Nat.div_lt_iff_lt_mul (Nat.two_pow_pos _), ← pow_add]
    exact hsize
  have hnearest := (Binary32.nearest_range n (2 ^ (Nat.size n - 53))).2
  omega

theorem nearestDouble_nearestDouble (n : Nat) : nearestDouble (nearestDouble n) = nearestDouble n := by
  obtain ⟨k, d, hk, heq⟩ := nearestDouble_eq n
  rw [heq]
  rcases Nat.lt_or_eq_of_le hk with hlt | rfl
  · exact nearestDouble_mul_two_pow hlt d
  · -- the carry is one exponent further
    have hcarry := @nearestDouble_mul_two_pow (2 ^ 52) (by norm_num) (d + 1)
    rw [show 2 ^ 53 * 2 ^ d = 2 ^ 52 * 2 ^ (d + 1) by ring]
    exact hcarry

theorem nearestDouble_le {n : Nat} (h : n ≤ 2 ^ 63) : nearestDouble n ≤ 2 ^ 63 := by
  rcases Nat.lt_or_eq_of_le h with hlt | rfl
  · have hsize : Nat.size n ≤ 63 := Nat.size_le.mpr hlt
    obtain ⟨dropped, hdropped⟩ : ∃ dropped, Nat.size n - 53 = dropped := ⟨_, rfl⟩
    have hmono := Binary32.nearest_le_nearest (2 ^ dropped) h
    have hpow : (2 : Nat) ^ 63 = 2 ^ (63 - dropped) * 2 ^ dropped := by
      rw [← pow_add]
      congr 1
      omega
    have htop := Binary32.nearest_mul_right (2 ^ (63 - dropped)) 1 (Nat.two_pow_pos dropped)
    rw [Nat.one_mul, Binary32.nearest_one, ← hpow] at htop
    rw [htop] at hmono
    rw [nearestDouble, hdropped]
    calc Binary32.nearest n (2 ^ dropped) * 2 ^ dropped
        ≤ 2 ^ (63 - dropped) * 2 ^ dropped := Nat.mul_le_mul_right _ hmono
      _ = 2 ^ 63 := hpow.symm
  · exact (@nearestDouble_mul_two_pow 1 (by norm_num) 63).le

theorem asDouble_natCast (n : Nat) : asDouble n = nearestDouble n := by
  rcases Nat.eq_zero_or_pos n with rfl | hpos
  · rfl
  · rw [asDouble, Int.natAbs_natCast, Int.sign_eq_one_of_pos (Int.natCast_pos.mpr hpos), one_mul]

theorem asDouble_neg (value : Int) : asDouble (-value) = -asDouble value := by
  rw [asDouble, asDouble, Int.sign_neg, Int.natAbs_neg, neg_mul]

theorem asDouble_asDouble (value : Int) : asDouble (asDouble value) = asDouble value := by
  obtain ⟨n, rfl | rfl⟩ := value.eq_nat_or_neg
  · rw [asDouble_natCast, asDouble_natCast, nearestDouble_nearestDouble]
  · rw [asDouble_neg, asDouble_neg, asDouble_natCast, asDouble_natCast, nearestDouble_nearestDouble]

theorem neg_le_asDouble {value : Int} (h : -2 ^ 63 ≤ value) : -2 ^ 63 ≤ asDouble value := by
  obtain ⟨n, rfl | rfl⟩ := value.eq_nat_or_neg
  · rw [asDouble_natCast]
    omega
  · have hle := @nearestDouble_le n (by omega)
    rw [asDouble_neg, asDouble_natCast]
    omega

/-- **A double holds what it was rounded to.** -/
theorem throughDouble_throughDouble (value : I64) :
    throughDouble (throughDouble value) = throughDouble value := by
  rw [throughDouble.eq_1 value]
  split
  next => decide
  next hlt =>
    have hlow := neg_le_asDouble (BitVec.le_toInt value)
    have htoInt : (BitVec.ofInt 64 (asDouble value.toInt)).toInt = asDouble value.toInt := by
      rw [BitVec.toInt_ofInt, Int.bmod_eq_of_le]
      · omega
      · omega
    rw [throughDouble, htoInt, asDouble_asDouble, if_neg hlt]

end Astray

section SparedReader

open ReadStream

variable (active : Option Control)

instance (priority := high) {α : Type} (reason : Error) (m : Action ReadStream α) :
    Spares reason (latch reason : Action ReadStream α) m where
  eq_or_err profile stream h := by
    refine .inr ⟨{ stream with failed := some reason }, ?_⟩
    rw [latch_eq, show stream.failed = none from h]
    rfl

instance (priority := high) {δ : Type} (reason : Error) (m : Action (ReadStream × δ) Unit) :
    Spares reason (onState (latch reason) : Action (ReadStream × δ) Unit) m :=
  (inferInstance : Spares reason (onState (fail reason)) m)

instance : Stops ReadStream.readAlign where
  live_of_ok {profile stream value stream'} h := by
    obtain ⟨seen, middle, hstate, hrest⟩ := bind_eq_ok.mp h
    cases hstate
    obtain ⟨refused, middle, hrefuses, hrest⟩ := bind_eq_ok.mp hrest
    cases refused with
    | false => exact live_of_refuses hrefuses
    | true => cases hrest

instance : Steady (readAlign active) := by
  unfold readAlign
  infer_instance

instance readAlign_failAlike : FailAlike ReadStream.readAlign (readAlign active) where
  eq_of_latched profile stream h := by
    unfold ReadStream.readAlign readAlign
    rw [bind_apply, bind_apply, getState_apply, Outcome.bind_ok, Outcome.bind_ok, bind_apply,
      bind_apply]
    cases hrefuses : refuses (BitVec.ofNat 32 stream.reader.alignBits) profile stream with
    | ok refused middle =>
        cases refused with
        | false => exact absurd (live_of_refuses hrefuses) h
        | true => rfl
    | err error middle => rfl
    | trap middle => rfl

instance readAlign_spares : Spares .nonzeroPadding ReadStream.readAlign (readAlign active) := by
  unfold ReadStream.readAlign readAlign
  simp only [ite_or]
  infer_instance

instance readEnd_failAlike : FailAlike ReadStream.readEnd (readEnd active) := by
  unfold ReadStream.readEnd readEnd
  infer_instance

theorem readEnd_spares_trailing (h : deleted active .endPadding = false) :
    Spares .trailingData ReadStream.readEnd (readEnd active) := by
  unfold ReadStream.readEnd readEnd
  simp only [h, and_true, onlyIf, ite_and]
  infer_instance

theorem readEnd_spares_padding (h : deleted active .endTrailingData = false) :
    Spares .nonzeroPadding ReadStream.readEnd (readEnd active) := by
  unfold ReadStream.readEnd readEnd
  simp only [h, and_true, onlyIf, ite_and]
  infer_instance

/-- A failed stream keeps the reason it has. -/
instance reject_failAlike : FailAlike (Serialize.reject : Action ReadStream Unit) (reject active) where
  eq_of_latched profile stream h := by
    obtain ⟨first, hfailed⟩ := Option.ne_none_iff_exists'.mp h
    have hlatch (error : Error) : (fail error : Action ReadStream Unit) profile stream
        = .err first { stream with failed := some first } := by
      show latch error profile stream = _
      rw [latch_eq, show stream.failed = some first from hfailed]
      rfl
    have hassert : (debugAssert (isReading ReadStream = true) : Action ReadStream Unit) profile stream
        = .ok () stream := debugAssert_of rfl profile stream
    rw [reject, Serialize.reject, bind_apply, bind_apply, hassert, Outcome.bind_ok, Outcome.bind_ok,
      hlatch, hlatch]

instance reject_spares : Spares .rejected (Serialize.reject : Action ReadStream Unit) (reject active) :=
  (inferInstance : Spares .rejected (debugAssert (isReading ReadStream = true) >>= fun _ =>
      latch .rejected : Action ReadStream Unit)
    (debugAssert (isReading ReadStream = true) >>= fun _ =>
      fail (if isReading ReadStream && deleted active .rejectReason then .valueOutOfRange
        else .rejected)))

section Objects

variable {δ : Type}

theorem serializeObject_terminal (object : Action (ReadStream × δ) Unit) :
    serializeObject (some .objectTerminal) object = object := if_pos (deleted_self _)

/-- The gate before an object stays. -/
theorem serializeObject_latchRejected_failAlike (object object' : Action (ReadStream × δ) Unit) :
    FailAlike (Serialize.serializeObject object)
      (serializeObject (some .objectLatchRejected) object') := by
  rw [serializeObject, @deleted_of_ne .objectLatchRejected .objectTerminal (by simp),
    if_neg Bool.false_ne_true]
  show FailAlike (onState refuseIfLatched >>= fun _ => _) (onState refuseIfLatched >>= fun _ => _)
  infer_instance

variable {object : Action (ReadStream × δ) Unit} {stream : ReadStream} {profile : Profile} {value : δ}

theorem serializeObject_latchRejected_ok (hlive : stream.failed = none) {p : ReadStream × δ}
    (h : object profile (stream, value) = .ok () p) (hnone : p.1.failed = none) :
    serializeObject (some .objectLatchRejected) object profile (stream, value) = .ok () p := by
  rw [serializeObject, @deleted_of_ne .objectLatchRejected .objectTerminal (by simp),
    if_neg Bool.false_ne_true, bind_apply, onState_apply, refuseIfLatched_eq, hlive, Option.elim_none, Outcome.mapState_ok, Outcome.bind_ok, bind_apply, attempt, h]
  dsimp only
  rw [Outcome.bind_ok]
  dsimp only
  rw [onState_apply, refuseIfLatched_eq, hnone]
  rfl

theorem serializeObject_latchRejected_trap (hlive : stream.failed = none) {p : ReadStream × δ}
    (h : object profile (stream, value) = .trap p) :
    serializeObject (some .objectLatchRejected) object profile (stream, value) = .trap p := by
  rw [serializeObject, @deleted_of_ne .objectLatchRejected .objectTerminal (by simp),
    if_neg Bool.false_ne_true, bind_apply, onState_apply, refuseIfLatched_eq, hlive, Option.elim_none, Outcome.mapState_ok, Outcome.bind_ok, bind_apply, attempt, h]
  rfl

end Objects

instance serializeBytes_failAlike (n : Nat) : FailAlike
    (Serialize.serializeBytes : Action (ReadStream × List.Vector U8 n) Unit)
    (@Serialize.serializeBytes _ (readStream active) n) := by
  unfold Serialize.serializeBytes instStream readStream
  infer_instance

instance serializeBytes_spares (n : Nat) : Spares .nonzeroPadding
    (Serialize.serializeBytes : Action (ReadStream × List.Vector U8 n) Unit)
    (@Serialize.serializeBytes _ (readStream active) n) := by
  unfold Serialize.serializeBytes instStream readStream
  infer_instance

instance readString_failAlike (bufferSize : Nat) :
    FailAlike (Serialize.serializeString bufferSize : Action (ReadStream × Text) Unit)
      (readString active bufferSize) := by
  rw [← readString_none]
  unfold readString
  simp only [@serializeInt_eq ReadStream _ none rfl rfl, @readAlign_eq none rfl]
  infer_instance

theorem readString_spares {active : Option Control} {reason : Error}
    (hint : ∀ max, Spares reason (Serialize.serializeInt 0 max : Action (ReadStream × I32) Unit)
      (serializeInt active 0 max))
    (halign : Spares reason ReadStream.readAlign (readAlign active))
    (hpayload : ∀ bytes, Spares reason (acceptPayload none bytes) (acceptPayload active bytes))
    (bufferSize : Nat) :
    Spares reason (Serialize.serializeString bufferSize) (readString active bufferSize) := by
  rw [← readString_none]
  unfold readString
  simp only [@serializeInt_eq ReadStream _ none rfl rfl, @readAlign_eq none rfl]
  infer_instance

theorem acceptPayload_spares_nul {active : Option Control}
    (h : active = some .stringEmbeddedNul ∨ active = some .wrongReason) (bytes : List U8) :
    Spares .embeddedNul (acceptPayload none bytes) (acceptPayload active bytes) := by
  have hutf8 : utf8RuleDeleted active bytes = none := by
    rcases h with rfl | rfl
    · exact utf8RuleDeleted_eq rfl rfl bytes
    · exact utf8RuleDeleted_eq rfl rfl bytes
  rw [acceptPayload_none]
  unfold acceptPayload
  rw [hutf8, ite_and]
  infer_instance

theorem acceptPayload_spares_utf8 {active : Option Control}
    (hnul : deleted active .stringEmbeddedNul = false) (hreason : deleted active .wrongReason = false)
    (bytes : List U8) :
    Spares .invalidUtf8 (acceptPayload none bytes) (acceptPayload active bytes) := by
  rw [acceptPayload_none]
  unfold acceptPayload
  simp only [hnul, hreason, and_true, Bool.false_eq_true, if_false]
  cases fromUtf8 bytes with
  | some text =>
      dsimp only
      infer_instance
  | none =>
      dsimp only
      infer_instance

end SparedReader

/-! ### What is deleted

A rule that is deleted refuses nothing. Most reasons have one rule, beside the two of a read that runs
out and of a value out of its range. -/

section Deleted

open ReadStream

variable {δ : Type} {reason : Error}

theorem fail_avoids {error : Error} (hne : error ≠ reason) :
    Avoids reason (fail error : Action ReadStream Unit) :=
  latch_avoids hne

instance : Avoids reason (refuseIfFailed : Action ReadStream Unit) :=
  (inferInstance : Avoids reason refuseIfLatched)

instance (m : Action (ReadStream × δ) Unit) [h : Avoids reason m] : Avoids reason (whenReading m) := h

instance (m : Action (ReadStream × δ) Unit) : Avoids reason (whenWriting m) :=
  (inferInstance : Avoids reason (pure ()))

instance {σ : Type} [Latched Error σ] (bufferSize : Nat) :
    Avoids reason (largestLength bufferSize : Action σ I32) := by
  unfold largestLength
  infer_instance

theorem readPayload_avoids (hpast : .pastEnd ≠ reason) (bytes : Nat) :
    Avoids reason (readPayload bytes) := by
  have hlatch : Avoids reason (latch .pastEnd : Action ReadStream (List U8)) := latch_avoids hpast
  unfold readPayload
  infer_instance

section Ranged

variable (hrange : .valueOutOfRange ≠ reason)

include hrange

theorem declarationCheck_avoids (declared : Prop) [Decidable declared] :
    Avoids reason (declarationCheck declared : Action ReadStream Unit) := by
  have := fail_avoids hrange
  unfold declarationCheck
  show Avoids reason (if declared then pure () else if true = true then fail .valueOutOfRange
    else debugAssert False)
  infer_instance

variable (hpast : .pastEnd ≠ reason)

include hpast

theorem serializeBits64_avoids (bits : U32) :
    Avoids reason (serializeBits64 bits : Action (ReadStream × U64) Unit) := by
  have hcheck := fun (declared : Prop) [Decidable declared] => declarationCheck_avoids hrange declared
  have hbits := serializeBits_avoids hpast hrange
  unfold serializeBits64 serializeDwords
  infer_instance

theorem serializeBool_avoids : Avoids reason (serializeBool : Action (ReadStream × Bool) Unit) := by
  have hbits := serializeBits_avoids hpast hrange
  unfold serializeBool
  infer_instance

theorem serializeInt_avoids (active : Option Control) (min max : I32) :
    Avoids reason (serializeInt active min max : Action (ReadStream × I32) Unit) := by
  have hcheck := fun (declared : Prop) [Decidable declared] => declarationCheck_avoids hrange declared
  have hbits := serializeBits_avoids hpast hrange
  have hfail := fail_avoids hrange
  unfold serializeInt
  dsimp only
  infer_instance

end Ranged

theorem serializeF32_avoids :
    Avoids .nonFiniteFloat (serializeF32 (some .floatFinite) : Action (ReadStream × F32) Unit) := by
  have hbits := @serializeBits_avoids .nonFiniteFloat (by simp) (by simp)
  unfold serializeF32
  simp only [deleted_self, or_true, if_true]
  infer_instance

theorem serializeF64_avoids :
    Avoids .nonFiniteFloat (serializeF64 (some .doubleFinite) : Action (ReadStream × F64) Unit) := by
  have hbits := @serializeBits64_avoids .nonFiniteFloat (by simp) (by simp)
  unfold serializeF64
  simp only [deleted_self, or_true, if_true]
  infer_instance

theorem serializeIntRelative_avoids (previous : I32) : Avoids .nonCanonical
    (serializeIntRelative (some .intRelativeCanonical) previous : Action (ReadStream × I32) Unit) := by
  have hcheck := fun (declared : Prop) [Decidable declared] =>
    @declarationCheck_avoids .nonCanonical (by simp) declared _
  have hbits := @serializeBits_avoids .nonCanonical (by simp) (by simp)
  have hbool := @serializeBool_avoids .nonCanonical (by simp) (by simp)
  have hint := @serializeInt_avoids .nonCanonical (by simp) (by simp)
    (some .intRelativeCanonical)
  have hfail : Avoids .nonCanonical (fail .valueOutOfRange : Action ReadStream Unit) :=
    fail_avoids (by simp)
  have haccept : ∀ (previous : I32) (reconstructed : Int), Avoids .nonCanonical
      (acceptIntRelative previous reconstructed : Action (ReadStream × I32) Unit) := by
    intro previous reconstructed
    unfold acceptIntRelative
    infer_instance
  have habsolute : Avoids .nonCanonical
      (serializeAbsolute (some .intRelativeCanonical) previous : Action (ReadStream × I32) Unit) := by
    unfold serializeAbsolute
    simp only [deleted_self, Bool.true_eq_false, and_false, if_false]
    infer_instance
  have hbuckets : ∀ (difference : U32) (tiers : List (U32 × I32 × I32)), Avoids .nonCanonical
      (serializeBuckets (some .intRelativeCanonical) previous difference tiers :
        Action (ReadStream × I32) Unit) := by
    intro difference tiers
    induction tiers with
    | nil => exact habsolute
    | cons tier tiers ih =>
        unfold serializeBuckets
        infer_instance
  unfold serializeIntRelative
  dsimp only
  infer_instance

theorem readAlign_avoids {active : Option Control} {reason : Error} (hpast : .pastEnd ≠ reason)
    (hpadding : .nonzeroPadding ≠ reason ∨ deleted active .alignPadding = true) :
    Avoids reason (readAlign active) where
  latched_of_err {profile stream stream'} h := by
    rcases bind_eq_err.mp h with hstate | ⟨seen, middle, hstate, hrest⟩
    · cases hstate
    cases hstate
    rcases bind_eq_err.mp hrest with hrefuses | ⟨refused, middle, hrefuses, hrest⟩
    · exact (Infallible.ne_err _ _ _ _ hrefuses).elim
    have hlatched : middle.failed = stream.failed := Steady.latched_eq hrefuses
    show stream.failed = some reason
    cases refused with
    | true =>
        rw [if_pos rfl, latch_eq, hlatched, refusal] at hrest
        injection hrest with hreason
        cases hfailed : stream.failed with
        | none =>
            rw [hfailed] at hreason
            exact absurd hreason hpast
        | some error =>
            rw [hfailed] at hreason
            exact congrArg some hreason
    | false =>
        rw [if_neg Bool.false_ne_true] at hrest
        have havoids : Avoids reason (do
            let zeros ← onReader BitReader.readAlign
            if zeros = true ∨ deleted active .alignPadding = true then pure ()
            else latch .nonzeroPadding : Action ReadStream Unit) := by
          rcases hpadding with hne | hdeleted
          · have hlatch : Avoids reason (latch .nonzeroPadding : Action ReadStream Unit) :=
              latch_avoids hne
            infer_instance
          · simp only [hdeleted, or_true, if_true]
            infer_instance
        rw [← hlatched]
        exact havoids.latched_of_err hrest

theorem serializeBytes_avoids (n : Nat) : Avoids .nonzeroPadding
    (@Serialize.serializeBytes _ (readStream (some .alignPadding)) n) := by
  have halign := @readAlign_avoids (some .alignPadding) .nonzeroPadding (by simp) (.inr rfl)
  have hpayload := @readPayload_avoids .nonzeroPadding (by simp) n
  have hcopy : ∀ source : List U8, Avoids .nonzeroPadding
      (copyInto source : Action (ReadStream × List.Vector U8 n) Unit) := by
    intro source
    unfold copyInto
    split
    · exact ⟨fun h => by cases h⟩
    · infer_instance
  unfold Serialize.serializeBytes readStream
  infer_instance

theorem readString_avoids {active : Option Control} {reason : Error} (hpast : .pastEnd ≠ reason)
    (hrange : .valueOutOfRange ≠ reason) (halign : Avoids reason (readAlign active))
    (hpayload : ∀ bytes, Avoids reason (acceptPayload active bytes)) (bufferSize : Nat) :
    Avoids reason (readString active bufferSize) := by
  have hint := serializeInt_avoids hrange hpast active
  have hbytes := readPayload_avoids hpast
  have hlatch : Avoids reason (latch .valueOutOfRange : Action ReadStream Unit) := latch_avoids hrange
  unfold readString
  infer_instance

theorem acceptPayload_avoids {active : Option Control} {reason : Error}
    (hnul : (if deleted active .wrongReason then .invalidUtf8 else .embeddedNul) ≠ reason
      ∨ deleted active .stringEmbeddedNul = true)
    (hutf8 : .invalidUtf8 ≠ reason ∨ deleted active .stringUtf8 = true) (bytes : List U8) :
    Avoids reason (acceptPayload active bytes) := by
  have hpayload : Avoids reason (match fromUtf8 bytes with
      | some text => store text
      | none => match utf8RuleDeleted active bytes with
        | some text => store text
        | none => onState (latch .invalidUtf8) : Action (ReadStream × Text) Unit) := by
    cases fromUtf8 bytes with
    | some text =>
        show Avoids reason (store text)
        infer_instance
    | none =>
        dsimp only
        rcases hutf8 with hne | hdeleted
        · have hlatch : Avoids reason (latch .invalidUtf8 : Action ReadStream Unit) := latch_avoids hne
          cases utf8RuleDeleted active bytes with
          | some text =>
              show Avoids reason (store text)
              infer_instance
          | none =>
              show Avoids reason (onState (latch .invalidUtf8))
              infer_instance
        · rw [utf8RuleDeleted, if_pos hdeleted]
          infer_instance
  unfold acceptPayload
  rcases hnul with hne | hdeleted
  · have hlatch : Avoids reason (latch (if deleted active .wrongReason then .invalidUtf8
        else .embeddedNul) : Action ReadStream Unit) := latch_avoids hne
    infer_instance
  · rw [hdeleted, if_neg fun h => by cases h.2]
    exact hpayload

theorem readEnd_avoids_trailing : Avoids .trailingData (readEnd (some .endTrailingData)) := by
  have hlatch : Avoids .trailingData (latch .nonzeroPadding : Action ReadStream Unit) :=
    latch_avoids (by simp)
  unfold readEnd
  simp only [deleted_self, Bool.true_eq_false, and_false, if_false]
  infer_instance

theorem readEnd_avoids_padding : Avoids .nonzeroPadding (readEnd (some .endPadding)) := by
  have hlatch : Avoids .nonzeroPadding (latch .trailingData : Action ReadStream Unit) :=
    latch_avoids (by simp)
  unfold readEnd
  simp only [deleted_self, Bool.true_eq_false, and_false, onlyIf, if_false]
  infer_instance

theorem reject_avoids : Avoids .rejected (reject (some .rejectReason) : Action ReadStream Unit) := by
  have hfail : Avoids .rejected (fail .valueOutOfRange : Action ReadStream Unit) :=
    fail_avoids (by simp)
  unfold reject
  exact (inferInstance : Avoids .rejected (debugAssert (isReading ReadStream = true) >>= fun _ =>
    fail .valueOutOfRange : Action ReadStream Unit))

variable [Arithmetic]

theorem serializeCompressedFloatPrecomputed_avoids (maxIntegerValue bits : U32) (delta min : F32) :
    Avoids .nonFiniteFloat (serializeCompressedFloatPrecomputed (some .compressedFloatFinite)
      maxIntegerValue bits delta min : Action (ReadStream × F32) Unit) := by
  have hcheck := fun (declared : Prop) [Decidable declared] =>
    @declarationCheck_avoids .nonFiniteFloat (by simp) declared _
  have hbits := @serializeBits_avoids .nonFiniteFloat (by simp) (by simp)
  have hfail : Avoids .nonFiniteFloat (fail .valueOutOfRange : Action ReadStream Unit) :=
    fail_avoids (by simp)
  unfold serializeCompressedFloatPrecomputed
  simp only [deleted_self, or_true, if_true]
  refine Avoids.bind inferInstance fun _ => Avoids.bind inferInstance fun _ => ?_
  infer_instance

theorem serializeCompressedFloat_avoids (min max resolution : F32) : Avoids .nonFiniteFloat
    (serializeCompressedFloat (some .compressedFloatFinite) min max resolution :
      Action (ReadStream × F32) Unit) := by
  have hcheck := fun (declared : Prop) [Decidable declared] =>
    @declarationCheck_avoids .nonFiniteFloat (by simp) declared _
  have hprecomputed := serializeCompressedFloatPrecomputed_avoids
  have hparams : Avoids .nonFiniteFloat (serializeCompressedFloatParams min max resolution :
      Action (ReadStream × F32) CompressedFloatParams) := by
    unfold serializeCompressedFloatParams
    infer_instance
  unfold serializeCompressedFloat
  infer_instance

end Deleted

end Controls

end Serialize
