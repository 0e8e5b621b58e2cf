import Serialize.Reader.Controls
import Serialize.Reader.Events

/-!
# A control deletes one rule

A call tells by itself whether a rule had a say in it: by what it refused, or by what it accepted. A
run on a reader with the rule deleted is the run on the real reader, unless a call of it is such.
-/

namespace Serialize

open Machine
open Binary32 (Arithmetic)
open ReadStream

/-! ### What a rule decides -/

namespace Operation

/-- The operation reconstructs a value from an offset that is not the value. -/
def Offsets : Operation → Result → Prop
  | .int min max, result => (min ≠ max ∧ min ≠ 0) ∧ result = .ok ()
  | .intRelative _, result => result = .ok () ∨ result = .error .valueOutOfRange
  | _, _ => False

/-- The operation carries a 64 bit value no double holds. -/
def Overflows : (operation : Operation) → operation.Value → Prop
  | .int64 min max, value => min ≠ max ∧ Controls.throughDouble value ≠ value
  | _, _ => False

/-- The operation carries a fixed point field of one value. -/
def OneValued : Operation → Prop
  | .fixed T integerBits fractionBits minUnits maxUnits =>
      FixedLegal T integerBits fractionBits minUnits maxUnits ∧ minUnits = maxUnits
  | _ => False

end Operation

namespace Control

/-- The operations a rule is checked in. -/
def Guards : Control → Operation → Prop
  | .alignPadding, operation => operation.Aligns
  | .rangedReconstruction, .int _ _ | .rangedReconstruction, .intRelative _ => True
  | .rangedRange, .int _ _ | .rangedRange, .intRelative _ | .rangedRange, .string _ => True
  | .fixedDegenerateTerminal, .fixed _ _ _ _ _ => True
  | .floatFinite, .f32 => True
  | .doubleFinite, .f64 => True
  | .compressedFloatFinite, .compressedFloat _ _ _ => True
  | .compressedFloatFinite, .compressedFloatPrecomputed _ _ _ _ => True
  | .intRelativeCanonical, .intRelative _ => True
  | .stringEmbeddedNul, .string _ | .stringUtf8, .string _ => True
  | .stringUtf8Surrogate, .string _ | .wrongReason, .string _ => True
  | .int64ThroughDouble, .int64 _ _ => True
  | _, _ => False

/-- What a rule refuses a read for. -/
def reason : Control → Option Error
  | .alignPadding | .endPadding => some .nonzeroPadding
  | .rangedRange => some .valueOutOfRange
  | .floatFinite | .doubleFinite | .compressedFloatFinite => some .nonFiniteFloat
  | .endTrailingData => some .trailingData
  | .intRelativeCanonical => some .nonCanonical
  | .stringEmbeddedNul | .wrongReason => some .embeddedNul
  | .stringUtf8 | .stringUtf8Surrogate => some .invalidUtf8
  | .rejectReason => some .rejected
  | .rangedReconstruction | .fixedDegenerateTerminal | .int64ThroughDouble => none
  | .objectTerminal | .objectLatchRejected => none

/-- The rule had a say in an operation on a stream with this failure. -/
def DecidesOperation (control : Control) (failure : Option Error) (operation : Operation)
    (result : Result) (final : operation.Value) : Prop :=
  match control with
  | .rangedReconstruction => failure = none ∧ operation.Offsets result
  | .int64ThroughDouble => result = .ok () ∧ operation.Overflows final
  | .fixedDegenerateTerminal => failure ≠ none ∧ operation.OneValued ∧ result ≠ .ok ()
  | _ => failure = none ∧ control.Guards operation
      ∧ ∃ reason, control.reason = some reason ∧ result = .error reason

/-- The rule had a say in a call. -/
def Decides {ω : Type} (control : Control) (event : Event ω) : Prop :=
  match event.call with
  | .operation operation _ final =>
      control.DecidesOperation event.before.failure operation event.result final
  | .finish => (control = .endTrailingData ∨ control = .endPadding) ∧ event.before.failure = none
      ∧ ∃ reason, control.reason = some reason ∧ event.result = .error reason
  | .fail _ => False
  | .reject => control = .rejectReason ∧ event.before.failure = none
      ∧ event.result = .error .rejected
  | .object _ _ _ => (control = .objectTerminal
      ∨ control = .objectLatchRejected ∧ event.before.failure = none) ∧ event.result ≠ .ok ()

/-- The rules of which a call tells exactly: where one had a say, the call ends otherwise without it. -/
def Sharp : Control → Prop
  | .rangedRange | .rangedReconstruction | .stringUtf8Surrogate => False
  | .objectTerminal | .objectLatchRejected => False
  | _ => True

end Control

theorem Control.decidesOperation_iff {control : Control} {reason : Error}
    (hreason : control.reason = some reason) {failure : Option Error} {operation : Operation}
    {result : Result} {final : operation.Value} :
    control.DecidesOperation failure operation result final
      ↔ failure = none ∧ control.Guards operation ∧ result = .error reason := by
  have hrefuses : (∃ reason', control.reason = some reason' ∧ result = .error reason')
      ↔ result = .error reason := by
    rw [hreason]
    simp
  rw [← hrefuses]
  cases control with
  | rangedReconstruction | fixedDegenerateTerminal | int64ThroughDouble => cases hreason
  | _ => rfl

namespace Controls

theorem error_ne_ok (error : Error) : (.error error : Result) ≠ .ok () := by simp

/-! ### Operations -/

section Operations

variable [Arithmetic]

/-- An operation of the reader of the controls profile. -/
abbrev runReader (control : Control) (operation : Operation) :
    Action (ReadStream × operation.Value) Unit :=
  @run (some control) _ ReadStream (readStream (some control)) operation

/-- Where no rule that guards an operation is deleted, it is the real one. -/
theorem run_eq {active : Option Control} {operation : Operation}
    (h : ∀ site : Control, site.Guards operation → deleted active site = false) :
    @run active _ ReadStream (readStream active) operation = operation.run := by
  cases operation with
  | int min max => exact serializeInt_eq (h _ trivial) (h _ trivial) min max
  | int64 min max => exact serializeInt64_eq (h _ trivial) min max
  | fixed T integerBits fractionBits minUnits maxUnits =>
      exact serializeFixed_eq (h _ trivial) T _ _ _ _
  | intRelative previous =>
      exact serializeIntRelative_eq (serializeInt_eq (h _ trivial) (h _ trivial))
        (serializeAbsolute_eq (h _ trivial)) previous
  | f32 => exact serializeF32_eq (h _ trivial)
  | f64 => exact serializeF64_eq (h _ trivial)
  | compressedFloat min max resolution =>
      exact serializeCompressedFloat_eq (serializeCompressedFloatPrecomputed_eq (h _ trivial)) min max
        resolution
  | compressedFloatPrecomputed maxIntegerValue width delta min =>
      exact serializeCompressedFloatPrecomputed_eq (h _ trivial) maxIntegerValue width delta min
  | bytes count =>
      have halign : readAlign active = ReadStream.readAlign := readAlign_eq (h _ trivial)
      show (onState (readAlign active) >>= fun _ => _) = _
      rw [halign]
      rfl
  | string bufferSize =>
      refine readString_eq (fun max => ?_) ?_ ?_ bufferSize
      · exact serializeInt_zero_eq (h _ trivial) max
      · exact readAlign_eq (h _ trivial)
      · exact acceptPayload_eq (h _ trivial) (h _ trivial) (h _ trivial) (h _ trivial)
  | align => exact congrArg onState (readAlign_eq (h _ trivial))
  | _ => rfl

theorem runReader_eq {control : Control} {operation : Operation} (h : ¬control.Guards operation) :
    runReader control operation = operation.run := by
  refine run_eq fun site hsite => deleted_of_ne ?_
  rintro rfl
  exact h hsite

/-- From a failed stream the reader of the controls profile does what the real one does, the rule on
failed streams aside. -/
theorem runReader_failAlike {control : Control} (hterminal : control ≠ .fixedDegenerateTerminal)
    (operation : Operation) : FailAlike operation.run (runReader control operation) := by
  by_cases hguards : control.Guards operation
  case neg =>
    rw [runReader_eq hguards]
    infer_instance
  cases operation with
  | fixed T integerBits fractionBits minUnits maxUnits =>
      exfalso
      cases control with
      | fixedDegenerateTerminal => exact hterminal rfl
      | _ => exact hguards
  | string bufferSize => exact readString_failAlike _ bufferSize
  | int min max => exact serializeInt_failAlike _ min max
  | int64 min max => exact serializeInt64_failAlike _ min max
  | intRelative previous => exact serializeIntRelative_failAlike _ previous
  | f32 => exact serializeF32_failAlike _
  | f64 => exact serializeF64_failAlike _
  | compressedFloat min max resolution => exact serializeCompressedFloat_failAlike _ min max resolution
  | compressedFloatPrecomputed maxIntegerValue width delta min =>
      exact serializeCompressedFloatPrecomputed_failAlike _ maxIntegerValue width delta min
  | bytes count => exact serializeBytes_failAlike _ count
  | align =>
      show FailAlike (onState ReadStream.readAlign) (onState (readAlign _))
      infer_instance
  | _ => exact (by cases control <;> exact hguards : False).elim

/-- A rule that refuses is all that its deletion takes from a live stream. -/
theorem runReader_spares {control : Control} {reason : Error} (hreason : control.reason = some reason)
    (operation : Operation) : Spares reason operation.run (runReader control operation) := by
  by_cases hguards : control.Guards operation
  case neg =>
    rw [runReader_eq hguards]
    infer_instance
  cases control with
  | alignPadding =>
      cases hreason
      cases operation with
      | align =>
          show Spares _ (onState ReadStream.readAlign) (onState (readAlign _))
          infer_instance
      | bytes count => exact serializeBytes_spares _ count
      | string bufferSize =>
          exact readString_spares (fun max => .of_eq (serializeInt_eq rfl rfl 0 max)) (readAlign_spares _)
            (fun bytes => .of_eq (acceptPayload_eq rfl rfl rfl rfl bytes)) bufferSize
      | _ => exact hguards.elim
  | rangedRange =>
      cases hreason
      have hint := @serializeInt_spares (some .rangedRange) rfl
      cases operation with
      | int min max => exact hint min max
      | intRelative previous =>
          exact serializeIntRelative_spares hint (fun previous => .of_eq (serializeAbsolute_eq rfl previous))
            previous
      | string bufferSize =>
          exact readString_spares (hint 0) (.of_eq (readAlign_eq rfl))
            (fun bytes => .of_eq (acceptPayload_eq rfl rfl rfl rfl bytes)) bufferSize
      | _ => exact hguards.elim
  | floatFinite =>
      cases hreason
      cases operation with
      | f32 => exact serializeF32_spares _
      | _ => exact hguards.elim
  | doubleFinite =>
      cases hreason
      cases operation with
      | f64 => exact serializeF64_spares _
      | _ => exact hguards.elim
  | compressedFloatFinite =>
      cases hreason
      cases operation with
      | compressedFloat min max resolution =>
          exact serializeCompressedFloat_spares _ min max resolution
      | compressedFloatPrecomputed maxIntegerValue width delta min =>
          exact serializeCompressedFloatPrecomputed_spares _ maxIntegerValue width delta min
      | _ => exact hguards.elim
  | intRelativeCanonical =>
      cases hreason
      cases operation with
      | intRelative previous =>
          exact serializeIntRelative_spares (fun min max => .of_eq (serializeInt_eq rfl rfl min max))
            inferInstance previous
      | _ => exact hguards.elim
  | stringEmbeddedNul =>
      cases hreason
      cases operation with
      | string bufferSize =>
          exact readString_spares (fun max => .of_eq (serializeInt_eq rfl rfl 0 max))
            (.of_eq (readAlign_eq rfl)) (acceptPayload_spares_nul (.inl rfl)) bufferSize
      | _ => exact hguards.elim
  | wrongReason =>
      cases hreason
      cases operation with
      | string bufferSize =>
          exact readString_spares (fun max => .of_eq (serializeInt_eq rfl rfl 0 max))
            (.of_eq (readAlign_eq rfl)) (acceptPayload_spares_nul (.inr rfl)) bufferSize
      | _ => exact hguards.elim
  | stringUtf8 =>
      cases hreason
      cases operation with
      | string bufferSize =>
          exact readString_spares (fun max => .of_eq (serializeInt_eq rfl rfl 0 max))
            (.of_eq (readAlign_eq rfl)) (acceptPayload_spares_utf8 rfl rfl) bufferSize
      | _ => exact hguards.elim
  | stringUtf8Surrogate =>
      cases hreason
      cases operation with
      | string bufferSize =>
          exact readString_spares (fun max => .of_eq (serializeInt_eq rfl rfl 0 max))
            (.of_eq (readAlign_eq rfl)) (acceptPayload_spares_utf8 rfl rfl) bufferSize
      | _ => exact hguards.elim
  | endTrailingData | endPadding | rejectReason => exact hguards.elim
  | rangedReconstruction | fixedDegenerateTerminal | int64ThroughDouble => cases hreason
  | objectTerminal | objectLatchRejected => cases hreason

/-- How a call comes back. -/
def ends {δ : Type} (result : Result) (p : ReadStream × δ) : Outcome Error (ReadStream × δ) Unit :=
  match result with
  | .ok () => .ok () p
  | .error error => .err error p

theorem fixed_spared {T : FixedPointStorage} {integerBits fractionBits : U32} {minUnits maxUnits : I64}
    (profile : Profile) (stream : ReadStream) (value : BitVec T.bits) :
    runReader .fixedDegenerateTerminal (.fixed T integerBits fractionBits minUnits maxUnits) profile
        (stream, value)
        = (Operation.fixed T integerBits fractionBits minUnits maxUnits).run profile (stream, value)
      ∨ ∃ result q, (Operation.fixed T integerBits fractionBits minUnits maxUnits).run profile
          (stream, value) = ends result q
        ∧ Control.fixedDegenerateTerminal.DecidesOperation stream.failed
          (.fixed T integerBits fractionBits minUnits maxUnits) result q.2 := by
  by_cases hdegenerate : Operation.FixedLegal T integerBits fractionBits minUnits maxUnits
    ∧ minUnits = maxUnits
  case neg => exact .inl (congrFun₂ (serializeFixed_eq_of_not _ hdegenerate) profile (stream, value))
  obtain ⟨hlegal, rfl⟩ := hdegenerate
  show serializeFixed _ T integerBits fractionBits minUnits minUnits profile (stream, value)
      = Serialize.serializeFixed T integerBits fractionBits minUnits minUnits profile (stream, value)
    ∨ ∃ result q, Serialize.serializeFixed T integerBits fractionBits minUnits minUnits profile
      (stream, value) = ends result q ∧ _
  rw [serializeFixed_deleted hlegal, serializeFixed_gated hlegal]
  cases hfailed : stream.failed with
  | none => exact .inl rfl
  | some error => exact .inr ⟨.error error, (stream, value), rfl, Option.some_ne_none error, ⟨hlegal, rfl⟩,
      error_ne_ok error⟩

theorem int_spared {min max : I32} (profile : Profile) (stream : ReadStream) (value : I32) :
    runReader .rangedReconstruction (.int min max) profile (stream, value)
        = (Operation.int min max).run profile (stream, value)
      ∨ ∃ result q, (Operation.int min max).run profile (stream, value) = ends result q
        ∧ Control.rangedReconstruction.DecidesOperation none (.int min max) result q.2 := by
  by_cases hne : min = max
  · subst hne
    exact .inl (congrFun₂ (serializeInt_self_eq _ min) profile (stream, value))
  have hrewrites := (serializeInt_rewrites hne).eq_bind profile (stream, value)
  show serializeInt _ min max profile (stream, value) = Serialize.serializeInt min max profile (stream, value)
    ∨ ∃ result q, Serialize.serializeInt min max profile (stream, value) = ends result q ∧ _
  rcases hrun : Serialize.serializeInt min max profile (stream, value) with ⟨⟨⟩, q⟩ | ⟨error, q⟩ | q
  · rw [hrun, Outcome.bind_ok] at hrewrites
    by_cases hzero : min = 0
    · left
      rw [hrewrites, hzero, sub_zero]
    · exact .inr ⟨.ok (), q, rfl, rfl, ⟨hne, hzero⟩, rfl⟩
  · rw [hrun] at hrewrites
    exact .inl hrewrites
  · rw [hrun] at hrewrites
    exact .inl hrewrites

theorem intRelative_spared {previous : I32} {stream : ReadStream} (hlive : stream.failed = none)
    (profile : Profile) (value : I32) :
    runReader .rangedReconstruction (.intRelative previous) profile (stream, value)
        = (Operation.intRelative previous).run profile (stream, value)
      ∨ ∃ result q, (Operation.intRelative previous).run profile (stream, value) = ends result q
        ∧ Control.rangedReconstruction.DecidesOperation none (.intRelative previous) result q.2 := by
  rcases (serializeIntRelative_strays previous).eq_or_ends profile (stream, value) hlive with
    heq | ⟨⟨⟩, q, hok⟩ | ⟨q, herr⟩
  · exact .inl heq
  · exact .inr ⟨.ok (), q, hok, rfl, .inl rfl⟩
  · exact .inr ⟨.error .valueOutOfRange, q, herr, rfl, .inr rfl⟩

theorem int64_spared {min max : I64} (profile : Profile) (stream : ReadStream) (value : I64) :
    runReader .int64ThroughDouble (.int64 min max) profile (stream, value)
        = (Operation.int64 min max).run profile (stream, value)
      ∨ ∃ result q, (Operation.int64 min max).run profile (stream, value) = ends result q
        ∧ Control.int64ThroughDouble.DecidesOperation none (.int64 min max) result q.2 := by
  by_cases hne : min = max
  · subst hne
    exact .inl (congrFun₂ (serializeInt64_self_eq _ min) profile (stream, value))
  have hrewrites := (serializeInt64_rewrites hne).eq_bind profile (stream, value)
  show serializeInt64 _ min max profile (stream, value)
      = Serialize.serializeInt64 min max profile (stream, value)
    ∨ ∃ result q, Serialize.serializeInt64 min max profile (stream, value) = ends result q ∧ _
  rcases hrun : Serialize.serializeInt64 min max profile (stream, value) with ⟨⟨⟩, q⟩ | ⟨error, q⟩ | q
  · rw [hrun, Outcome.bind_ok] at hrewrites
    by_cases hdouble : throughDouble q.2 = q.2
    · left
      rw [hrewrites, hdouble]
    · exact .inr ⟨.ok (), q, rfl, rfl, hne, hdouble⟩
  · rw [hrun] at hrewrites
    exact .inl hrewrites
  · rw [hrun] at hrewrites
    exact .inl hrewrites

/-- **An operation of the controls profile is the real one**, unless the deleted rule had a say in it. -/
theorem operation_spared (control : Control) (operation : Operation) (profile : Profile)
    (stream : ReadStream) (value : operation.Value) :
    runReader control operation profile (stream, value) = operation.run profile (stream, value)
      ∨ ∃ result q, operation.run profile (stream, value) = ends result q
        ∧ control.DecidesOperation stream.failed operation result q.2 := by
  by_cases hguards : control.Guards operation
  case neg => exact .inl (by rw [runReader_eq hguards])
  by_cases hterminal : control = .fixedDegenerateTerminal
  · subst hterminal
    cases operation with
    | fixed T integerBits fractionBits minUnits maxUnits => exact fixed_spared profile stream value
    | _ => exact hguards.elim
  cases hfailed : stream.failed with
  | some first =>
      exact .inl ((runReader_failAlike hterminal operation).eq_of_latched profile (stream, value)
        (hfailed.trans_ne (Option.some_ne_none first)))
  | none =>
      cases hreason : control.reason with
      | some reason =>
          rcases (runReader_spares hreason operation).eq_or_err profile (stream, value) hfailed with
            heq | ⟨q, herr⟩
          · exact .inl heq
          · exact .inr ⟨.error reason, q, herr,
              (Control.decidesOperation_iff hreason).mpr ⟨rfl, hguards, rfl⟩⟩
      | none =>
          cases control with
          | rangedReconstruction =>
              cases operation with
              | int min max => exact int_spared profile stream value
              | intRelative previous => exact intRelative_spared hfailed profile value
              | _ => exact hguards.elim
          | int64ThroughDouble =>
              cases operation with
              | int64 min max => exact int64_spared profile stream value
              | _ => exact hguards.elim
          | fixedDegenerateTerminal => exact absurd rfl hterminal
          | objectTerminal | objectLatchRejected => exact hguards.elim
          | _ => cases hreason

/-- Where it is checked, a deleted rule refuses nothing on its own. -/
theorem runReader_avoids {control : Control} {reason : Error} (hsharp : control.Sharp)
    (hreason : control.reason = some reason) {operation : Operation}
    (hguards : control.Guards operation) : Avoids reason (runReader control operation) := by
  cases control with
  | alignPadding =>
      cases hreason
      have halign := @readAlign_avoids (some .alignPadding) .nonzeroPadding (by simp) (.inr rfl)
      cases operation with
      | align =>
          show Avoids _ (onState (readAlign (some .alignPadding)))
          infer_instance
      | bytes count => exact serializeBytes_avoids count
      | string bufferSize =>
          exact readString_avoids (by simp) (by simp) halign
            (acceptPayload_avoids (.inl (by simp [deleted])) (.inl (by simp))) bufferSize
      | _ => exact hguards.elim
  | floatFinite =>
      cases hreason
      cases operation with
      | f32 => exact serializeF32_avoids
      | _ => exact hguards.elim
  | doubleFinite =>
      cases hreason
      cases operation with
      | f64 => exact serializeF64_avoids
      | _ => exact hguards.elim
  | compressedFloatFinite =>
      cases hreason
      cases operation with
      | compressedFloat min max resolution => exact serializeCompressedFloat_avoids min max resolution
      | compressedFloatPrecomputed maxIntegerValue width delta min =>
          exact serializeCompressedFloatPrecomputed_avoids maxIntegerValue width delta min
      | _ => exact hguards.elim
  | intRelativeCanonical =>
      cases hreason
      cases operation with
      | intRelative previous => exact serializeIntRelative_avoids previous
      | _ => exact hguards.elim
  | stringEmbeddedNul =>
      cases hreason
      cases operation with
      | string bufferSize =>
          exact readString_avoids (by simp) (by simp) (readAlign_avoids (by simp) (.inl (by simp)))
            (acceptPayload_avoids (.inr rfl) (.inl (by simp))) bufferSize
      | _ => exact hguards.elim
  | wrongReason =>
      cases hreason
      cases operation with
      | string bufferSize =>
          exact readString_avoids (by simp) (by simp) (readAlign_avoids (by simp) (.inl (by simp)))
            (acceptPayload_avoids (.inl (by simp [deleted])) (.inl (by simp))) bufferSize
      | _ => exact hguards.elim
  | stringUtf8 =>
      cases hreason
      cases operation with
      | string bufferSize =>
          exact readString_avoids (by simp) (by simp) (readAlign_avoids (by simp) (.inl (by simp)))
            (acceptPayload_avoids (.inl (by simp [deleted])) (.inr rfl)) bufferSize
      | _ => exact hguards.elim
  | endTrailingData | endPadding | rejectReason => exact hguards.elim
  | rangedReconstruction | fixedDegenerateTerminal | int64ThroughDouble => cases hreason
  | objectTerminal | objectLatchRejected => cases hreason
  | rangedRange | stringUtf8Surrogate => exact hsharp.elim

theorem fixed_deleted {operation : Operation} {profile : Profile} {stream : ReadStream}
    {value : operation.Value} {result : Result} {q : ReadStream × operation.Value}
    (h : runReader .fixedDegenerateTerminal operation profile (stream, value) = ends result q) :
    ¬Control.fixedDegenerateTerminal.DecidesOperation stream.failed operation result q.2 := by
  rintro ⟨-, hdegenerate, hrefused⟩
  cases operation with
  | fixed T integerBits fractionBits minUnits maxUnits =>
      obtain ⟨hlegal, rfl⟩ := hdegenerate
      have hrun := (serializeFixed_deleted hlegal profile (stream, value)).symm.trans h
      cases result with
      | ok => exact hrefused rfl
      | error error => cases hrun
  | _ => exact hdegenerate

theorem int64_deleted {operation : Operation} {profile : Profile} {stream : ReadStream}
    {value : operation.Value} {result : Result} {q : ReadStream × operation.Value}
    (h : runReader .int64ThroughDouble operation profile (stream, value) = ends result q) :
    ¬Control.int64ThroughDouble.DecidesOperation stream.failed operation result q.2 := by
  rintro ⟨rfl, hoverflows⟩
  cases operation with
  | int64 min max =>
      obtain ⟨hne, hdouble⟩ := hoverflows
      have hrewrites := (serializeInt64_rewrites hne).eq_bind profile (stream, value)
      rcases hrun : Serialize.serializeInt64 min max profile (stream, value) with ⟨⟨⟩, p⟩ | ⟨error, p⟩ | p
      · rw [hrun, Outcome.bind_ok] at hrewrites
        have hq := hrewrites.symm.trans h
        cases hq
        exact hdouble (throughDouble_throughDouble p.2)
      · rw [hrun] at hrewrites
        cases hrewrites.symm.trans h
      · rw [hrun] at hrewrites
        cases hrewrites.symm.trans h
  | _ => exact hoverflows

/-- **A deleted rule has no say in an operation.** -/
theorem operation_deleted {control : Control} (hsharp : control.Sharp) {operation : Operation}
    {profile : Profile} {stream : ReadStream} {value : operation.Value} {result : Result}
    {q : ReadStream × operation.Value}
    (h : runReader control operation profile (stream, value) = ends result q) :
    ¬control.DecidesOperation stream.failed operation result q.2 := by
  cases hreason : control.reason with
  | some reason =>
      rw [Control.decidesOperation_iff hreason]
      rintro ⟨hlive, hguards, rfl⟩
      have hlatched := (runReader_avoids hsharp hreason hguards).latched_of_err h
      cases hlive.symm.trans hlatched
  | none =>
      cases control with
      | fixedDegenerateTerminal => exact fixed_deleted h
      | int64ThroughDouble => exact int64_deleted h
      | rangedReconstruction | objectTerminal | objectLatchRejected => exact hsharp.elim
      | _ => cases hreason

end Operations

/-! ### Other calls -/

section Calls

variable {δ ω : Type} {control : Control}

/-- The end of the packet is looked for as on the real reader, unless the deleted rule refuses it. -/
theorem finish_spared (control : Control) (profile : Profile) (stream : ReadStream) :
    readEnd (some control) profile stream = ReadStream.readEnd profile stream
      ∨ ∃ reason stream', ReadStream.readEnd profile stream = .err reason stream'
        ∧ (control = .endTrailingData ∨ control = .endPadding) ∧ stream.failed = none
        ∧ control.reason = some reason := by
  cases hfailed : stream.failed with
  | some first =>
      exact .inl ((readEnd_failAlike (some control)).eq_of_latched profile stream
        (hfailed.trans_ne (Option.some_ne_none first)))
  | none =>
      by_cases htrailing : control = .endTrailingData
      · subst htrailing
        rcases (@readEnd_spares_trailing (some .endTrailingData) rfl).eq_or_err
          profile stream hfailed with heq | ⟨stream', herr⟩
        · exact .inl heq
        · exact .inr ⟨_, stream', herr, .inl rfl, rfl, rfl⟩
      by_cases hpadding : control = .endPadding
      · subst hpadding
        rcases (@readEnd_spares_padding (some .endPadding) rfl).eq_or_err
          profile stream hfailed with heq | ⟨stream', herr⟩
        · exact .inl heq
        · exact .inr ⟨_, stream', herr, .inr rfl, rfl, rfl⟩
      have heq := @readEnd_eq (some control) (deleted_of_ne htrailing) (deleted_of_ne hpadding)
      exact .inl (by rw [heq])

theorem reject_spared (control : Control) (profile : Profile) (stream : ReadStream) :
    reject (some control) profile stream = Serialize.reject profile stream
      ∨ ∃ stream', Serialize.reject profile stream = .err .rejected stream'
        ∧ control = .rejectReason ∧ stream.failed = none := by
  by_cases hreject : control = .rejectReason
  case neg =>
    have heq := @reject_eq ReadStream _ (some control) (deleted_of_ne hreject)
    exact .inl (by rw [heq])
  subst hreject
  cases hfailed : stream.failed with
  | some first =>
      exact .inl ((reject_failAlike (some .rejectReason)).eq_of_latched profile stream
        (hfailed.trans_ne (Option.some_ne_none first)))
  | none =>
      rcases (reject_spares (some .rejectReason)).eq_or_err profile stream hfailed with
        heq | ⟨stream', herr⟩
      · exact .inl heq
      · exact .inr ⟨stream', herr, rfl, rfl⟩

/-! #### Nested objects -/

theorem serializeObject_failAlike (hterminal : control ≠ .objectTerminal)
    (object object' : Action (ReadStream × δ) Unit) :
    FailAlike (Serialize.serializeObject object) (serializeObject (some control) object') := by
  by_cases hlatch : control = .objectLatchRejected
  · subst hlatch
    exact serializeObject_latchRejected_failAlike object object'
  · rw [serializeObject_eq (deleted_of_ne hterminal) (deleted_of_ne hlatch)]
    show FailAlike (onState ReadStream.refuseIfLatched >>= fun _ => _)
      (onState ReadStream.refuseIfLatched >>= fun _ => _)
    infer_instance

section Objects

variable {stream : ReadStream} {prior : ω} {profile : Profile} {log : Log ω}
  {body : Action (ReadStream × Log ω) (Result × ω)}

/-- Without the gates of either rule, an object that accepts leaves what it leaves with them. -/
theorem handing_unguarded_accepted (hcontrol : control = .objectTerminal ∨ control = .objectLatchRejected)
    (hlive : stream.failed = none) {memory : ω} {stream' : ReadStream} {log' : Log ω}
    (hbody : body profile (stream, log) = .ok (.ok (), memory) (stream', log'))
    (hnone : stream'.failed = none) :
    Client.handing (prior, false) (serializeObject (some control) (Client.method body)) profile
      (stream, log) = .ok (.ok (), memory, true) (stream', log') := by
  have hmethod : Client.method body profile (stream, log, prior, false)
      = .ok () (stream', log', memory, true) := by
    rw [Client.method]
    dsimp only
    rw [hbody]
  rw [Client.handing]
  dsimp only
  rcases hcontrol with rfl | rfl
  · rw [serializeObject_terminal, hmethod]
  · rw [serializeObject_latchRejected_ok hlive hmethod hnone]

theorem handing_unguarded_trap (hcontrol : control = .objectTerminal ∨ control = .objectLatchRejected)
    (hlive : stream.failed = none) {p : ReadStream × Log ω}
    (hbody : body profile (stream, log) = .trap p) :
    Client.handing (prior, false) (serializeObject (some control) (Client.method body)) profile
      (stream, log) = .trap p := by
  have hmethod : Client.method body profile (stream, log, prior, false) = .trap (p.1, p.2, prior, true) := by
    rw [Client.method]
    dsimp only
    rw [hbody]
  rw [Client.handing]
  dsimp only
  rcases hcontrol with rfl | rfl
  · rw [serializeObject_terminal, hmethod]
  · rw [serializeObject_latchRejected_trap hlive hmethod]

end Objects

end Calls

/-! ### Runs -/

section Runs

variable {α β δ ω : Type} {control : Control}

/-- Where the rule had a say in no call, the second computation is the first. -/
def Isolated (control : Control) (m m' : Action (ReadStream × Log ω) α) : Prop :=
  ∀ profile p, (∀ event ∈ (m profile p).state.2.events, ¬control.Decides event) →
    m' profile p = m profile p

variable [Arithmetic]

/-- The rule had a say in a call on this stream that came back so. -/
def DecidesCall (control : Control) (describe : δ → Call ω) (stream : ReadStream)
    (answer : Result × δ) : Prop :=
  ∀ after, control.Decides
    { call := describe answer.2, result := answer.1, before := Reader.observation stream, after }

namespace Isolated

omit [Arithmetic] in
theorem refl (m : Action (ReadStream × Log ω) α) : Isolated control m m := fun _ _ _ => rfl

omit [Arithmetic] in
theorem bind {m m' : Action (ReadStream × Log ω) α} {next next' : α → Action (ReadStream × Log ω) β}
    (h : Isolated control m m') (hnext : ∀ value, Isolated control (next value) (next' value))
    (hgrows : ∀ value, Grows (next value)) : Isolated control (m >>= next) (m' >>= next') := by
  intro profile p hevents
  rw [bind_apply] at hevents ⊢
  rw [bind_apply]
  cases hm : m profile p with
  | ok value q =>
      rw [hm] at hevents
      have hq : ∀ event ∈ q.2.events, ¬control.Decides event := fun event hevent =>
        hevents event (hgrows value profile q event hevent)
      rw [h profile p (by rw [hm]; exact hq), hm]
      exact hnext value profile q hevents
  | err error q =>
      rw [hm] at hevents
      rw [h profile p (by rw [hm]; exact hevents), hm]
      rfl
  | trap q =>
      rw [hm] at hevents
      rw [h profile p (by rw [hm]; exact hevents), hm]
      rfl

/-- A call that is logged: it does the same, or its event tells that the rule had a say. -/
theorem logged {describe : δ → Call ω} {call call' : Action (ReadStream × Log ω) (Result × δ)}
    (h : ∀ profile p, (∀ event ∈ (call profile p).state.2.events, ¬control.Decides event) →
      call' profile p = call profile p
        ∨ ∃ answer q, call profile p = .ok answer q ∧ DecidesCall control describe p.1 answer) :
    Isolated control (Client.logged describe call) (Client.logged describe call') := by
  intro profile p hevents
  rw [Client.logged_apply] at hevents
  rw [Client.logged_apply, Client.logged_apply]
  set p' : ReadStream × Log ω := (p.1, p.2.notice (Reader.observation p.1)) with hp'
  rcases hcall : call profile p' with ⟨answer, q⟩ | ⟨error, q⟩ | q
  · rw [hcall, Outcome.bind_ok] at hevents
    have hq : ∀ event ∈ q.2.events, ¬control.Decides event := fun event hevent =>
      hevents event (List.mem_append_left _ hevent)
    rcases h profile p' (by rw [hcall]; exact hq) with heq | ⟨answer', q', hok, hdecides⟩
    · rw [heq, hcall]
    · cases hcall.symm.trans hok
      exact absurd (hdecides _) (hevents _ (List.mem_append_right _ (List.mem_singleton.mpr rfl)))
  · rw [hcall] at hevents
    rcases h profile p' (by rw [hcall]; exact hevents) with heq | ⟨_, _, hok, -⟩
    · rw [heq, hcall]
    · cases hcall.symm.trans hok
  · rw [hcall] at hevents
    rcases h profile p' (by rw [hcall]; exact hevents) with heq | ⟨_, _, hok, -⟩
    · rw [heq, hcall]
    · cases hcall.symm.trans hok

/-- A call that leaves the log alone. -/
theorem quiet {describe : δ → Call ω} {prior : δ} {m m' : Action (ReadStream × δ) Unit}
    (h : ∀ profile stream, m' profile (stream, prior) = m profile (stream, prior)
      ∨ ∃ result q, m profile (stream, prior) = ends result q
        ∧ DecidesCall control describe stream (result, q.2)) :
    Isolated control (Client.logged describe (Client.handing prior (Client.quietly m)))
      (Client.logged describe (Client.handing prior (Client.quietly m'))) := by
  refine logged fun profile p _ => ?_
  obtain ⟨stream, log⟩ := p
  rw [Client.handing_quietly, Client.handing_quietly]
  rcases h profile stream with heq | ⟨result, q, hends, hdecides⟩
  · exact .inl (by rw [heq])
  · right
    rw [hends]
    rcases result with error | ⟨⟩
    · exact ⟨_, _, rfl, hdecides⟩
    · exact ⟨_, _, rfl, hdecides⟩

end Isolated

/-- A nested object does what it does on the real reader, or its event tells that the rule had a say. -/
theorem object_spared (body : Client ω) {body' : Action (ReadStream × Log ω) (Result × ω)}
    (h : Isolated control body.run body') (prior : ω) (profile : Profile) (p : ReadStream × Log ω)
    (hevents : ∀ event ∈ (Client.handing (prior, false)
      (Serialize.serializeObject (Client.method body.run)) profile p).state.2.events,
        ¬control.Decides event) :
    Client.handing (prior, false) (serializeObject (some control) (Client.method body')) profile p
        = Client.handing (prior, false) (Serialize.serializeObject (Client.method body.run)) profile p
      ∨ ∃ answer q, Client.handing (prior, false)
          (Serialize.serializeObject (Client.method body.run)) profile p = .ok answer q
        ∧ DecidesCall control (fun final => .object prior final.1 final.2) p.1 answer := by
  obtain ⟨stream, log⟩ := p
  cases hfailed : stream.failed with
  | some first =>
      by_cases hterminal : control = .objectTerminal
      · right
        exact ⟨_, _, Client.handing_object_failed hfailed body.run prior profile log,
          fun after => ⟨.inl hterminal, error_ne_ok first⟩⟩
      · left
        have hgate := (serializeObject_failAlike hterminal (Client.method body.run)
          (Client.method body')).eq_of_latched profile
            (stream, log, prior, false) (hfailed.trans_ne (Option.some_ne_none first))
        rw [Client.handing, Client.handing, hgate]
  | none =>
      rw [Client.handing_object_log_of_live hfailed] at hevents
      have hbody := h profile (stream, log) hevents
      by_cases hguards : control = .objectTerminal ∨ control = .objectLatchRejected
      case neg =>
        left
        rw [serializeObject_eq (deleted_of_ne fun h => hguards (.inl h))
          (deleted_of_ne fun h => hguards (.inr h)),
          Client.handing_object hfailed, Client.handing_object hfailed, hbody]
      have hdecides (answer : Result × (ω × Bool)) (hrefused : answer.1 ≠ .ok ()) :
          DecidesCall control (fun final => .object prior final.1 final.2) stream answer :=
        fun _ => ⟨hguards.imp_right fun heq => ⟨heq, hfailed⟩, hrefused⟩
      obtain ⟨_, _, _, first, hrun, hrecorded⟩ | ⟨error, _, _, _, hrun, hnone⟩ |
        ⟨_, _, _, hrun, hnone⟩ | ⟨_, hrun⟩ := run_ends body profile stream log
      · exact .inr ⟨_, _, Client.handing_object_recorded hfailed prior hrun hrecorded,
          hdecides _ (error_ne_ok _)⟩
      · exact .inr ⟨_, _, Client.handing_object_returned hfailed prior hrun hnone,
          hdecides _ (error_ne_ok _)⟩
      · left
        rw [handing_unguarded_accepted hguards hfailed (hbody.trans hrun) hnone,
          Client.handing_object_accepted hfailed prior hrun hnone]
      · left
        rw [handing_unguarded_trap hguards hfailed (hbody.trans hrun),
          Client.handing_object_trap hfailed prior hrun]

/-! #### One step of a run -/

section Steps

variable (active : Option Control)

theorem runClient_call (operation : Operation) (prior : operation.Value)
    (next : Result → operation.Value → Client ω) :
    runClient active (.call operation prior next) = (do
      let answer ← Client.logged (.operation operation prior) (Client.handing prior
        (Client.quietly (@run active _ ReadStream (readStream active) operation)))
      runClient active (next answer.1 answer.2)) := rfl

theorem runClient_finish (next : Result → Client ω) : runClient active (.finish next) = (do
    let answer ← Client.logged (fun _ => .finish)
      (Client.handing () (Client.quietly (onState (readEnd active))))
    runClient active (next answer.1)) := rfl

theorem runClient_fail (error : Error) (next : Result → Client ω) :
    runClient active (.fail error next) = (do
      let answer ← Client.logged (fun _ => .fail error)
        (Client.handing () (Client.quietly (onState (fail error))))
      runClient active (next answer.1)) := rfl

theorem runClient_reject (next : Result → Client ω) : runClient active (.reject next) = (do
    let answer ← Client.logged (fun _ => .reject)
      (Client.handing () (Client.quietly (onState (reject active))))
    runClient active (next answer.1)) := rfl

theorem runClient_object (prior : ω) (body : Client ω) (next : Result → ω → Client ω) :
    runClient active (.object prior body next) = (do
      let answer ← Client.logged (fun final => .object prior final.1 final.2)
        (Client.handing (prior, false)
          (serializeObject active (Client.method (runClient active body))))
      runClient active (next answer.1 answer.2.1)) := rfl
end Steps

/-- A run on the reader without the rule is the run on the real reader, call by call. -/
theorem run_isolated (control : Control) (client : Client ω) :
    Isolated control client.run (runClient (some control) client) := by
  induction client with
  | done result memory => exact .refl _
  | observe next ih => exact (Isolated.refl _).bind ih fun value => (next value).run_grows
  | call operation prior next ih =>
      refine Isolated.bind (.quiet fun profile stream => ?_) (fun answer => ih answer.1 answer.2)
        fun answer => (next _ _).run_grows
      rcases operation_spared control operation profile stream prior with heq | ⟨result, q, hends, hdecides⟩
      · exact .inl heq
      · exact .inr ⟨result, q, hends, fun _ => hdecides⟩
  | finish next ih =>
      refine Isolated.bind (.quiet fun profile stream => ?_) (fun answer => ih answer.1)
        fun answer => (next _).run_grows
      rcases finish_spared control profile stream with heq | ⟨reason, stream', herr, hguards, hlive, hreason⟩
      · left
        exact congrArg (Outcome.mapState fun stream' => (stream', ())) heq
      · refine .inr ⟨.error reason, (stream', ()), ?_, fun _ => ⟨hguards, hlive, reason, hreason, rfl⟩⟩
        exact congrArg (Outcome.mapState fun stream' => (stream', ())) herr
  | fail error next ih =>
      exact Isolated.bind (.quiet fun profile stream => .inl rfl) (fun answer => ih answer.1)
        fun answer => (next _).run_grows
  | reject next ih =>
      refine Isolated.bind (.quiet fun profile stream => ?_) (fun answer => ih answer.1)
        fun answer => (next _).run_grows
      rcases reject_spared control profile stream with heq | ⟨stream', herr, hreject, hlive⟩
      · left
        exact congrArg (Outcome.mapState fun stream' => (stream', ())) heq
      · refine .inr ⟨.error .rejected, (stream', ()), ?_, fun _ => ⟨hreject, hlive, rfl⟩⟩
        exact congrArg (Outcome.mapState fun stream' => (stream', ())) herr
  | object prior body next ihbody ih =>
      exact Isolated.bind (.logged (object_spared body ihbody prior))
        (fun answer => ih answer.1 answer.2.1) fun answer => (next _ _).run_grows


/-! #### A deleted rule -/

section Deleted

/-- Nothing in the log tells that the rule had a say. -/
abbrev Undecided (control : Control) (event : Event ω) : Prop := ¬control.Decides event

theorem upholds_quiet {describe : δ → Call ω} {prior : δ} {m : Action (ReadStream × δ) Unit}
    (h : ∀ profile stream result q after, m profile (stream, prior) = ends result q →
      ¬control.Decides { call := describe q.2, result, before := Reader.observation stream, after }) :
    Upholds (Undecided control)
      (Client.logged describe (Client.handing prior (Client.quietly m))) := by
  refine Upholds.logged (.of_log (Client.handing_quietly_log _ _)) fun profile p answer q hrun => ?_
  obtain ⟨stream, log⟩ := p
  rw [Client.handing_quietly] at hrun
  rcases hm : m profile (stream, prior) with ⟨⟨⟩, stream', final⟩ | ⟨error, stream', final⟩ | p
  · rw [hm] at hrun
    cases hrun
    exact h profile stream (.ok ()) (stream', final) _ hm
  · rw [hm] at hrun
    cases hrun
    exact h profile stream (.error error) (stream', final) _ hm
  · rw [hm] at hrun
    cases hrun

/-- On the reader without the rule, no call tells that the rule had a say. -/
theorem run_undecided (hsharp : control.Sharp) (client : Client ω) :
    Upholds (Undecided control) (runClient (some control) client) := by
  induction client with
  | done result memory => exact fun _ _ hp => hp
  | observe next ih => exact Upholds.bind (fun _ _ hp => hp) ih
  | call operation prior next ih =>
      rw [runClient_call]
      refine (upholds_quiet ?_).bind fun answer => ih answer.1 answer.2
      exact fun profile stream result q after hends => operation_deleted hsharp hends
  | finish next ih =>
      rw [runClient_finish]
      refine (upholds_quiet ?_).bind fun answer => ih answer.1
      rintro profile stream result q after hends ⟨hguards, hlive, reason, hreason, rfl⟩
      have herr := (onState_eq_err.mp hends).1
      rcases hguards with rfl | rfl
      · cases hreason
        cases hlive.symm.trans (readEnd_avoids_trailing.latched_of_err herr)
      · cases hreason
        cases hlive.symm.trans (readEnd_avoids_padding.latched_of_err herr)
  | fail error next ih =>
      rw [runClient_fail]
      refine (upholds_quiet ?_).bind fun answer => ih answer.1
      exact fun profile stream result q after _ hdecides => hdecides
  | reject next ih =>
      rw [runClient_reject]
      refine (upholds_quiet ?_).bind fun answer => ih answer.1
      rintro profile stream result q after hends ⟨rfl, hlive, rfl⟩
      cases hlive.symm.trans
        (reject_avoids.latched_of_err (onState_eq_err.mp hends).1)
  | object prior body next ihbody ih =>
      have hterminal : control ≠ .objectTerminal := by rintro rfl; exact hsharp
      have hlatch : control ≠ .objectLatchRejected := by rintro rfl; exact hsharp
      rw [runClient_object, serializeObject_eq (deleted_of_ne hterminal) (deleted_of_ne hlatch)]
      refine (Upholds.logged (ihbody.object prior) ?_).bind fun answer => ih answer.1 answer.2.1
      rintro profile p answer q - ⟨rfl | ⟨rfl, -⟩, -⟩
      · exact hsharp
      · exact hsharp

end Deleted

end Runs

/-- Where no control is set, the reader of the controls profile is the real one. -/
theorem reader_none [Arithmetic] : reader none = (inferInstance : Reader ReadStream) := by
  have hoperation : (fun operation => @run none _ ReadStream (readStream none) operation)
      = fun operation => operation.run := funext fun operation => run_eq fun _ _ => rfl
  have hobject : @serializeObject none = @Serialize.serializeObject ReadStream _ :=
    funext fun ω => funext fun object => serializeObject_eq rfl rfl object
  have hreject : (reject none : Action ReadStream Unit) = Serialize.reject := reject_eq rfl
  have hfinish : readEnd none = ReadStream.readEnd := readEnd_eq rfl rfl
  unfold reader
  rw [hreject, hfinish, hobject]
  exact congrArg (fun operation => Reader.mk _ operation _ _ _ _) hoperation

/-! ### The write side -/

section Written

variable {S : Type} [StreamCore S] {active : Option Control} (hreading : isReading S = false)

include hreading

theorem whenReading_written {δ : Type} (m : Action (S × δ) Unit) :
    whenReading m = (pure () : Action (S × δ) Unit) := if_neg (ne_of_eq_of_ne hreading Bool.false_ne_true)

theorem reject_written : (reject active : Action S Unit) = Serialize.reject := by
  rw [reject, Serialize.reject, hreading]
  rfl

theorem serializeInt_written (min max : I32) :
    (serializeInt active min max : Action (S × I32) Unit) = Serialize.serializeInt min max := by
  unfold serializeInt Serialize.serializeInt
  simp only [whenReading_written hreading]

theorem serializeInt64_written (min max : I64) :
    (serializeInt64 active min max : Action (S × I64) Unit) = Serialize.serializeInt64 min max := by
  unfold serializeInt64 Serialize.serializeInt64
  simp only [whenReading_written hreading]

theorem serializeF32_written :
    (serializeF32 active : Action (S × F32) Unit) = Serialize.serializeF32 := by
  unfold serializeF32 Serialize.serializeF32
  simp only [whenReading_written hreading]

theorem serializeF64_written :
    (serializeF64 active : Action (S × F64) Unit) = Serialize.serializeF64 := by
  unfold serializeF64 Serialize.serializeF64
  simp only [whenReading_written hreading]

omit hreading in
/-- The gate of a stream that is not read does nothing, so it can go. -/
theorem serializeFixed_written (hgate : (gate : Action S Unit) = pure ()) (T : FixedPointStorage)
    (integerBits fractionBits : U32) (minUnits maxUnits : I64) :
    (serializeFixed active T integerBits fractionBits minUnits maxUnits :
      Action (S × BitVec T.bits) Unit)
      = Serialize.serializeFixed T integerBits fractionBits minUnits maxUnits := by
  have hrefuse : onState (refuseIfFailed : Action S Unit)
      = (pure () : Action (S × BitVec T.bits) Unit) := by
    rw [refuseIfFailed, hgate]
    rfl
  unfold serializeFixed Serialize.serializeFixed
  simp only [hrefuse, onlyIf, ite_self]

theorem serializeAbsolute_written (previous : I32) :
    (serializeAbsolute active previous : Action (S × I32) Unit)
      = Serialize.serializeAbsolute previous := by
  unfold serializeAbsolute Serialize.serializeAbsolute
  simp only [whenReading_written hreading]

variable [Arithmetic]

theorem serializeCompressedFloatPrecomputed_written (maxIntegerValue bits : U32) (delta min : F32) :
    (serializeCompressedFloatPrecomputed active maxIntegerValue bits delta min :
      Action (S × F32) Unit)
      = Serialize.serializeCompressedFloatPrecomputed maxIntegerValue bits delta min := by
  unfold serializeCompressedFloatPrecomputed Serialize.serializeCompressedFloatPrecomputed
  simp only [whenReading_written hreading]

end Written

/-- An operation on a stream that is not read, where its string is the one of the other builds. -/
theorem run_written [Arithmetic] {S : Type} [hstream : Stream S] (active : Option Control)
    (hreading : isReading S = false) (hgate : (gate : Action S Unit) = pure ())
    (operation : Operation) : run active operation = (operation.run : Action (S × operation.Value) Unit) := by
  cases operation with
  | int min max => exact serializeInt_written hreading min max
  | int64 min max => exact serializeInt64_written hreading min max
  | fixed T integerBits fractionBits minUnits maxUnits =>
      exact serializeFixed_written hgate T integerBits fractionBits minUnits maxUnits
  | intRelative previous =>
      exact serializeIntRelative_eq (serializeInt_written hreading)
        (serializeAbsolute_written hreading) previous
  | f32 => exact serializeF32_written hreading
  | f64 => exact serializeF64_written hreading
  | compressedFloat min max resolution =>
      exact serializeCompressedFloat_eq (serializeCompressedFloatPrecomputed_written hreading) min max
        resolution
  | compressedFloatPrecomputed maxIntegerValue width delta min =>
      exact serializeCompressedFloatPrecomputed_written hreading maxIntegerValue width delta min
  | _ => rfl

theorem writeStream_eq (active : Option Control) :
    writeStream active = (inferInstance : Stream WriteStream) := by
  have hint := @serializeInt_written WriteStream _ active rfl
  unfold writeStream
  simp only [hint]
  rfl

theorem measureStream_eq (active : Option Control) :
    measureStream active = (inferInstance : Stream MeasureStream) := by
  have hint := @serializeInt_written MeasureStream _ active rfl
  unfold measureStream
  simp only [hint]
  rfl

theorem writer_eq [Arithmetic] (active : Option Control) :
    writer active = (inferInstance : Reader WriteStream) := by
  have hoperation : (fun operation => @run active _ WriteStream _ operation)
      = fun operation => operation.run := funext (run_written active rfl rfl)
  have hreject := @reject_written WriteStream _ active rfl
  unfold writer
  rw [writeStream_eq, hreject]
  exact congrArg (fun operation => Reader.mk _ operation _ _ _ _) hoperation

theorem measurer_eq [Arithmetic] (active : Option Control) :
    measurer active = (inferInstance : Reader MeasureStream) := by
  have hoperation : (fun operation => @run active _ MeasureStream _ operation)
      = fun operation => operation.run := funext (run_written active rfl rfl)
  have hreject := @reject_written MeasureStream _ active rfl
  unfold measurer
  rw [measureStream_eq, hreject]
  exact congrArg (fun operation => Reader.mk _ operation _ _ _ _) hoperation

end Controls

open Controls

/-- **A control deletes one rule and nothing else**: with no control set the controls profile serves
every client as the real reader does, and with one set it serves alike those in whose runs no call
tells that the rule had a say. -/
theorem controls_isolated [Arithmetic] {ω : Type} (client : Client ω) (profile : Profile)
    (stream : ReadStream) :
    runClient none client = client.run ∧
    ∀ control : Control,
      (∀ event ∈ (client.run profile (stream, Log.empty)).state.2.events, ¬control.Decides event) →
        runClient (some control) client profile (stream, Log.empty)
          = client.run profile (stream, Log.empty) := by
  refine ⟨?_, fun control => run_isolated control client profile (stream, Log.empty)⟩
  rw [runClient, reader_none]

/-- A rule that refuses has a say where it does. -/
theorem Control.refuses_of_decides {ω : Type} {control : Control} {reason : Error}
    (hreason : control.reason = some reason) {event : Event ω} (h : control.Decides event) :
    event.result = .error reason := by
  obtain ⟨call, result, before, after⟩ := event
  cases call with
  | operation operation prior final => exact ((decidesOperation_iff hreason).mp h).2.2
  | finish =>
      obtain ⟨-, -, reason', hreason', hrefused⟩ := h
      rw [hrefused, Option.some.inj (hreason.symm.trans hreason')]
  | fail error => exact h.elim
  | reject =>
      obtain ⟨rfl, -, hrefused⟩ := h
      cases hreason
      exact hrefused
  | object prior final invoked =>
      obtain ⟨rfl | ⟨rfl, -⟩, -⟩ := h
      · cases hreason
      · cases hreason

/-- Look for the end of the packet. -/
def lookForEnd : Client Unit := .finish fun result => .done result ()

/-- A packet that ends where its end is looked for. -/
theorem controls_isolated_empty_packet :
    runClient (some .endTrailingData) lookForEnd .checked (ReadStream.fresh [] 0, Log.empty)
      = lookForEnd.run .checked (ReadStream.fresh [] 0, Log.empty) := by
  refine (controls_isolated lookForEnd .checked (ReadStream.fresh [] 0)).2 .endTrailingData
    fun event hevent hdecides => ?_
  have hevents : (lookForEnd.run .checked (ReadStream.fresh [] 0, Log.empty)).state.2.events
      = [⟨.finish, .ok (), ⟨none, 0, 0⟩, ⟨none, 0, 0⟩⟩] := rfl
  rw [hevents, List.mem_singleton] at hevent
  subst hevent
  cases @Control.refuses_of_decides _ .endTrailingData _ rfl _ hdecides

/-- **Where the rule had a say, its control goes red**: deleting the rule changes a client's run exactly
where a call of the run tells that the rule had a say in it. -/
theorem control_decides_exactly [Arithmetic] {ω : Type} {control : Control} (hsharp : control.Sharp)
    (client : Client ω) (profile : Profile) (stream : ReadStream) :
    runClient (some control) client profile (stream, Log.empty)
        ≠ client.run profile (stream, Log.empty)
      ↔ ∃ event ∈ (client.run profile (stream, Log.empty)).state.2.events, control.Decides event := by
  constructor
  · intro hne
    by_contra hnone
    push Not at hnone
    exact hne (run_isolated control client profile (stream, Log.empty) hnone)
  · rintro ⟨event, hevent, hdecides⟩ heq
    rw [← heq] at hevent
    exact run_undecided hsharp client profile (stream, Log.empty)
      (fun _ hmem => (List.not_mem_nil hmem).elim) event hevent hdecides

/-- A byte behind the end that is looked for. -/
theorem control_decides_exactly_trailing_byte :
    runClient (some .endTrailingData) lookForEnd .checked (ReadStream.fresh [0xFF] 1, Log.empty)
      ≠ lookForEnd.run .checked (ReadStream.fresh [0xFF] 1, Log.empty) := by
  have hevents : (lookForEnd.run .checked (ReadStream.fresh [0xFF] 1, Log.empty)).state.2.events
      = [⟨.finish, .error .trailingData, ⟨none, 0, 8⟩, ⟨some .trailingData, 0, 8⟩⟩] := rfl
  refine (@control_decides_exactly _ _ .endTrailingData trivial lookForEnd .checked
    (ReadStream.fresh [0xFF] 1)).mpr ?_
  rw [hevents]
  exact ⟨_, .head _, .inl rfl, rfl, .trailingData, rfl, rfl⟩

/-- **No control reaches the write side**: whichever is set, a client writes and measures as in every
other profile. -/
theorem controls_leave_writes_alone [Arithmetic] {ω : Type} (active : Option Control)
    (client : Client ω) :
    @Client.run WriteStream ω (writer active) client = client.run ∧
    @Client.run MeasureStream ω (measurer active) client = client.run := by
  rw [writer_eq, measurer_eq]
  exact ⟨rfl, rfl⟩

end Serialize
