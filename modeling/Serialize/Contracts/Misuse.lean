import Serialize.Contracts.Measure
import Serialize.Float.Binary32
import Serialize.Writer.Reachable

/-!
# Misuse of a measure and of a write

A write stream and a measure stream assert what they are handed in code of their own. This file
shows that, room aside, they panic on the same calls: on those a writer may not be handed.
-/

namespace Serialize

open Machine BitString Encode
open Binary32 (Arithmetic)
open Utf8 (Text)

/-! ### What a checked build lets through -/

namespace Operation

/-- A range of one value, for which a writer looks at no value. -/
def Degenerate : Operation → Prop
  | .int min max => min = max
  | .int64 min max => min = max
  | .int128 min max => min = max
  | _ => False

section Ranged

variable {w : Nat} {min max value : BitVec w} {offset : BitVec w → Encoder}

theorem ranged_conforms {Valid : U32 → U32 → Prop}
    (h : ∀ step ∈ Encoders.ranged offset min max value, step.Passes Valid) : min = max ∨
      (min.toInt ≤ max.toInt ∧ min.toInt ≤ value.toInt ∧ value.toInt ≤ max.toInt) := by
  by_cases heq : min = max
  · exact .inl heq
  · rw [Encoders.ranged, if_neg heq] at h
    simp only [List.forall_mem_cons, Step.Passes, decide_eq_true_iff, BitVec.sle_iff_toInt_le] at h
    exact .inr ⟨h.1, h.2.1, h.2.2.1⟩

end Ranged

theorem bits64_conforms {width : U32} {value : U64} {Valid : U32 → U32 → Prop}
    (h : ∀ step ∈ Encoders.bits64 width value, step.Passes Valid) :
    (1 ≤ width.toNat ∧ width.toNat ≤ 64) ∧ value.toNat < 2 ^ width.toNat := by
  rw [Encoders.bits64] at h
  simp only [List.forall_mem_cons, Step.Passes, decide_eq_true_iff] at h
  exact ⟨h.1, h.2.2.1⟩

theorem capacity_passes {T : FixedPointStorage} {integerBits : U32} {minUnits maxUnits : I64}
    {Valid : U32 → U32 → Prop}
    (h : ∀ step ∈ Encoders.capacity T integerBits minUnits maxUnits, step.Passes Valid) :
    Decoders.Capacity T integerBits minUnits maxUnits := by
  rw [Encoders.capacity] at h
  rw [Decoders.Capacity]
  by_cases hsigned : T.signed = true
  · rw [if_pos hsigned] at h ⊢
    simp only [List.forall_mem_cons, Step.Passes, decide_eq_true_iff] at h
    exact h.2.2.1
  · rw [if_neg hsigned] at h ⊢
    simp only [List.forall_mem_cons, Step.Passes, decide_eq_true_iff] at h
    exact h.1

theorem fixed_conforms {T : FixedPointStorage} {integerBits fractionBits : U32}
    {minUnits maxUnits : I64} {value : BitVec T.bits} {Valid : U32 → U32 → Prop}
    (h : ∀ step ∈ Encoders.fixed T integerBits fractionBits minUnits maxUnits value,
      step.Passes Valid) :
    FixedLegal T integerBits fractionBits minUnits maxUnits
      ∧ rawBound minUnits fractionBits ≤ T.toInt value
      ∧ T.toInt value ≤ rawBound maxUnits fractionBits := by
  rw [Encoders.fixed] at h
  simp only [List.forall_mem_cons, List.forall_mem_append, Step.Passes, decide_eq_true_iff] at h
  obtain ⟨hpositive, hwidth, horder, hcapacity, -, hvalue⟩ := h
  rw [BitVec.sle_iff_toInt_le] at horder
  obtain ⟨hlow, hhigh⟩ := (Decoders.capacity_iff hpositive hwidth horder).mp
    (capacity_passes hcapacity)
  have hlegal : FixedLegal T integerBits fractionBits minUnits maxUnits :=
    ⟨hpositive, hwidth, horder, hlow, hhigh⟩
  refine ⟨hlegal, ?_⟩
  by_cases heq : minUnits = maxUnits
  · rw [if_pos heq] at hvalue
    simp only [List.forall_mem_cons, decide_eq_true_iff] at hvalue
    rw [← Decoders.rawOffset_le_iff hlegal, hvalue.1, sub_self]
    exact BitVec.le_def.mpr (Nat.zero_le _)
  · rw [if_neg heq] at hvalue
    simp only [List.forall_mem_cons, decide_eq_true_iff] at hvalue
    exact (Decoders.rawOffset_le_iff hlegal value).mp hvalue.1

theorem intRelative_conforms {previous current : I32} {Valid : U32 → U32 → Prop}
    (h : ∀ step ∈ Encoders.intRelative previous current, step.Passes Valid) :
    0 ≤ previous.toInt ∧ previous.toInt < current.toInt ∧ current.toInt ≤ i32Max := by
  have hmax := (i32_toInt_bounds current).2
  have hzero : (0 : I32).toInt = 0 := rfl
  rw [Encoders.intRelative] at h
  simp only [List.forall_mem_cons, Step.Passes, decide_eq_true_iff, BitVec.sle_iff_toInt_le,
    BitVec.slt_iff_toInt_lt] at h
  refine ⟨by omega, h.2.1, ?_⟩
  simp only [i32Max]
  omega

variable [Arithmetic]

theorem compressedFloatPrecomputed_conforms {maxIntegerValue width : U32} {delta min value : F32}
    {Valid : U32 → U32 → Prop}
    (h : ∀ step ∈ Encoders.compressedFloatPrecomputed maxIntegerValue width delta min value,
      step.Passes Valid) :
    PrecomputedLegal maxIntegerValue width delta ∧ Binary32.isFinite value = true
      ∧ Binary32.isFinite (Arithmetic.add min delta) = true := by
  rw [Encoders.compressedFloatPrecomputed] at h
  simp only [List.forall_mem_cons, Step.Passes, decide_eq_true_iff] at h
  obtain ⟨hvalue, hwidth, hdelta, hfinite, hdomain, htop, -⟩ := h
  refine ⟨⟨hvalue, ?_, hdelta, hfinite⟩, hdomain, htop⟩
  rw [hwidth, toNat_bitsRequired, Decoders.sub_zero_toNat]

theorem compressedFloat_conforms {min max resolution value : F32} {Valid : U32 → U32 → Prop}
    (h : ∀ step ∈ Encoders.compressedFloat min max resolution value, step.Passes Valid) :
    (compressedFloat min max resolution).Conforms value := by
  rw [Encoders.compressedFloat, Encoders.compressedFloatDeclared] at h
  simp only [List.forall_mem_append, List.forall_mem_cons, Step.Passes, decide_eq_true_iff] at h
  obtain ⟨⟨⟨horder, hdelta, hcount, -⟩, -⟩, hprecomputed⟩ := h
  obtain ⟨-, hdomain, htop⟩ := compressedFloatPrecomputed_conforms hprecomputed
  exact ⟨⟨horder.1, horder.2, hdelta, hcount⟩, hdomain, htop⟩

/-- **What passes every check of a writer conforms**, a degenerate range aside. -/
theorem conforms_of_passes {operation : Operation} {value : operation.Value}
    (haligns : ¬operation.Aligns)
    (h : ∀ step ∈ operation.encoder value, step.Passes BitWriter.Valid) :
    operation.Degenerate ∨ operation.Conforms value := by
  cases operation with
  | bits width =>
      obtain ⟨hlegal, hdomain⟩ := h _ (List.mem_singleton_self _)
      exact .inr ⟨hlegal, hdomain, trivial⟩
  | bits64 width =>
      obtain ⟨hlegal, hdomain⟩ := bits64_conforms h
      exact .inr ⟨hlegal, hdomain, trivial⟩
  | int min max =>
      rw [encoder, Encoders.int] at h
      refine (ranged_conforms h).imp id ?_
      rintro ⟨horder, hrange⟩
      exact ⟨horder, hrange, trivial⟩
  | int64 min max =>
      rw [encoder, Encoders.int64] at h
      refine (ranged_conforms h).imp id ?_
      rintro ⟨horder, hrange⟩
      exact ⟨horder, hrange, trivial⟩
  | int128 min max =>
      rw [encoder, Encoders.int128] at h
      refine (ranged_conforms h).imp id ?_
      rintro ⟨horder, hrange⟩
      exact ⟨horder, hrange, trivial⟩
  | fixed T integerBits fractionBits minUnits maxUnits =>
      obtain ⟨hlegal, hdomain⟩ := fixed_conforms h
      exact .inr ⟨hlegal, hdomain, trivial⟩
  | intRelative previous =>
      obtain ⟨hlegal, hdomain⟩ := intRelative_conforms h
      exact .inr ⟨hlegal, hdomain, trivial⟩
  | f32 =>
      have hfinite := of_decide_eq_true (h _ (List.mem_cons_self ..))
      rw [Decoders.floatBitsAreFinite_eq] at hfinite
      exact .inr ⟨trivial, hfinite, trivial⟩
  | f64 =>
      have hfinite := of_decide_eq_true (h _ (List.mem_cons_self ..))
      rw [Decoders.doubleBitsAreFinite_eq] at hfinite
      exact .inr ⟨trivial, hfinite, trivial⟩
  | compressedFloat min max resolution => exact .inr (compressedFloat_conforms h)
  | compressedFloatPrecomputed maxIntegerValue width delta min =>
      obtain ⟨hlegal, hdomain, htop⟩ := compressedFloatPrecomputed_conforms h
      exact .inr ⟨hlegal, hdomain, htop⟩
  | bool | u8 | u16 | u32 | u64 | u128 => exact .inr ⟨trivial, trivial, trivial⟩
  | bytes count | string bufferSize | align => exact absurd trivial haligns

end Operation

/-! ### Both streams panic on the same calls -/

namespace MeasureStream

theorem count_ne_err (bits : Nat) (build : Build) (stream stream' : MeasureStream) (error : Error) :
    count bits build stream ≠ .err error stream' := by
  intro herr
  rw [count, bind_apply, getState_apply, Outcome.bind_ok, bind_apply, checkedAdd, bind_apply,
    noOverflow_apply] at herr
  split at herr <;> cases herr

theorem put_of_valid {width value : U32} (h : BitWriter.Valid width value) (build : Build)
    (stream : MeasureStream) : put width value build stream = count width.toNat build stream := by
  rw [put, bind_apply, debugAssert_of ((wrapping_pred_lt_iff width).mpr h.1), Outcome.bind_ok,
    bind_apply, inChecked_of_ok, Outcome.bind_ok]
  have hwidth := h.1.2
  rw [bind_apply, noOverflow_of (by omega), Outcome.bind_ok, require_of h.2]

theorem put_trap {width value : U32} (stream : MeasureStream) (h : ¬BitWriter.Valid width value) :
    put width value .checked stream = .trap stream := by
  rw [put, bind_apply]
  by_cases hwidth : 1 ≤ width.toNat ∧ width.toNat ≤ 32
  · rw [debugAssert_of ((wrapping_pred_lt_iff width).mpr hwidth), Outcome.bind_ok, bind_apply,
      inChecked, bind_apply, noOverflow_of (by omega), Outcome.bind_ok,
      require_of_not fun hvalue => h ⟨hwidth, hvalue⟩, Outcome.bind_trap]
  · rw [debugAssert_checked_of_not (mt (wrapping_pred_lt_iff width).mp hwidth), Outcome.bind_trap]

theorem put_ne_err (width value : U32) (stream stream' : MeasureStream) (error : Error) :
    put width value .checked stream ≠ .err error stream' := by
  by_cases hvalid : BitWriter.Valid width value
  · rw [put_of_valid hvalid]
    exact count_ne_err _ _ _ _ _
  · intro herr
    rw [put_trap stream hvalid] at herr
    cases herr

end MeasureStream

namespace WriteStream

variable {buffer : List U8}

theorem put_ne_err (hbuffer : BitWriter.Writable buffer) (width value : U32)
    {stream : WriteStream} (stream' : WriteStream) (error : Error) (h : Holds buffer stream) :
    put width value .checked stream ≠ .err error stream' := by
  obtain ⟨bits, hbits, rfl⟩ := h
  intro herr
  by_cases hfits : BitWriter.Valid width value ∧ bits.length + width.toNat ≤ buffer.length * 8
  · rw [put_ok hbuffer .checked hfits.1 hfits.2] at herr
    cases herr
  · rw [put_trap (holding buffer bits) ((not_and_or.mp hfits).imp id Nat.not_le.mp)] at herr
    cases herr

end WriteStream

/-- The two calls end alike: both panic, or both return `Ok`. -/
def EndAlike {δ : Type} (value : δ) (measured : Outcome Error (MeasureStream × δ) Unit)
    (written : Outcome Error (WriteStream × δ) Unit) : Prop :=
  (¬measured.Returned ↔ ¬written.Returned)
    ∧ (measured.Returned → ∃ measure stream,
      measured = .ok () (measure, value) ∧ written = .ok () (stream, value))

section EndAlike

variable {δ : Type} {value : δ} {measured : Outcome Error (MeasureStream × δ) Unit}
  {written : Outcome Error (WriteStream × δ) Unit}

theorem EndAlike.of_ok {measure : MeasureStream} {stream : WriteStream}
    (hmeasured : measured = .ok () (measure, value)) (hwritten : written = .ok () (stream, value)) :
    EndAlike value measured written := by
  refine ⟨?_, fun _ => ⟨measure, stream, hmeasured, hwritten⟩⟩
  rw [hmeasured, hwritten]
  exact Iff.rfl

theorem EndAlike.of_trap (hmeasured : ¬measured.Returned) (hwritten : ¬written.Returned) :
    EndAlike value measured written :=
  ⟨iff_of_true hmeasured hwritten, fun hreturned => absurd hreturned hmeasured⟩

theorem string_both_trap {buffer : List U8} {bits : List Bool} {bufferSize : Nat} {value : Text}
    (hbits : bits.length ≤ buffer.length * 8) (measure : MeasureStream)
    (h : ¬((1 ≤ bufferSize ∧ bufferSize ≤ i32Max)
      ∧ value.bytes.length < bufferSize ∧ 0 ∉ value.bytes)) :
    EndAlike value (serializeString bufferSize .checked (measure, value))
      (serializeString bufferSize .checked (WriteStream.holding buffer bits, value)) := by
  apply EndAlike.of_trap
  · unfold serializeString MeasureStream.instStream
    dsimp only
    rw [bind_apply, load_apply, Outcome.bind_ok, bind_apply, WriteStream.stringLength_trap _ h]
    exact not_false
  · rw [WriteStream.serializeString_trap hbits fun hcontract => absurd hcontract h]
    exact not_false

end EndAlike

section Misuse

variable [Arithmetic] {buffer : List U8} {bits : List Bool} {operation : Operation}
  {value : operation.Value}

/-- A degenerate range that passes its check writes nothing, whatever the value. -/
theorem Operation.run_degenerate {ε σ : Type} {put : U32 → U32 → Comp ε σ Unit}
    (hdegenerate : operation.Degenerate)
    (h : ∀ step ∈ operation.encoder value, step.Passes BitWriter.Valid) (build : Build)
    (state : σ) : Encoder.run put (operation.encoder value) build state = .ok () state := by
  have hone : ∀ {w : Nat} {min max value : BitVec w} {offset : BitVec w → Encoder}, min = max →
      (∀ step ∈ Encoders.ranged offset min max value, step.Passes BitWriter.Valid) →
      Encoder.run put (Encoders.ranged offset min max value) build state = .ok () state := by
    intro w min max value offset heq hpasses
    have horder := of_decide_eq_true (hpasses _ (List.mem_cons_self ..))
    rw [Encoders.ranged, Encoder.run_assert_of horder, if_pos heq]
    rfl
  cases operation with
  | int min max =>
      rw [Operation.encoder, Encoders.int] at h ⊢
      exact hone hdegenerate h
  | int64 min max =>
      rw [Operation.encoder, Encoders.int64] at h ⊢
      exact hone hdegenerate h
  | int128 min max =>
      rw [Operation.encoder, Encoders.int128] at h ⊢
      exact hone hdegenerate h
  | _ => exact hdegenerate.elim

theorem measure_trap (measure : MeasureStream) (haligns : ¬operation.Aligns)
    (h : ∃ step ∈ operation.encoder value, ¬step.Passes BitWriter.Valid) :
    ¬(operation.run .checked (measure, value)).Returned := by
  obtain ⟨step, hstep, hfails⟩ := h
  have hput : ∀ (width value : U32) (measure : MeasureStream), True →
      ¬BitWriter.Valid width value → ¬(MeasureStream.put width value .checked measure).Returned := by
    intro width value measure _ hinvalid
    rw [MeasureStream.put_trap measure hinvalid]
    exact not_false
  rw [Operation.run_eq_encoder MeasureStream.scribe haligns]
  apply Outcome.not_returned_mapState
  exact Encoder.not_returned_of_not_passes (fun _ _ _ _ => trivial) hput
    (fun width value measure error measure' _ =>
      MeasureStream.put_ne_err width value measure measure' error) hstep hfails trivial

theorem write_trap (hbuffer : BitWriter.Writable buffer) {stream : WriteStream}
    (hstream : WriteStream.Holds buffer stream) (haligns : ¬operation.Aligns)
    (h : ∃ step ∈ operation.encoder value, ¬step.Passes BitWriter.Valid) :
    ¬(operation.run .checked (stream, value)).Returned := by
  obtain ⟨step, hstep, hfails⟩ := h
  have hput : ∀ (width value : U32) (stream : WriteStream), WriteStream.Holds buffer stream →
      ¬BitWriter.Valid width value → ¬(WriteStream.put width value .checked stream).Returned := by
    intro width value stream _ hinvalid
    rw [WriteStream.put_trap stream (.inl hinvalid)]
    exact not_false
  rw [Operation.run_eq_encoder WriteStream.scribe haligns]
  apply Outcome.not_returned_mapState
  exact Encoder.not_returned_of_not_passes (WriteStream.put_holds hbuffer) hput
    (fun width value stream error stream' =>
      WriteStream.put_ne_err hbuffer width value stream' error) hstep hfails hstream

theorem both_ok (hbuffer : BitWriter.Writable buffer) (hbits : bits.length ≤ buffer.length * 8)
    (measure : MeasureStream) (h : operation.Conforms value)
    (hroom : bits.length + (operation.encode byteBoundary bits.length value).length
      ≤ buffer.length * 8)
    (hcount : measure.bitsWritten
      + (operation.encode worstAlignment measure.bitsWritten value).length < 2 ^ 64) :
    EndAlike value (operation.run .checked (measure, value))
      (operation.run .checked (WriteStream.holding buffer bits, value)) := by
  have hmeasure : measure = MeasureStream.holding (List.replicate measure.bitsWritten false) := by
    rw [MeasureStream.holding, List.length_replicate]
  have hcounted := (Operation.run_emits MeasureStream.sink h .checked
    (List.replicate measure.bitsWritten false) (by
      show _ ≤ 2 ^ 64 - 1
      rw [List.length_replicate]
      omega)).1 (by
      show _ ≤ 2 ^ 64 - 1
      rw [List.length_replicate]
      exact Nat.le_sub_one_of_lt hcount)
  have hwritten := (Operation.run_emits (WriteStream.sink hbuffer) h .checked bits hbits).1 hroom
  rw [hmeasure]
  exact EndAlike.of_ok hcounted hwritten

/-- A measure whose counter cannot take the bits of a call panics in a checked build. -/
theorem full_trap {measure : MeasureStream} (hmeasure : measure.bitsWritten < 2 ^ 64)
    (h : operation.Conforms value) (hfull : ¬measure.bitsWritten
      + (operation.encode worstAlignment measure.bitsWritten value).length < 2 ^ 64) :
    ¬(operation.run .checked (measure, value)).Returned := by
  have hheld : measure = MeasureStream.holding (List.replicate measure.bitsWritten false) := by
    rw [MeasureStream.holding, List.length_replicate]
  have hcapacity : MeasureStream.sink.capacity = 2 ^ 64 - 1 := rfl
  have hemits := Operation.run_emits MeasureStream.sink h .checked
    (List.replicate measure.bitsWritten false)
  rw [hcapacity, List.length_replicate] at hemits
  have htrap := (hemits (Nat.le_sub_one_of_lt hmeasure)).2 trivial
    (Nat.lt_of_lt_of_le (by decide) (Nat.not_lt.mp hfull))
  rw [hheld]
  exact htrap

/-- The counter takes what the call charges, if it is a call a writer may make. -/
def MeasureStream.Counts (measure : MeasureStream) (operation : Operation)
    (value : operation.Value) : Prop :=
  operation.Conforms value → measure.bitsWritten
    + (operation.encode worstAlignment measure.bitsWritten value).length < 2 ^ 64

/-- There is room for what the call appends, if it is a call a writer may make. -/
def WriteStream.HasRoom (stream : WriteStream) (operation : Operation)
    (value : operation.Value) : Prop :=
  operation.Conforms value →
    (operation.encode byteBoundary (bitsProcessed stream) value).length
      ≤ WriteStream.available stream

/-- What a buffer has room for, a counter takes from zero. -/
theorem new_counts {stream : WriteStream} (hstream : WriteStream.Reachable buffer stream)
    (hroom : stream.HasRoom operation value) : MeasureStream.new.Counts operation value := by
  intro hconforms
  obtain ⟨hbuffer, bits, hbits, rfl⟩ := hstream.holds
  have havailable := WriteStream.available_holding hbits
  have hfits : (operation.encode byteBoundary bits.length value).length
    ≤ WriteStream.available (WriteStream.holding buffer bits) := hroom hconforms
  have hgap := operation.alignmentGap_le bits.length
  have hworst := operation.length_encode_worst value 0 bits.length
  have hwhole := hbuffer.whole
  have hnumBits := hbuffer.numBits_lt
  show 0 + (operation.encode worstAlignment 0 value).length < 2 ^ 64
  omega

theorem run_endAlike {stream : WriteStream} {measure : MeasureStream}
    (hstream : WriteStream.Reachable buffer stream) (hroom : stream.HasRoom operation value)
    (hcount : measure.Counts operation value) :
    EndAlike value (operation.run .checked (measure, value))
      (operation.run .checked (stream, value)) := by
  obtain ⟨hbuffer, bits, hbits, rfl⟩ := hstream.holds
  have havailable := WriteStream.available_holding hbits
  by_cases hconforms : operation.Conforms value
  · have hfits : (operation.encode byteBoundary bits.length value).length
      ≤ WriteStream.available (WriteStream.holding buffer bits) := hroom hconforms
    exact both_ok hbuffer hbits measure hconforms (by omega) (hcount hconforms)
  · by_cases haligns : operation.Aligns
    · cases operation with
      | bytes count => exact absurd ⟨trivial, trivial, trivial⟩ hconforms
      | align => exact absurd ⟨trivial, trivial, trivial⟩ hconforms
      | string bufferSize =>
          exact string_both_trap hbits measure fun hcontract =>
            hconforms ⟨hcontract.1, hcontract.2, trivial⟩
      | _ => exact haligns.elim
    · by_cases hpasses : ∀ step ∈ operation.encoder value, step.Passes BitWriter.Valid
      · have hdegenerate := (Operation.conforms_of_passes haligns hpasses).resolve_right hconforms
        rw [Operation.run_eq_encoder MeasureStream.scribe haligns,
          Operation.run_eq_encoder WriteStream.scribe haligns,
          Operation.run_degenerate hdegenerate hpasses, Operation.run_degenerate hdegenerate hpasses]
        exact EndAlike.of_ok rfl rfl
      · simp only [not_forall] at hpasses
        obtain ⟨step, hstep, hfails⟩ := hpasses
        exact EndAlike.of_trap (measure_trap measure haligns ⟨step, hstep, hfails⟩)
          (write_trap hbuffer ⟨bits, hbits, rfl⟩ haligns ⟨step, hstep, hfails⟩)

/-- A measure and a write end the call alike, and so they do the end of the packet and a rejection. -/
structure TrapAlike (operation : Operation) (value : operation.Value) (measure : MeasureStream)
    (stream : WriteStream) : Prop where
  run : EndAlike value (operation.run .checked (measure, value))
    (operation.run .checked (stream, value))
  finish : EndAlike () (onState serializeEnd .checked (measure, ()))
    (onState serializeEnd .checked (stream, ()))
  reject : EndAlike () (onState reject .checked (measure, ()))
    (onState reject .checked (stream, ()))

theorem TrapAlike.of_run {stream : WriteStream} {measure : MeasureStream}
    (h : EndAlike value (operation.run .checked (measure, value))
      (operation.run .checked (stream, value))) : TrapAlike operation value measure stream where
  run := h
  finish := EndAlike.of_ok rfl rfl
  reject := EndAlike.of_trap not_false not_false

theorem counts_of_endAlike {stream : WriteStream} {measure : MeasureStream}
    (hstream : WriteStream.Reachable buffer stream) (hmeasure : measure.bitsWritten < 2 ^ 64)
    (hroom : stream.HasRoom operation value)
    (h : EndAlike value (operation.run .checked (measure, value))
      (operation.run .checked (stream, value))) : measure.Counts operation value := by
  intro hconforms
  by_contra hfull
  obtain ⟨hbuffer, bits, hbits, rfl⟩ := hstream.holds
  have havailable := WriteStream.available_holding hbits
  have hfits : (operation.encode byteBoundary bits.length value).length
    ≤ WriteStream.available (WriteStream.holding buffer bits) := hroom hconforms
  have hwritten := (Operation.run_emits (WriteStream.sink hbuffer) hconforms .checked bits hbits).1
    (by
      show bits.length + _ ≤ buffer.length * 8
      exact (Nat.add_le_add_left hfits _).trans havailable.le)
  apply h.1.mp (full_trap hmeasure hconforms hfull)
  show (operation.run .checked ((WriteStream.sink hbuffer).holding bits, value)).Returned
  rw [hwritten]
  trivial

/-- **A measure traps exactly where a write traps, room aside**, as long as its counter lasts. From
every reachable write stream with room for what the operation appends, a call of any operation with
any declaration and any value panics on both or returns `Ok` on both, exactly where the measure can
count it; a new measure always can. -/
theorem measure_traps_iff {stream : WriteStream} {measure : MeasureStream}
    (hstream : WriteStream.Reachable buffer stream) (hmeasure : measure.bitsWritten < 2 ^ 64)
    (hroom : stream.HasRoom operation value) :
    (TrapAlike operation value measure stream ↔ measure.Counts operation value)
      ∧ (measure = MeasureStream.new → TrapAlike operation value measure stream) := by
  constructor
  · constructor
    · intro halike
      exact counts_of_endAlike hstream hmeasure hroom halike.run
    · intro hcount
      exact TrapAlike.of_run (run_endAlike hstream hroom hcount)
  · intro hnew
    subst hnew
    exact TrapAlike.of_run (run_endAlike hstream hroom (new_counts hstream hroom))

end Misuse

/-- Three bytes over a fresh word, on a measure that counted five bits and on a new one. -/
theorem measure_traps_bytes :
    TrapAlike (.bytes 3) (List.Vector.replicate 3 (0xA5 : U8)) ⟨5⟩
        (WriteStream.holding (List.replicate 8 0) [])
      ∧ TrapAlike (.bytes 3) (List.Vector.replicate 3 (0xA5 : U8)) MeasureStream.new
        (WriteStream.holding (List.replicate 8 0) []) :=
  have hnew : WriteStream.new (List.replicate 8 0) .checked ()
      = .ok (WriteStream.holding (List.replicate 8 0) []) () := rfl
  have hroom : (WriteStream.holding (List.replicate 8 0) []).HasRoom (.bytes 3)
      (List.Vector.replicate 3 (0xA5 : U8)) := fun _ => by decide
  have hcounts : (⟨5⟩ : MeasureStream).Counts (.bytes 3) (List.Vector.replicate 3 (0xA5 : U8)) :=
    fun _ => by decide
  ⟨(measure_traps_iff (.new hnew) (by decide) hroom).1.mpr hcounts,
    (measure_traps_iff (.new hnew) (by decide) hroom).2 rfl⟩

theorem MeasureStream.new_serializeBytes {n : Nat} (data : List.Vector U8 n)
    (h : 7 + 8 * n < 2 ^ 64) (build : Build) : serializeBytes build (MeasureStream.new, data)
      = .ok () ({ bitsWritten := 7 + 8 * n }, data) := by
  have hlength : (bytesCode worstAlignment 0 data.toList).length = 7 + 8 * n := by
    rw [length_bytesCode, List.Vector.toList_length, worstAlignment]
  have hcharges := (MeasureStream.sink.bytes_emits data build [] (Nat.zero_le _)).1 (by
    show 0 + (bytesCode worstAlignment 0 data.toList).length ≤ 2 ^ 64 - 1
    omega)
  have hheld : MeasureStream.holding (bytesCode worstAlignment 0 data.toList)
      = { bitsWritten := 7 + 8 * n } := by
    rw [MeasureStream.holding, hlength]
  rw [← hheld]
  exact hcharges

/-- **A measure that counted as far as it can panics on a flag** that a fresh writer takes. -/
theorem measure_traps_alone : ∃ (measure : MeasureStream) (stream : WriteStream),
    (∃ data : List.Vector U8 (2 ^ 61 - 1),
      serializeBytes .checked (MeasureStream.new, data) = .ok () (measure, data))
    ∧ WriteStream.Reachable (List.replicate 8 0) stream ∧ stream.HasRoom .bool true
    ∧ ¬TrapAlike .bool true measure stream := by
  have hnew : WriteStream.new (List.replicate 8 0) .checked ()
      = .ok (WriteStream.holding (List.replicate 8 0) []) () := rfl
  have hcounted : 7 + 8 * (2 ^ 61 - 1) = 2 ^ 64 - 1 := by decide
  refine ⟨{ bitsWritten := 7 + 8 * (2 ^ 61 - 1) }, WriteStream.holding (List.replicate 8 0) [],
    ⟨List.Vector.replicate (2 ^ 61 - 1) 0, ?_⟩, .new hnew, fun _ => by decide, fun halike => ?_⟩
  · exact MeasureStream.new_serializeBytes _ (by omega) .checked
  · rw [hcounted] at halike
    apply halike.run.1.mp ?_ trivial
    exact full_trap (by decide) ⟨trivial, trivial, trivial⟩ (Nat.lt_irrefl _)

end Serialize
