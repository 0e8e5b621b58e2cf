import Serialize.Contracts.WireFormat
import Serialize.Model.Agreement
import Serialize.Writer.Counter

/-!
# A measure suffices

A measure stream counts every alignment at its worst, so what it reports for a program exceeds what
a write stream appends by exactly the padding the alignments did not need, wherever the write stream
starts. A buffer of the measured bytes therefore holds the program.
-/

namespace Serialize

open Machine BitString
open Binary32 (Arithmetic)

/-! ### The alignment gap -/

/-- What the worst case of an alignment at a position counts too much. -/
def unusedPadding (position : Nat) : Nat := 7 - byteBoundary position

/-- What the alignment of an operation at a position counts too much. -/
def Operation.alignmentGap (position : Nat) : Operation → Nat
  | .align => unusedPadding position
  | .bytes _ => unusedPadding position
  | .string bufferSize => unusedPadding (position + Nat.size (bufferSize - 1))
  | _ => 0

theorem Operation.alignmentGap_le (operation : Operation) (position : Nat) :
    operation.alignmentGap position ≤ 7 := by
  cases operation with
  | bytes count => exact Nat.sub_le ..
  | string bufferSize => exact Nat.sub_le ..
  | align => exact Nat.sub_le ..
  | _ => exact Nat.zero_le _

section Measure

variable [Arithmetic]

def alignmentGaps : Nat → List Carried → Nat
  | _, [] => 0
  | position, entry :: rest => entry.1.alignmentGap position
      + alignmentGaps (position + (entry.1.encode byteBoundary position entry.2).length) rest

/-- An operation measures what it writes and its alignment gap, whatever position it is measured
at. -/
theorem Operation.length_encode_worst (operation : Operation) (value : operation.Value)
    (measured position : Nat) : (operation.encode worstAlignment measured value).length
      = (operation.encode byteBoundary position value).length + operation.alignmentGap position := by
  have hboundary := byteBoundary_le position
  cases operation with
  | bytes count =>
      simp only [encode, length_bytesCode, worstAlignment, alignmentGap, unusedPadding]
      omega
  | string bufferSize =>
      have hboundary := byteBoundary_le (position + Nat.size (bufferSize - 1))
      simp only [encode, length_stringCode, worstAlignment, alignmentGap, unusedPadding]
      omega
  | align =>
      simp only [encode, length_alignCode, worstAlignment, alignmentGap, unusedPadding]
      omega
  | _ => exact (Nat.add_zero _).symm

theorem length_encodeAll_worst (carried : List Carried) (measured position : Nat) :
    (encodeAll worstAlignment measured carried).length
      = (encodeAll byteBoundary position carried).length + alignmentGaps position carried := by
  induction carried generalizing measured position with
  | nil => rfl
  | cons entry rest ih =>
      have hentry := entry.1.length_encode_worst entry.2 measured position
      rw [encodeAll, encodeAll, alignmentGaps, List.length_append, List.length_append, hentry,
        ih _ (position + (entry.1.encode byteBoundary position entry.2).length)]
      omega

theorem alignmentGaps_eq_zero {carried : List Carried} (h : ∀ entry ∈ carried, ¬entry.1.Aligns)
    (position : Nat) : alignmentGaps position carried = 0 := by
  induction carried generalizing position with
  | nil => rfl
  | cons entry rest ih =>
      obtain ⟨hentry, hrest⟩ := List.forall_mem_cons.mp h
      have hgap : entry.1.alignmentGap position = 0 := by
        obtain ⟨operation, value⟩ := entry
        cases operation with
        | bytes count => exact absurd trivial hentry
        | string bufferSize => exact absurd trivial hentry
        | align => exact absurd trivial hentry
        | _ => rfl
      rw [alignmentGaps, hgap, ih hrest]

/-! ### What a measure reports -/

variable {program : Program} {memory : Memory}

/-- Wherever a write stream with room starts, the program appends what its measure reports less the
gap of its alignments, and exactly what it reports where none of its operations aligns. -/
def AppendsWithin (program : Program) (memory : Memory) (profile : Profile)
    (measured : MeasureStream) : Prop :=
  ∀ (lead : Program) (leadMemory : Memory) (buffer : List U8) (stream start : WriteStream)
    (leadLog : List Carried),
    buffer.length % 8 = 0 → buffer.length < 2 ^ 61 → WriteStream.new buffer profile () = .ok stream () →
    Conforming (lead.carries leadMemory 0) →
    lead.run leadMemory profile (stream, []) = .ok () (start, leadLog) →
    (wireBits (lead.carries leadMemory 0)).length
      + (encodeAll byteBoundary (wireBits (lead.carries leadMemory 0)).length
          (program.carries memory 0)).length ≤ 8 * buffer.length →
    ∃ finish, program.run memory profile (start, []) = .ok () (finish, program.carries memory 0)
      ∧ bitsProcessed finish - bitsProcessed start ≤ bitsProcessed measured
      ∧ bitsProcessed measured = bitsProcessed finish - bitsProcessed start
          + alignmentGaps (bitsProcessed start) (program.carries memory 0)
      ∧ ((∀ entry ∈ program.carries memory 0, ¬entry.1.Aligns) →
          bitsProcessed measured = bitsProcessed finish - bitsProcessed start)

/-- A write stream can be built over a buffer of the measured bytes, rounded up to whole words, and
takes the program and the flush. -/
def HoldsMeasured (program : Program) (memory : Memory) (profile : Profile)
    (measured : MeasureStream) : Prop :=
  ∀ buffer : List U8, buffer.length = (measured.bytesProcessed + 7) / 8 * 8 →
    ∃ stream written flushed, WriteStream.new buffer profile () = .ok stream ()
      ∧ program.run memory profile (stream, []) = .ok () (written, program.carries memory 0)
      ∧ WriteStream.flush profile written = .ok () flushed

/-- The program is measured, and the measure bounds what it writes. -/
def MeasureSuffices (program : Program) (memory : Memory) (profile : Profile) : Prop :=
  ∃ measured,
    program.run memory profile (MeasureStream.new, []) = .ok () (measured, program.carries memory 0)
      ∧ AppendsWithin program memory profile measured ∧ HoldsMeasured program memory profile measured

/-- What a measure charges for the values carried: their encodings, every alignment at its worst. -/
def measuredBits (carried : List Carried) : Nat := (encodeAll worstAlignment 0 carried).length

/-- What a checked build accepts is accepted under every profile. -/
theorem Program.run_of_checked {S : Type} [Stream S] [StreamAgrees S] {p q : S × List Carried}
    (h : program.run memory .checked p = .ok () q) (profile : Profile) :
    program.run memory profile p = .ok () q :=
  (program.run_agrees memory).of_checked h profile

theorem Program.measure_run (hconforming : Conforming (program.carries memory 0))
    (hfits : measuredBits (program.carries memory 0) < 2 ^ 64) (profile : Profile) :
    program.run memory profile (MeasureStream.new, [])
      = .ok () (⟨measuredBits (program.carries memory 0)⟩, program.carries memory 0) := by
  have happends := @Program.run_appends MeasureStream _ _ [] [] MeasureStream.sink program memory
    .checked (Nat.zero_le _) hconforming
  refine Program.run_of_checked (happends.1 ?_) profile
  show 0 + measuredBits (program.carries memory 0) ≤ 2 ^ 64 - 1
  omega

theorem Program.measure_traps (hconforming : Conforming (program.carries memory 0))
    (hover : 2 ^ 64 ≤ measuredBits (program.carries memory 0)) (build : Build) :
    ¬(program.run memory build (MeasureStream.new, [])).Returned := by
  have happends := @Program.run_appends MeasureStream _ _ [] [] MeasureStream.sink program memory
    build (Nat.zero_le _) hconforming
  refine happends.2 trivial ?_
  show 2 ^ 64 - 1 < 0 + measuredBits (program.carries memory 0)
  omega

theorem appends_within (hconforming : Conforming (program.carries memory 0)) (profile : Profile) :
    AppendsWithin program memory profile ⟨measuredBits (program.carries memory 0)⟩ := by
  intro lead leadMemory buffer stream start leadLog hwhole hshort hnew hlead hstart hroom
  have hbuffer : BitWriter.Writable buffer := ⟨hwhole, by omega⟩
  rw [WriteStream.new_holding hbuffer] at hnew
  cases hnew
  rw [Program.run_of_checked (Program.run_fresh hbuffer hlead (by omega)) profile] at hstart
  cases hstart
  set bits := wireBits (lead.carries leadMemory 0) with hbits
  set code := encodeAll byteBoundary bits.length (program.carries memory 0) with hcode
  have hfits : bits.length + code.length ≤ buffer.length * 8 := by omega
  have happends := @Program.run_appends WriteStream _ _ bits [] (WriteStream.sink hbuffer)
    program memory .checked (show bits.length ≤ buffer.length * 8 by omega) hconforming
  have hprocessed : ∀ bits, bitsProcessed (WriteStream.holding buffer bits) = bits.length :=
    fun _ => rfl
  have hmeasured : bitsProcessed (⟨measuredBits (program.carries memory 0)⟩ : MeasureStream)
      = code.length + alignmentGaps bits.length (program.carries memory 0) :=
    length_encodeAll_worst (program.carries memory 0) 0 bits.length
  refine ⟨WriteStream.holding buffer (bits ++ code),
    Program.run_of_checked (happends.1 hfits) profile, ?_⟩
  rw [hmeasured, hprocessed, hprocessed, List.length_append, Nat.add_sub_cancel_left]
  refine ⟨Nat.le_add_right _ _, rfl, fun hnone => ?_⟩
  rw [alignmentGaps_eq_zero hnone, Nat.add_zero]

theorem holds_measured (hconforming : Conforming (program.carries memory 0))
    (hfits : measuredBits (program.carries memory 0) ≤ 2 ^ 64 - 64) (profile : Profile) :
    HoldsMeasured program memory profile ⟨measuredBits (program.carries memory 0)⟩ := by
  intro buffer hlength
  have hgap := length_encodeAll_worst (program.carries memory 0) 0 0
  have hlength' : buffer.length = ((measuredBits (program.carries memory 0) + 7) / 8 + 7) / 8 * 8 :=
    hlength
  have hbuffer : BitWriter.Writable buffer := ⟨by omega, by omega⟩
  have hroom : (wireBits (program.carries memory 0)).length ≤ 8 * buffer.length := by
    rw [wireBits]
    rw [measuredBits] at hlength'
    omega
  have hflush := WriteStream.flush_holding hbuffer .checked
    (show (wireBits (program.carries memory 0)).length ≤ buffer.length * 8 by omega)
  have hagree : ProfilesAgree WriteStream.flush := inferInstance
  exact ⟨_, _, _, WriteStream.new_holding hbuffer profile,
    Program.run_of_checked (Program.run_fresh hbuffer hconforming hroom) profile,
    hagree.of_checked hflush profile⟩

/-- No measure that a 64 bit number holds bounds a program whose charge passes 64 bits, while a buffer
has room for what it writes. -/
theorem not_appends_within (hconforming : Conforming (program.carries memory 0))
    (hroom : (wireBits (program.carries memory 0)).length ≤ 2 ^ 64 - 64)
    (hover : 2 ^ 64 ≤ measuredBits (program.carries memory 0)) {measured : MeasureStream}
    (hmeasured : measured.bitsWritten < 2 ^ 64) (profile : Profile) :
    ¬AppendsWithin program memory profile measured := by
  intro happends
  let code := wireBits (program.carries memory 0)
  let buffer : List U8 := List.replicate ((code.length + 63) / 64 * 8) 0
  have hlength : buffer.length = (code.length + 63) / 64 * 8 := List.length_replicate
  have hcode : code.length ≤ 2 ^ 64 - 64 := hroom
  have hbuffer : BitWriter.Writable buffer := ⟨by omega, by omega⟩
  have hfits : code.length ≤ 8 * buffer.length := by omega
  have hfresh : (Program.done).run memory profile (WriteStream.holding buffer [], [])
      = .ok () (WriteStream.holding buffer [], []) := rfl
  obtain ⟨finish, hfinish, -, hgaps, -⟩ := happends .done memory buffer _ _ [] (by omega) (by omega)
    (WriteStream.new_holding hbuffer profile) (List.forall_mem_nil _) hfresh
    (show 0 + code.length ≤ 8 * buffer.length by omega)
  rw [Program.run_of_checked (Program.run_fresh hbuffer hconforming hfits) profile] at hfinish
  cases hfinish
  have hcharged := length_encodeAll_worst (program.carries memory 0) 0 0
  have hreported : measured.bitsWritten
      = code.length - 0 + alignmentGaps 0 (program.carries memory 0) := hgaps
  rw [measuredBits, hcharged] at hover
  have hover : 2 ^ 64 ≤ code.length + alignmentGaps 0 (program.carries memory 0) := hover
  omega

variable {build : Build}

/-- The words the measured bytes round up to have a bit count only up to 2^64 - 64 measured bits. -/
theorem not_holds_measured {measured : MeasureStream}
    (hover : 2 ^ 64 - 64 < measured.bitsWritten) :
    ¬HoldsMeasured program memory build measured := by
  intro hholds
  have hbytes : measured.bytesProcessed = (measured.bitsWritten + 7) / 8 := rfl
  obtain ⟨stream, -, -, hnew, -⟩ := hholds
    (List.replicate ((measured.bytesProcessed + 7) / 8 * 8) 0) List.length_replicate
  obtain ⟨hbuffer, -⟩ := WriteStream.new_eq_ok (by rw [List.length_replicate]; omega) hnew
  have hlimit := hbuffer.numBits_lt
  rw [List.length_replicate] at hlimit
  omega

/-- **A measure is a sufficient bound** for every program it charges no more than 2^64 - 64 bits.
Beyond them its counter or the bit count of the buffer it asks for overflows, and a build with overflow
checks panics. Where the counter wraps instead, the measure is no bound of a program a buffer holds. -/
theorem measure_suffices_iff (hconforming : Conforming (program.carries memory 0)) :
    (∀ build : Build, MeasureSuffices program memory build
      ↔ measuredBits (program.carries memory 0) ≤ 2 ^ 64 - 64) ∧
    (measuredBits (program.carries memory 0) ≤ 2 ^ 64 - 64 →
      MeasureSuffices program memory .wrapping) ∧
    (2 ^ 64 ≤ measuredBits (program.carries memory 0) →
      (wireBits (program.carries memory 0)).length ≤ 2 ^ 64 - 64 →
        ¬MeasureSuffices program memory .wrapping) := by
  have hsuffices : measuredBits (program.carries memory 0) ≤ 2 ^ 64 - 64 →
      ∀ profile, MeasureSuffices program memory profile := fun hfits profile =>
    ⟨_, Program.measure_run hconforming (by omega) profile, appends_within hconforming profile,
      holds_measured hconforming hfits profile⟩
  refine ⟨fun build => ⟨?_, fun hfits => hsuffices hfits build⟩,
    fun hfits => hsuffices hfits .wrapping, ?_⟩
  · rintro ⟨measured, hmeasured, -, hholds⟩
    by_contra hover
    rcases Nat.lt_or_ge (measuredBits (program.carries memory 0)) (2 ^ 64) with hfits | htraps
    · rw [Program.measure_run hconforming hfits] at hmeasured
      cases hmeasured
      exact not_holds_measured (Nat.not_le.mp hover) hholds
    · have hreturned := Program.measure_traps hconforming htraps build
      rw [hmeasured] at hreturned
      exact hreturned trivial
  · rintro hover hroom ⟨measured, hmeasured, happends, -⟩
    exact not_appends_within hconforming hroom hover (Program.measure_lt hmeasured) .wrapping happends

end Measure

/-- `fieldAndBytes` measures 28 bits; it appends 24 of them behind another `fieldAndBytes`, and one
word takes it from the start. -/
theorem measure_suffices_three_bytes :
    MeasureSuffices fieldAndBytes fieldAndBytesMemory .checked
      ∧ MeasureSuffices fieldAndBytes fieldAndBytesMemory .wrapping :=
  have hfits : measuredBits (fieldAndBytes.carries fieldAndBytesMemory 0) ≤ 2 ^ 64 - 64 := by decide
  ⟨((measure_suffices_iff fieldAndBytes_conforming).1 .checked).mpr hfits,
    (measure_suffices_iff fieldAndBytes_conforming).2.1 hfits⟩

/-- `count` alignments in a row. -/
def aligns : Nat → Program
  | 0 => .done
  | count + 1 => .step .align fun _ => aligns count

theorem carries_aligns (memory : Memory) (count n : Nat) :
    (aligns count).carries memory n = List.replicate count ⟨.align, ()⟩ := by
  induction count generalizing n with
  | zero => rfl
  | succ count ih => rw [aligns, Program.carries, ih, List.replicate_succ]

theorem conforming_aligns (memory : Memory) (count : Nat) :
    Conforming ((aligns count).carries memory 0) := by
  intro entry hentry
  rw [carries_aligns] at hentry
  rw [List.eq_of_mem_replicate hentry]
  exact ⟨trivial, trivial, trivial⟩

/-- On a byte boundary an alignment writes nothing, however often it is repeated. -/
theorem wireBits_aligns (count : Nat) :
    wireBits (List.replicate count (⟨.align, ()⟩ : Carried)) = [] := by
  induction count with
  | zero => rfl
  | succ count ih =>
      rw [List.replicate_succ]
      exact ih

theorem measuredBits_aligns (count : Nat) :
    measuredBits (List.replicate count (⟨.align, ()⟩ : Carried)) = 7 * count := by
  have hgaps : alignmentGaps 0 (List.replicate count (⟨.align, ()⟩ : Carried)) = 7 * count := by
    induction count with
    | zero => rfl
    | succ count ih =>
        have hnext : alignmentGaps 0 (List.replicate (count + 1) (⟨.align, ()⟩ : Carried))
            = 7 + alignmentGaps 0 (List.replicate count (⟨.align, ()⟩ : Carried)) := rfl
        rw [hnext, ih]
        omega
  have hwire : (encodeAll byteBoundary 0 (List.replicate count (⟨.align, ()⟩ : Carried))).length = 0 :=
    congrArg List.length (wireBits_aligns count)
  rw [measuredBits, length_encodeAll_worst _ 0 0, hgaps, hwire, Nat.zero_add]

/-- **2^62 alignments are written without a bit, and their measure panics.** -/
theorem measure_not_sufficient : ∃ memory : Memory,
    Conforming ((aligns (2 ^ 62)).carries memory 0)
      ∧ (aligns (2 ^ 62)).run memory .checked (WriteStream.holding (List.replicate 8 0) [], [])
        = .ok () (WriteStream.holding (List.replicate 8 0) [], (aligns (2 ^ 62)).carries memory 0)
      ∧ ¬((aligns (2 ^ 62)).run memory .checked (MeasureStream.new, [])).Returned
      ∧ ¬MeasureSuffices (aligns (2 ^ 62)) memory .checked := by
  let memory : Memory := fun _ operation => operation.blank
  have hconforming := conforming_aligns memory (2 ^ 62)
  have hcarries := carries_aligns memory (2 ^ 62) 0
  have htraps : ¬((aligns (2 ^ 62)).run memory .checked (MeasureStream.new, [])).Returned := by
    apply Program.measure_traps hconforming
    rw [hcarries, measuredBits_aligns]
    norm_num
  refine ⟨memory, hconforming, ?_, htraps, ?_⟩
  · have hrun := @Program.run_fresh _ (aligns (2 ^ 62)) memory (List.replicate 8 0) .checked
      ⟨by decide, by decide⟩ hconforming (by
        rw [hcarries, wireBits_aligns]
        exact Nat.zero_le _)
    rw [hrun]
    rw [hcarries, wireBits_aligns]
  · rintro ⟨measured, hmeasured, -⟩
    rw [hmeasured] at htraps
    exact htraps trivial

end Serialize
