import Serialize.Contracts.Misuse

/-!
# Whether a write without room leaves the writer as it was

A write without room for the whole operation panics in a checked build. The operations that ask for
the room of all their bits at once leave the writer as it was. Those written as several fields ask
for the room of one field at a time, so they leave it as it was just where the first field has no
room either.
-/

namespace Serialize

open Machine BitString Encode
open Binary32 (Arithmetic)
open Operation (rawBound)

/-! ### The first field of an operation -/

namespace Operation

/-- The bits an operation asks room for before it writes the first of `whole` bits: a wide field is
written in groups of 32 bits, and a relative integer starts with a flag. -/
def firstWrite (whole : Nat) : Operation → Nat
  | .bits64 _ | .u64 | .u128 | .int64 _ _ | .int128 _ _ | .fixed _ _ _ _ _ | .f64 => min 32 whole
  | .intRelative _ => 1
  | _ => whole

theorem length_rangedBits_le {min max value : Int} {n : Nat} (h : max - min < 2 ^ n) :
    (rangedBits min max value).length ≤ n := by
  rw [rangedBits, length_toBits]
  apply Nat.size_le.mpr
  have hpow : (0 : Int) < 2 ^ n := by positivity
  have hcast : ((2 ^ n : Nat) : Int) = 2 ^ n := by push_cast; rfl
  omega

theorem length_tierBits_le {difference current : Int} {tiers : List (Int × Int)}
    (h : ∀ tier ∈ tiers, tier.2 - tier.1 < 2 ^ 32) :
    (tierBits difference current tiers).length ≤ tiers.length + 32 := by
  induction tiers with
  | nil =>
      rw [tierBits, length_toBits]
      exact Nat.le_add_left ..
  | cons tier rest ih =>
      obtain ⟨low, high⟩ := tier
      obtain ⟨htier, hrest⟩ := List.forall_mem_cons.mp h
      rw [tierBits]
      split
      · have hpayload := @length_rangedBits_le low high difference 32 htier
        rw [List.length_cons, List.length_cons]
        omega
      · have hlater := ih hrest
        rw [List.length_cons, List.length_cons]
        omega

variable [Arithmetic] {operation : Operation} {value : operation.Value}

theorem length_encode_le (haligns : ¬operation.Aligns) (h : operation.Conforms value)
    (alignment : Nat → Nat) (position : Nat) :
    (operation.encode alignment position value).length ≤ 128 := by
  have hlegal := h.legal
  cases operation with
  | bits width =>
      have hwidth : width.toNat ≤ 32 := hlegal.2
      rw [encode, length_toBits]
      omega
  | bits64 width =>
      have hwidth : width.toNat ≤ 64 := hlegal.2
      rw [encode, length_toBits]
      omega
  | int min max =>
      have hlow := BitVec.le_toInt min
      have hhigh := BitVec.toInt_lt (x := max)
      exact length_rangedBits_le (by omega)
  | int64 min max =>
      have hlow := BitVec.le_toInt min
      have hhigh := BitVec.toInt_lt (x := max)
      exact length_rangedBits_le (by omega)
  | int128 min max =>
      have hlow := BitVec.le_toInt min
      have hhigh := BitVec.toInt_lt (x := max)
      exact length_rangedBits_le (by omega)
  | fixed T integerBits fractionBits minUnits maxUnits =>
      have hspan := T.maxRaw_sub_minRaw
      have hlow := hlegal.minRaw_le
      have hhigh := hlegal.le_maxRaw
      exact length_rangedBits_le (by omega)
  | intRelative previous =>
      have htiers := @length_tierBits_le (value.toInt - previous.toInt) value.toInt relativeTiers
        (by decide)
      have hcount : relativeTiers.length = 5 := rfl
      rw [encode, relativeBits]
      split
      · exact Nat.le_add_left ..
      · rw [List.length_cons]
        omega
  | compressedFloat min max resolution =>
      have hsize : Nat.size (compressedFloatParams min max resolution).maxIntegerValue.toNat ≤ 32 :=
        Nat.size_le.mpr (BitVec.isLt _)
      rw [encode, length_toBits]
      rw [compressedFloatParams, toNat_bitsRequired, Decoders.sub_zero_toNat]
      exact hsize.trans (by decide)
  | compressedFloatPrecomputed maxIntegerValue width delta min =>
      have hsize : Nat.size maxIntegerValue.toNat ≤ 32 := Nat.size_le.mpr (BitVec.isLt _)
      rw [encode, length_toBits, hlegal.2.1]
      exact hsize.trans (by decide)
  | bool => exact Nat.le_add_left ..
  | u8 | u16 | u32 | u64 | u128 | f32 | f64 => exact (length_toBits _ _).trans_le (by decide)
  | bytes count | string bufferSize | align => exact absurd trivial haligns

theorem passes_of_conforms (haligns : ¬operation.Aligns) (h : operation.Conforms value) :
    ∀ step ∈ operation.encoder value, step.Passes BitWriter.Valid := by
  by_contra hfails
  simp only [not_forall] at hfails
  obtain ⟨step, hstep, hfails⟩ := hfails
  -- the measure stream takes what conforms, and would have panicked
  have hlength := length_encode_le haligns h worstAlignment 0
  have hmeasured := (run_emits MeasureStream.sink h .checked [] (Nat.zero_le _)).1 (by
    show 0 + (operation.encode worstAlignment 0 value).length ≤ 2 ^ 64 - 1
    omega)
  have htrap := @measure_trap _ operation value ⟨0⟩ haligns ⟨step, hstep, hfails⟩
  apply htrap
  show (operation.run .checked (MeasureStream.sink.holding [], value)).Returned
  rw [hmeasured]
  trivial

end Operation

/-- The encoder's first field is `width` bits wide. -/
def Opens (encoder : Encoder) (width : Nat) : Prop :=
  ∃ field value : U32, encoder.firstField = some (field, value) ∧ field.toNat = width

theorem Opens.append {first : Encoder} {width : Nat} (h : Opens first width) (second : Encoder) :
    Opens (first ++ second) width := by
  obtain ⟨field, value, hfirst, hwidth⟩ := h
  exact ⟨field, value, by rw [Encoder.firstField_append, hfirst, Option.some_or], hwidth⟩

theorem Opens.pos {encoder : Encoder} {width : Nat} (h : Opens encoder width)
    (hpasses : ∀ step ∈ encoder, step.Passes BitWriter.Valid) : 0 < width := by
  obtain ⟨field, value, hfirst, rfl⟩ := h
  exact (Encoder.valid_firstField hpasses hfirst).1.1

theorem dwords_opens (value : U64) (width : U32) :
    Opens (Encoders.dwords value width) (min 32 width.toNat) := by
  rw [Encoders.dwords]
  by_cases hwidth : width ≤ 32
  · have hle : width.toNat ≤ 32 := hwidth
    rw [if_pos hwidth]
    exact ⟨_, _, rfl, by omega⟩
  · have hlt : ¬width.toNat ≤ 32 := hwidth
    have hgroup : (32 : U32).toNat = 32 := rfl
    rw [if_neg hwidth]
    exact ⟨_, _, rfl, by omega⟩

theorem offset128_opens (offset : U128) (width : U32) :
    Opens (Encoders.offset128 offset width) (min 32 width.toNat) := by
  have hgroup : (32 : U32).toNat = 32 := rfl
  rw [Encoders.offset128, Encoders.offset128Groups]
  by_cases hwidth : width ≤ 32
  · have hle : width.toNat ≤ 32 := hwidth
    rw [if_pos hwidth]
    exact ⟨_, _, rfl, by omega⟩
  · have hlt : ¬width.toNat ≤ 32 := hwidth
    rw [if_neg hwidth]
    split
    · exact ⟨_, _, rfl, by omega⟩
    split
    · exact ⟨_, _, rfl, by omega⟩
    · exact ⟨_, _, rfl, by omega⟩

theorem bits64_opens (width : U32) (value : U64) :
    Opens (Encoders.bits64 width value) (min 32 width.toNat) :=
  dwords_opens value width

theorem ranged_opens {w : Nat} {min max value : BitVec w} {offset : BitVec w → Encoder} {width : Nat}
    (hlength : 0 < (rangedBits min.toInt max.toInt value.toInt).length)
    (h : Opens (offset (value - min)) width) : Opens (Encoders.ranged offset min max value) width := by
  have hne : min ≠ max := by
    rintro rfl
    simp [rangedBits] at hlength
  rw [Encoders.ranged, if_neg hne]
  exact h

theorem length_ranged {w : Nat} {min max : BitVec w} (value : BitVec w)
    (horder : min.toInt ≤ max.toInt) : (rangedBits min.toInt max.toInt value.toInt).length
      = Nat.size (max - min - 0).toNat := by
  rw [rangedBits, length_toBits, Decoders.sub_zero_toNat, Wrapping.toNat_sub horder]

theorem fixed_opens {T : FixedPointStorage} {integerBits fractionBits : U32}
    {minUnits maxUnits : I64} {value : BitVec T.bits}
    (hlegal : Operation.FixedLegal T integerBits fractionBits minUnits maxUnits)
    (hlength : 0 < (rangedBits (rawBound minUnits fractionBits) (rawBound maxUnits fractionBits)
      (T.toInt value)).length) :
    Opens (Encoders.fixed T integerBits fractionBits minUnits maxUnits value)
      (min 32 (rangedBits (rawBound minUnits fractionBits) (rawBound maxUnits fractionBits)
        (T.toInt value)).length) := by
  have hne : minUnits ≠ maxUnits := by
    rintro rfl
    simp [rangedBits] at hlength
  have hcapacity : (Encoders.capacity T integerBits minUnits maxUnits).firstField = none := by
    rw [Encoders.capacity]
    split <;> rfl
  have hwidth : (bitLength ((maxUnits.signExtend 128 - minUnits.signExtend 128)
      <<< fractionBits.toNat : U128)).toNat = (rangedBits (rawBound minUnits fractionBits)
        (rawBound maxUnits fractionBits) (T.toInt value)).length := by
    rw [Decoders.toNat_bitLength_rawRange hlegal.minRaw_le hlegal.le_maxRaw hlegal.order, rangedBits,
      length_toBits]
  obtain ⟨field, group, hfirst, hfield⟩ := offset128_opens
    (T.toUnsigned value - minUnits.signExtend 128 <<< fractionBits.toNat)
    (bitLength ((maxUnits.signExtend 128 - minUnits.signExtend 128) <<< fractionBits.toNat : U128))
  rw [hwidth] at hfield
  refine ⟨field, group, ?_, hfield⟩
  rw [Encoders.fixed, if_neg hne]
  show Encoder.firstField (Encoders.capacity T integerBits minUnits maxUnits ++ _) = _
  rw [Encoder.firstField_append, hcapacity, Option.none_or]
  exact hfirst

namespace Operation

variable [Arithmetic] {operation : Operation} {value : operation.Value}

/-- **The first field an operation writes** is as wide as the room it first asks for. -/
theorem encoder_opens (haligns : ¬operation.Aligns) (h : operation.Conforms value)
    (alignment : Nat → Nat) (position : Nat)
    (hlength : 0 < (operation.encode alignment position value).length) :
    Opens (operation.encoder value)
      (operation.firstWrite (operation.encode alignment position value).length) := by
  have hlegal := h.legal
  cases operation with
  | bits width => exact ⟨_, _, rfl, (length_toBits _ _).symm⟩
  | bits64 width =>
      show Opens (Encoders.bits64 width value) (min 32 (toBits width.toNat value.toNat).length)
      rw [length_toBits]
      exact bits64_opens width value
  | bool => exact ⟨_, _, rfl, rfl⟩
  | u8 => exact ⟨_, _, rfl, (length_toBits _ _).symm⟩
  | u16 => exact ⟨_, _, rfl, (length_toBits _ _).symm⟩
  | u32 => exact ⟨_, _, rfl, (length_toBits _ _).symm⟩
  | u64 =>
      show Opens (Encoders.bits64 64 value) (min 32 (toBits 64 value.toNat).length)
      rw [length_toBits]
      exact bits64_opens 64 value
  | u128 =>
      show Opens (Encoders.u128 value) (min 32 (toBits 128 value.toNat).length)
      rw [length_toBits]
      exact (bits64_opens 64 _).append _
  | int min max =>
      show Opens (Encoders.int min max value) (rangedBits _ _ _).length
      rw [length_ranged value hlegal, ← toNat_bitsRequired, Encoders.int]
      exact ranged_opens hlength ⟨_, _, rfl, rfl⟩
  | int64 min max =>
      show Opens (Encoders.int64 min max value) (Nat.min 32 (rangedBits _ _ _).length)
      rw [length_ranged value hlegal, ← toNat_bitsRequired64]
      exact ranged_opens hlength (dwords_opens _ _)
  | int128 min max =>
      show Opens (Encoders.int128 min max value) (Nat.min 32 (rangedBits _ _ _).length)
      rw [length_ranged value hlegal, ← toNat_bitsRequired128]
      exact ranged_opens hlength (offset128_opens _ _)
  | fixed T integerBits fractionBits minUnits maxUnits => exact fixed_opens hlegal hlength
  | intRelative previous => exact ⟨_, _, rfl, rfl⟩
  | f32 => exact ⟨_, _, rfl, (length_toBits _ _).symm⟩
  | f64 =>
      show Opens (Encoders.f64 value) (min 32 (toBits 64 value.toNat).length)
      rw [length_toBits]
      exact bits64_opens 64 value
  | compressedFloat min max resolution => exact ⟨_, _, rfl, (length_toBits _ _).symm⟩
  | compressedFloatPrecomputed maxIntegerValue width delta min =>
      exact ⟨_, _, rfl, (length_toBits _ _).symm⟩
  | bytes count | string bufferSize | align => exact absurd trivial haligns

end Operation

/-! ### A write without room -/

namespace WriteStream

variable [Arithmetic] {buffer : List U8} {bits : List Bool} {operation : Operation}
  {value : operation.Value}

/-- An operation whose first field has no room does nothing but panic. -/
theorem run_of_no_room (haligns : ¬operation.Aligns) (h : operation.Conforms value) {width : Nat}
    (hopens : Opens (operation.encoder value) width)
    (hfull : buffer.length * 8 < bits.length + width) :
    operation.run .checked (holding buffer bits, value) = .trap (holding buffer bits, value) := by
  obtain ⟨field, first, hfirst, rfl⟩ := hopens
  obtain ⟨rest, hrun⟩ := @Encoder.run_firstField _ _ put .checked (holding buffer bits) _ _ _ _
    (Operation.passes_of_conforms haligns h) hfirst
  have htrap := @put_trap field first (holding buffer bits) (.inr hfull)
  rw [htrap, Outcome.bind_trap] at hrun
  rw [Operation.run_eq_encoder scribe haligns]
  show (Encoder.run put (operation.encoder value) .checked (holding buffer bits)).mapState _ = _
  rw [hrun, Outcome.mapState_trap]

/-- An operation whose first field has room leaves that field behind, however it ends. -/
theorem run_of_room (hbuffer : BitWriter.Writable buffer) (haligns : ¬operation.Aligns)
    (h : operation.Conforms value) {width : Nat} (hopens : Opens (operation.encoder value) width)
    (hroom : bits.length + width ≤ buffer.length * 8) :
    bits.length + width
      ≤ bitsProcessed (operation.run .checked (holding buffer bits, value)).state.1 := by
  obtain ⟨field, first, hfirst, rfl⟩ := hopens
  have hpasses := Operation.passes_of_conforms haligns h
  obtain ⟨rest, hrun⟩ := @Encoder.run_firstField _ _ put .checked (holding buffer bits) _ _ _ _
    hpasses hfirst
  have hput := put_ok hbuffer .checked (Encoder.valid_firstField hpasses hfirst) hroom
  rw [hput, Outcome.bind_ok] at hrun
  have hstart : bitsProcessed (holding buffer (bits ++ toBits field.toNat first.toNat))
      = bits.length + field.toNat := by
    show (bits ++ toBits field.toNat first.toNat).length = _
    rw [List.length_append, length_toBits]
  -- what was written stays, whatever the rest of the operation does
  have hkept := @Encoder.run_preserves _ _ put .checked
    (holding buffer (bits ++ toBits field.toNat first.toNat))
    (fun stream => Holds buffer stream ∧ bits.length + field.toNat ≤ bitsProcessed stream)
    (fun width value stream hstream => ⟨put_holds hbuffer width value stream hstream.1,
      hstream.2.trans (put_grows hbuffer width value hstream.1)⟩) rest
    ⟨holds_append (by rw [length_toBits]; exact hroom), hstart.ge⟩
  rw [Operation.run_eq_encoder scribe haligns, Outcome.state_mapState]
  show _ ≤ bitsProcessed
    (Encoder.run put (operation.encoder value) .checked (holding buffer bits)).state
  rw [hrun]
  exact hkept.2

/-- **When a write without room leaves the writer as it was.** From every reachable write stream, a
conforming call that lacks room for its whole encoding panics with the writer untouched exactly when
it lacks room for its first write too. -/
theorem write_untouched_iff {stream : WriteStream} (hstream : Reachable buffer stream)
    (h : operation.Conforms value) :
    (available stream < (operation.encode byteBoundary (bitsProcessed stream) value).length →
        operation.run .checked (stream, value) = .trap (stream, value))
      ↔ (available stream < (operation.encode byteBoundary (bitsProcessed stream) value).length →
        available stream < operation.firstWrite
          (operation.encode byteBoundary (bitsProcessed stream) value).length) := by
  obtain ⟨hbuffer, bits, hbits, rfl⟩ := hstream.holds
  have havailable := available_holding hbits
  have hposition : bitsProcessed (holding buffer bits) = bits.length := rfl
  rw [hposition]
  set code := operation.encode byteBoundary bits.length value with hcode
  by_cases haligns : operation.Aligns
  · -- bytes, strings and aligns ask for the room of all their bits at once
    refine iff_of_true (fun hshort => ?_) (fun hshort => ?_)
    · have hover : buffer.length * 8 < bits.length + code.length := by omega
      cases operation with
      | bytes count => exact serializeBytes_trap value hbits hover
      | string bufferSize => exact serializeString_trap hbits fun _ => hover
      | align => exact absurd (alignCode_room hbits) (Nat.not_le.mpr hover)
      | _ => exact haligns.elim
    · cases operation with
      | bytes count => exact hshort
      | string bufferSize => exact hshort
      | align => exact hshort
      | _ => exact haligns.elim
  · refine imp_congr_right fun hshort => ?_
    have hopens := Operation.encoder_opens haligns h byteBoundary bits.length
      (Nat.zero_lt_of_lt hshort)
    rw [← hcode] at hopens
    constructor
    · intro htrap
      by_contra hroom
      have hfits : bits.length + operation.firstWrite code.length ≤ buffer.length * 8 := by omega
      have hwritten := run_of_room hbuffer haligns h hopens hfits
      rw [htrap] at hwritten
      have hkept : bits.length + operation.firstWrite code.length ≤ bits.length := hwritten
      have hfirst := hopens.pos (Operation.passes_of_conforms haligns h)
      omega
    · intro hfull
      have hnone : buffer.length * 8 < bits.length + operation.firstWrite code.length := by omega
      exact run_of_no_room haligns h hopens hnone

end WriteStream

namespace WriteStream

/-- A fresh word after one byte: a `u64` finds room for its first group alone. -/
def oneByteWritten : WriteStream := holding (List.replicate 8 0) (toBits 8 0xA5)

theorem oneByteWritten_reachable : Reachable (List.replicate 8 0) oneByteWritten := by
  have hnew : WriteStream.new (List.replicate 8 0) .checked ()
      = .ok (holding (List.replicate 8 0) []) () := rfl
  have hcalled : (Operation.run .u8 .checked (holding (List.replicate 8 0) [], (0xA5 : U8))).state.1
      = oneByteWritten := by decide
  rw [← hcalled]
  exact (Reachable.new hnew).call .u8 (0xA5 : U8)

/-- **A `u64` without room is written in part**: its low group is there when the call panics. -/
theorem write_not_untouched : ∃ stream : WriteStream, Reachable (List.replicate 8 0) stream
    ∧ Operation.u64.Conforms (0 : U64)
    ∧ available stream < (Operation.u64.encode byteBoundary (bitsProcessed stream) (0 : U64)).length
    ∧ Operation.u64.run .checked (stream, (0 : U64)) ≠ .trap (stream, (0 : U64)) := by
  refine ⟨oneByteWritten, oneByteWritten_reachable, ⟨trivial, trivial, trivial⟩, by decide, ?_⟩
  decide

/-- A fresh word after a `u32` and a flag: thirty-one bits are left. -/
def pastHalf : WriteStream := holding (List.replicate 8 0) (toBits 32 0xA5A5A5A5 ++ toBits 1 1)

theorem pastHalf_reachable : Reachable (List.replicate 8 0) pastHalf := by
  have hnew : WriteStream.new (List.replicate 8 0) .checked ()
      = .ok (holding (List.replicate 8 0) []) () := rfl
  have hword : (Operation.run .u32 .checked
      (holding (List.replicate 8 0) [], (0xA5A5A5A5 : U32))).state.1
        = holding (List.replicate 8 0) (toBits 32 0xA5A5A5A5) := by decide
  have hflag : (Operation.run .bool .checked
      (holding (List.replicate 8 0) (toBits 32 0xA5A5A5A5), true)).state.1 = pastHalf := by decide
  rw [← hflag, ← hword]
  exact ((Reachable.new hnew).call .u32 (0xA5A5A5A5 : U32)).call .bool true

/-- A `u64` that lacks room for its low group panics before any bit of it is written. -/
theorem write_untouched_iff_u64 :
    Operation.u64.run .checked (pastHalf, (0 : U64)) = .trap (pastHalf, (0 : U64)) :=
  have hshort : available pastHalf
      < (Operation.u64.encode byteBoundary (bitsProcessed pastHalf) (0 : U64)).length := by decide
  have hfirst : available pastHalf < Operation.u64.firstWrite
      (Operation.u64.encode byteBoundary (bitsProcessed pastHalf) (0 : U64)).length := by decide
  have hconforms : Operation.u64.Conforms (0 : U64) := ⟨trivial, trivial, trivial⟩
  (write_untouched_iff pastHalf_reachable hconforms).mpr (fun _ => hfirst) hshort

end WriteStream

end Serialize
