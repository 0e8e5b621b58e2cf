import Serialize.Contracts.Widening
import Serialize.Format.Runs

/-!
# Fixed point

A fixed point field is a ranged integer over its raw bounds. A reader refuses exactly the declarations
whose Q format or bounds the storage type has no room for, and over bounds that a 128 bit integer can
hold the field and `serialize_int128` do the same on all three streams. They differ on one misuse: a
checked build looks at the value of a range of one value in fixed point alone.
-/

namespace Serialize

open Machine BitString Decode Encode Wrapping
open Binary32 (Arithmetic)
open Operation (rawBound)
open ReadStream

/-! ### Declarations -/

/-- Some raw value of the storage type stands for the integer. -/
def FixedPointStorage.Holds (T : FixedPointStorage) (n : Int) : Prop :=
  ∃ raw : BitVec T.bits, T.toInt raw = n

/-- The declarations a reader refuses. -/
def FixedRefused (T : FixedPointStorage) (integerBits fractionBits : U32) (minUnits maxUnits : I64) :
    Prop :=
  integerBits.toNat = 0 ∨ integerBits.toNat + fractionBits.toNat ≠ T.bits
    ∨ maxUnits.toInt < minUnits.toInt ∨ ¬T.Holds (rawBound minUnits fractionBits)
    ∨ ¬T.Holds (rawBound maxUnits fractionBits)

theorem FixedPointStorage.holds_iff (T : FixedPointStorage) (n : Int) :
    T.Holds n ↔ T.minRaw ≤ n ∧ n ≤ T.maxRaw := by
  constructor
  · rintro ⟨raw, rfl⟩
    exact T.toInt_bounds raw
  · rintro ⟨hlow, hhigh⟩
    exact ⟨_, T.toInt_ofInt hlow hhigh⟩

section Declarations

variable {T : FixedPointStorage} {integerBits fractionBits : U32} {minUnits maxUnits : I64}

theorem not_fixedRefused_iff : ¬FixedRefused T integerBits fractionBits minUnits maxUnits ↔
    Operation.FixedLegal T integerBits fractionBits minUnits maxUnits := by
  unfold FixedRefused
  rw [T.holds_iff, T.holds_iff]
  constructor
  · intro h
    simp only [not_or, not_not, not_lt] at h
    obtain ⟨hpositive, hwidth, horder, ⟨hlow, -⟩, -, hhigh⟩ := h
    exact ⟨Nat.pos_of_ne_zero hpositive, hwidth, horder, hlow, hhigh⟩
  · rintro ⟨hpositive, hwidth, horder, hlow, hhigh⟩
    have hraw := Decoders.rawBound_le_rawBound fractionBits horder
    rintro (h | h | h | h | h)
    · omega
    · exact h hwidth
    · omega
    · exact h ⟨hlow, hraw.trans hhigh⟩
    · exact h ⟨hlow.trans hraw, hhigh⟩

/-- Q64.64 over every whole unit. -/
example : ¬FixedRefused .i128 64 64 (BitVec.intMin 64) (BitVec.intMax 64) :=
  not_fixedRefused_iff.mpr ⟨by decide, by decide, by decide, by decide, by decide⟩

end Declarations

/-! ### Writing -/

section Write

variable {T : FixedPointStorage} {integerBits fractionBits : U32} {minUnits maxUnits : I64}
  {value : BitVec T.bits} {min max value' : I128} {σ : Type} {put : U32 → U32 → Action σ Unit}
  {build : Build} {state : σ}

theorem run_capacity (h : Operation.FixedLegal T integerBits fractionBits minUnits maxUnits) :
    Encoder.run put (Encoders.capacity T integerBits minUnits maxUnits) build state
      = .ok () state := by
  have hcapacity := Decoders.capacity_of_legal h
  have hbits := T.bits_le
  have hwidth := h.width
  have hshift : integerBits.toNat - 1 < 128 := by omega
  unfold Decoders.Capacity at hcapacity
  unfold Encoders.capacity
  split at hcapacity
  next hsigned =>
    rw [if_pos hsigned, Encoder.run_demand_of h.integerBits_pos, Encoder.run_demand_of hshift,
      Encoder.run_assert_of hcapacity]
    rfl
  next hsigned =>
    rw [if_neg hsigned, Encoder.run_assert_of hcapacity]
    rfl

theorem run_fixed (h : Operation.FixedLegal T integerBits fractionBits minUnits maxUnits)
    (hmin : min.toInt = rawBound minUnits fractionBits)
    (hmax : max.toInt = rawBound maxUnits fractionBits) (hvalue : value'.toInt = T.toInt value) :
    Encoder.run put (Encoders.fixed T integerBits fractionBits minUnits maxUnits value) build state
      = if minUnits = maxUnits then Encoder.run put [.assert (decide (value' = min))] build state
        else Encoder.run put (.assert (decide (value' - min ≤ max - min))
          :: Encoders.offset128 (value' - min) (bitsRequired128 0 (max - min))) build state := by
  have hraw : T.toUnsigned value = value' := by
    rw [T.toUnsigned_eq, ← hvalue, BitVec.ofInt_toInt]
  have hfraction : fractionBits.toNat < 128 := by
    have hbits := T.bits_le
    have hpositive := h.integerBits_pos
    have hwidth := h.width
    omega
  unfold Encoders.fixed
  rw [Encoder.run_assert_of h.integerBits_pos, Encoder.run_assert_of h.width,
    Encoder.run_assert_of (BitVec.sle_iff_toInt_le.mpr h.order), Encoder.run_append, run_capacity h,
    Outcome.bind_ok, Encoder.run_demand_of hfraction, hraw, Decoders.rawMin_of_toInt hmin,
    Decoders.rawRange_of_toInt hmin hmax, Decoders.bitsRequired128_zero]
  split
  · rfl
  · rfl

theorem run_int128_single :
    Encoder.run put (Encoders.int128 min min value') build state = .ok () state := by
  unfold Encoders.int128 Encoders.ranged
  rw [Encoder.run_assert_of (BitVec.sle_iff_toInt_le.mpr (le_refl _)), if_pos rfl]
  rfl

theorem run_int128_of_ne (horder : min.toInt ≤ max.toInt) (hne : min ≠ max) :
    Encoder.run put (Encoders.int128 min max value') build state
      = Encoder.run put (.assert (decide (value' - min ≤ max - min))
        :: Encoders.offset128 (value' - min) (bitsRequired128 0 (max - min))) build state := by
  have hinside : (min.sle value' = true ∧ value'.sle max = true) ↔ value' - min ≤ max - min := by
    rw [BitVec.sle_iff_toInt_le, BitVec.sle_iff_toInt_le, BitVec.le_def,
      offset_le_iff (by decide) horder]
  unfold Encoders.int128 Encoders.ranged
  rw [Encoder.run_assert_of (BitVec.sle_iff_toInt_le.mpr horder), if_neg hne, Encoder.run_assert_and,
    decide_eq_decide.mpr hinside]

/-- **The same is written**, unless a checked build sees a value that is not the one of its range. -/
theorem run_fixed_eq_int128
    (h : Operation.FixedLegal T integerBits fractionBits minUnits maxUnits)
    (hmin : min.toInt = rawBound minUnits fractionBits)
    (hmax : max.toInt = rawBound maxUnits fractionBits) (hvalue : value'.toInt = T.toInt value)
    (hused : minUnits = maxUnits → build = .checked → T.toInt value = rawBound minUnits fractionBits) :
    Encoder.run put (Encoders.fixed T integerBits fractionBits minUnits maxUnits value) build state
      = Encoder.run put (Encoders.int128 min max value') build state := by
  have horder : min.toInt ≤ max.toInt := by
    rw [hmin, hmax]
    exact Decoders.rawBound_le_rawBound fractionBits h.order
  rw [run_fixed h hmin hmax hvalue]
  split
  next heq =>
    obtain rfl := (Decoders.units_eq_iff hmin hmax).mp heq
    rw [run_int128_single, Encoder.run, bind_apply, Step.run, debugAssert_apply, if_pos]
    · rfl
    · intro hchecked
      have hint : value'.toInt = min.toInt := by rw [hvalue, hused heq (Profile.trapping.inj hchecked), hmin]
      exact decide_eq_true (BitVec.eq_of_toInt_eq hint)
  next hne =>
    rw [run_int128_of_ne horder (mt (Decoders.units_eq_iff hmin hmax).mpr hne)]

/-- A checked build is handed a value other than the one of a range of one value, both of them 128 bit
integers. -/
def FixedMisuse (T : FixedPointStorage) (fractionBits : U32) (minUnits maxUnits : I64) (build : Build)
    (value : BitVec T.bits) : Prop :=
  build = .checked ∧ minUnits = maxUnits ∧ T.toInt value ≠ rawBound minUnits fractionBits
    ∧ (∃ raw : I128, raw.toInt = T.toInt value)
    ∧ ∃ raw : I128, raw.toInt = rawBound minUnits fractionBits

/-- A write or a measure that is no misuse does what `serialize_int128` does. -/
theorem fixed_writes_as_int128
    (h : Operation.FixedLegal T integerBits fractionBits minUnits maxUnits)
    (hused : ¬FixedMisuse T fractionBits minUnits maxUnits build value) {S : Type} [Stream S]
    (scribe : Scribe S) (stream : S)
    (hmin : min.toInt = rawBound minUnits fractionBits)
    (hmax : max.toInt = rawBound maxUnits fractionBits) (hvalue : value'.toInt = T.toInt value) :
    WriteAlike value value'
      (serializeFixed T integerBits fractionBits minUnits maxUnits build (stream, value))
      (serializeInt128 min max build (stream, value')) := by
  apply writeAlike_of_run
    (serializeFixed_writes scribe T integerBits fractionBits minUnits maxUnits value)
    (serializeInt128_writes scribe min max value')
  refine (run_fixed_eq_int128 h hmin hmax hvalue fun heq hchecked => ?_).symm
  by_contra hne
  exact hused ⟨hchecked, heq, hne, ⟨value', hvalue⟩, ⟨min, hmin⟩⟩

end Write

/-! ### Reading -/

section Read

variable {T : FixedPointStorage} {integerBits fractionBits : U32} {minUnits maxUnits : I64}
  {stream : ReadStream} {prior : BitVec T.bits} {build : Build}

/-- The bit length of the raw span. -/
def rawWidth (fractionBits : U32) (minUnits maxUnits : I64) : Nat :=
  Nat.size (rawBound maxUnits fractionBits - rawBound minUnits fractionBits).toNat

theorem length_rawBits (n : Int) : (rangedBits (rawBound minUnits fractionBits)
    (rawBound maxUnits fractionBits) n).length = rawWidth fractionBits minUnits maxUnits := by
  unfold rangedBits rawWidth
  rw [length_toBits]

theorem rawWidth_le (h : Operation.FixedLegal T integerBits fractionBits minUnits maxUnits) :
    rawWidth fractionBits minUnits maxUnits ≤ T.bits := by
  have hlow := h.minRaw_le
  have hhigh := h.le_maxRaw
  have hspan : T.maxRaw - T.minRaw < 2 ^ T.bits := by
    cases T <;> decide
  apply Nat.size_le.mpr
  have hcast : ((2 ^ T.bits : Nat) : Int) = 2 ^ T.bits := by norm_cast
  have hpos := Nat.two_pow_pos T.bits
  omega

theorem rawWidth_pos (h : Operation.FixedLegal T integerBits fractionBits minUnits maxUnits)
    (hne : minUnits ≠ maxUnits) : 1 ≤ rawWidth fractionBits minUnits maxUnits := by
  have hbounds := Decoders.rawRange_bounds h.minRaw_le h.le_maxRaw h.order hne
  rw [Decoders.toNat_bitLength_rawRange h.minRaw_le h.le_maxRaw h.order] at hbounds
  exact hbounds.1

/-- **The declaration check is exact.** -/
theorem fixed_refuses_iff (hstream : stream.Valid) (hlive : stream.cursor.Live) :
    stream.RefusesAfter 0 .valueOutOfRange prior
        (serializeFixed T integerBits fractionBits minUnits maxUnits build (stream, prior))
      ↔ FixedRefused T integerBits fractionBits minUnits maxUnits := by
  have hm := serializeFixed_stores T integerBits fractionBits minUnits maxUnits
  have hlimit := hstream.limit_lt
  constructor
  · intro hrefused
    obtain ⟨c, hrun, hposition⟩ := run_of_refusesAfter hm hstream hrefused
    by_contra hlegal
    rw [not_fixedRefused_iff] at hlegal
    rw [Decoders.fixed_of_legal hlegal] at hrun
    split at hrun
    next =>
      rw [Decoder.run_bind, Decoders.gate, Decoder.run_payload, Cursor.consume_of_le hlive (Nat.zero_le _)]
        at hrun
      cases hrun
    next hne =>
      have hpos := rawWidth_pos hlegal hne
      have hle := (rawWidth_le hlegal).trans T.bits_le
      have hmoved := Decoders.position_of_spanned_run_err (Decoders.fixed_offset hlegal hne) hle hlive
        hlimit hrun
      rw [hposition] at hmoved
      unfold rawWidth at hpos
      omega
  · intro hrefused
    have hlegal : ¬Operation.FixedLegal T integerBits fractionBits minUnits maxUnits :=
      fun hlegal => not_fixedRefused_iff.mpr hlegal hrefused
    rw [Decoders.fixed_of_not_legal hlegal] at hm
    exact refusesAfter_of_run hm hstream ((Decoders.refuseWith_run hlimit _).trans
      (Cursor.latch_of_live hlive _)) rfl rfl

theorem fixed_refuses_past (hstream : stream.Valid) (hlive : stream.cursor.Live)
    (h : Operation.FixedLegal T integerBits fractionBits minUnits maxUnits)
    (hle : rawWidth fractionBits minUnits maxUnits ≤ stream.cursor.remaining.length)
    (hpast : rawBound maxUnits fractionBits - rawBound minUnits fractionBits
      < ofBits (stream.cursor.remaining.take (rawWidth fractionBits minUnits maxUnits))) :
    stream.RefusesAfter (rawWidth fractionBits minUnits maxUnits) .valueOutOfRange prior
      (serializeFixed T integerBits fractionBits minUnits maxUnits build (stream, prior)) := by
  have hm := serializeFixed_stores T integerBits fractionBits minUnits maxUnits
  have hraw := Decoders.rawBound_le_rawBound fractionBits h.order
  have hne : minUnits ≠ maxUnits := by
    rintro rfl
    simp [rawWidth] at hpast
  rw [Decoders.fixed_of_legal h, if_neg hne] at hm
  refine refusesAfter_of_run hm hstream (Decoders.spanned_run_past (Decoders.fixed_offset h hne)
    ((rawWidth_le h).trans T.bits_le) hlive hstream.limit_lt hle ?_) rfl rfl
  rw [Decoders.toNat_rawRange h.minRaw_le h.le_maxRaw h.order]
  unfold rawWidth at hpast
  omega

/-- **The same is read**, the raw value in its own width each. -/
theorem fixed_reads_as_int128
    (h : Operation.FixedLegal T integerBits fractionBits minUnits maxUnits) {min max : I128}
    (hmin : min.toInt = rawBound minUnits fractionBits)
    (hmax : max.toInt = rawBound maxUnits fractionBits) (hstream : stream.Valid) (prior' : I128) :
    ReadStream.EndAlike (fun final' final => T.toInt final = final'.toInt)
      (serializeInt128 min max build (stream, prior'))
      (serializeFixed T integerBits fractionBits minUnits maxUnits build (stream, prior)) := by
  have hfixed := serializeFixed_stores T integerBits fractionBits minUnits maxUnits
  rw [Decoders.fixed_eq_int128 h hmin hmax] at hfixed
  apply endAlike_of_stores (serializeInt128_stores min max) hfixed hstream
  intro final c hrun
  have hlive := (Decoder.live_of_run_eq_ok (Operation.decoder_guarded (.int128 min max)) hrun).1
  obtain ⟨⟨-, hlow, hhigh⟩, -⟩ :=
    (Decoders.int128_codes min max _ _ _ _ _).mp (Decoder.parse_of_run_eq_ok hlive hrun)
  have hminRaw := h.minRaw_le
  have hmaxRaw := h.le_maxRaw
  have hfinal : final = BitVec.ofInt 128 final.toInt := BitVec.ofInt_toInt.symm
  rw [hfinal, T.fromUnsigned_ofInt, ← hfinal]
  exact T.toInt_ofInt (by omega) (by omega)

end Read

/-! ### The contract -/

section Contract

variable [Arithmetic] (T : FixedPointStorage) (integerBits fractionBits : U32)
  (minUnits maxUnits : I64)

/-- What an accepted declaration comes to, for a build and the value a writer is handed. -/
structure FixedAccepted (build : Build) (value : BitVec T.bits) : Prop where
  shifts : fractionBits.toNat < 128 ∧ (T.signed = true → integerBits.toNat - 1 < 128)
  width : (bitLength ((maxUnits.signExtend 128 - minUnits.signExtend 128)
    <<< fractionBits.toNat : U128)).toNat ≤ T.bits
  writes : ∀ (stream : WriteStream) (min max value' : I128),
    min.toInt = rawBound minUnits fractionBits → max.toInt = rawBound maxUnits fractionBits →
    value'.toInt = T.toInt value → WriteAlike value value'
      (serializeFixed T integerBits fractionBits minUnits maxUnits build (stream, value))
      (serializeInt128 min max build (stream, value'))
  measures : ∀ (stream : MeasureStream) (min max value' : I128),
    min.toInt = rawBound minUnits fractionBits → max.toInt = rawBound maxUnits fractionBits →
    value'.toInt = T.toInt value → WriteAlike value value'
      (serializeFixed T integerBits fractionBits minUnits maxUnits build (stream, value))
      (serializeInt128 min max build (stream, value'))
  reads : ∀ (stream : ReadStream) (min max prior' : I128) (prior : BitVec T.bits),
    stream.Reachable → min.toInt = rawBound minUnits fractionBits →
    max.toInt = rawBound maxUnits fractionBits →
    ReadStream.EndAlike (fun final' final => T.toInt final = final'.toInt)
      (serializeInt128 min max build (stream, prior'))
      (serializeFixed T integerBits fractionBits minUnits maxUnits build (stream, prior))
  emitted : rawBound minUnits fractionBits ≤ T.toInt value →
    T.toInt value ≤ rawBound maxUnits fractionBits → ∀ (buffer : List U8) (stream : WriteStream),
    WriteStream.Reachable buffer stream → rawWidth fractionBits minUnits maxUnits ≤ stream.available →
    ∃ bits, stream = WriteStream.holding buffer bits
      ∧ serializeFixed T integerBits fractionBits minUnits maxUnits build (stream, value)
        = .ok () (WriteStream.holding buffer (bits ++ rangedBits (rawBound minUnits fractionBits)
          (rawBound maxUnits fractionBits) (T.toInt value)), value)
  reads_back : rawBound minUnits fractionBits ≤ T.toInt value →
    T.toInt value ≤ rawBound maxUnits fractionBits → ∀ (stream : ReadStream) (prior : BitVec T.bits),
    stream.Reachable → stream.failure = none →
    rangedBits (rawBound minUnits fractionBits) (rawBound maxUnits fractionBits) (T.toInt value)
      <+: stream.cursor.remaining →
    stream.Accepts (rawWidth fractionBits minUnits maxUnits) value
      (serializeFixed T integerBits fractionBits minUnits maxUnits build (stream, prior))
  refuses_past : ∀ (stream : ReadStream) (prior : BitVec T.bits), stream.Reachable →
    stream.failure = none → rawWidth fractionBits minUnits maxUnits ≤ stream.cursor.remaining.length →
    rawBound maxUnits fractionBits - rawBound minUnits fractionBits
      < ofBits (stream.cursor.remaining.take (rawWidth fractionBits minUnits maxUnits)) →
    stream.RefusesAfter (rawWidth fractionBits minUnits maxUnits) .valueOutOfRange prior
      (serializeFixed T integerBits fractionBits minUnits maxUnits build (stream, prior))

/-- A fixed point declaration, refused or accepted. -/
structure FixedContract (build : Build) (value : BitVec T.bits) : Prop where
  refused : ∀ (stream : ReadStream) (prior : BitVec T.bits), stream.Reachable →
    stream.failure = none → (stream.RefusesAfter 0 .valueOutOfRange prior
        (serializeFixed T integerBits fractionBits minUnits maxUnits build (stream, prior))
      ↔ FixedRefused T integerBits fractionBits minUnits maxUnits)
  accepted : ¬FixedRefused T integerBits fractionBits minUnits maxUnits →
    FixedAccepted T integerBits fractionBits minUnits maxUnits build value

variable {T integerBits fractionBits minUnits maxUnits} {build : Build} {value : BitVec T.bits}

theorem fixed_accepted (h : Operation.FixedLegal T integerBits fractionBits minUnits maxUnits)
    (hused : ¬FixedMisuse T fractionBits minUnits maxUnits build value) :
    FixedAccepted T integerBits fractionBits minUnits maxUnits build value where
  shifts := by
    have hbits := T.bits_le
    have hpositive := h.integerBits_pos
    have hwidth := h.width
    omega
  width := by
    rw [Decoders.toNat_bitLength_rawRange h.minRaw_le h.le_maxRaw h.order]
    exact rawWidth_le h
  writes stream _ _ _ := fixed_writes_as_int128 h hused WriteStream.scribe stream
  measures stream _ _ _ := fixed_writes_as_int128 h hused MeasureStream.scribe stream
  reads _ _ _ prior' _ hreachable hmin hmax :=
    fixed_reads_as_int128 h hmin hmax hreachable.valid prior'
  emitted hlow hhigh buffer stream hreachable hroom := by
    obtain ⟨hbuffer, bits, hbits, rfl⟩ := hreachable.holds
    have hfits : bits.length + rawWidth fractionBits minUnits maxUnits ≤ buffer.length * 8 := by
      have havailable := WriteStream.available_holding hbits
      omega
    refine ⟨bits, rfl, (@serializeFixed_emits _ _ (WriteStream.sink hbuffer).toCoreSink T integerBits
      fractionBits minUnits maxUnits value h hlow hhigh build bits hbits).1 ?_⟩
    rw [length_rawBits]
    exact hfits
  reads_back hlow hhigh stream prior hreachable hlive hcode := by
    rw [accepts_iff_code (serializeFixed_stores T integerBits fractionBits minUnits maxUnits)
      (Decoders.fixed_codes integerBits) hreachable.valid hlive]
    exact ⟨⟨h, hlow, hhigh⟩, hcode, (length_rawBits _).symm⟩
  refuses_past _ _ hreachable hlive := fixed_refuses_past hreachable.valid hlive h

/-- A range of one value: fixed point looks at it in a checked build, `serialize_int128` in none. -/
theorem not_fixedAccepted (h : Operation.FixedLegal T integerBits fractionBits minUnits maxUnits)
    (hmisuse : FixedMisuse T fractionBits minUnits maxUnits build value) :
    ¬FixedAccepted T integerBits fractionBits minUnits maxUnits build value := by
  obtain ⟨rfl, rfl, hne, ⟨value', hvalue⟩, ⟨min, hmin⟩⟩ := hmisuse
  intro haccepted
  have hassert : ¬decide (value' = min) = true := by
    rw [decide_eq_true_iff]
    rintro rfl
    exact hne (hvalue.symm.trans hmin)
  let stream := WriteStream.holding [] []
  have hfixed := serializeFixed_writes WriteStream.scribe T integerBits fractionBits minUnits minUnits
    value .checked stream
  rw [run_fixed h hmin hmin hvalue, if_pos rfl, Encoder.run, bind_apply, Step.run,
    debugAssert_checked_of_not hassert] at hfixed
  have hint := serializeInt128_writes WriteStream.scribe min min value' .checked stream
  rw [run_int128_single] at hint
  obtain ⟨outcome, hleft, hright⟩ := haccepted.writes stream min min value' hmin hmin hvalue
  rw [hfixed] at hleft
  rw [hint] at hright
  cases outcome with
  | ok result stream' => cases hleft
  | err error stream' => cases hleft
  | trap stream' => cases hright

end Contract

/-- **Fixed point is a ranged integer over raw bounds** exactly where a write is no misuse that
`serialize_int128` lets pass. -/
theorem fixed_contract_iff [Arithmetic] (T : FixedPointStorage) (integerBits fractionBits : U32)
    (minUnits maxUnits : I64) (build : Build) (value : BitVec T.bits) :
    FixedContract T integerBits fractionBits minUnits maxUnits build value ↔
      (¬FixedRefused T integerBits fractionBits minUnits maxUnits →
        ¬FixedMisuse T fractionBits minUnits maxUnits build value) := by
  constructor
  · intro hcontract haccepted hmisuse
    exact not_fixedAccepted (not_fixedRefused_iff.mp haccepted) hmisuse (hcontract.accepted haccepted)
  · intro hused
    refine ⟨fun stream prior hreachable hlive => fixed_refuses_iff hreachable.valid hlive,
      fun haccepted => ?_⟩
    exact fixed_accepted (not_fixedRefused_iff.mp haccepted) (hused haccepted)

/-- The value 2 for the range of the one value 1, in eight integer bits. -/
theorem fixed_not_int128 : ¬∀ (T : FixedPointStorage) (integerBits fractionBits : U32)
    (minUnits maxUnits : I64) (build : Build) (value : BitVec T.bits),
    FixedContract T integerBits fractionBits minUnits maxUnits build value := by
  intro hall
  have hlegal : Operation.FixedLegal .i8 8 0 1 1 := by
    refine ⟨?_, ?_, ?_, ?_, ?_⟩ <;> decide
  have hmisuse : FixedMisuse .i8 0 1 1 .checked 2 :=
    ⟨rfl, rfl, by decide, ⟨2, by decide⟩, ⟨1, by decide⟩⟩
  exact not_fixedAccepted hlegal hmisuse
    ((hall .i8 8 0 1 1 .checked 2).accepted (not_fixedRefused_iff.mpr hlegal))

end Serialize
