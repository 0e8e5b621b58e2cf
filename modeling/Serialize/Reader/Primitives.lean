import Serialize.Format.Runs
import Serialize.Reader.Refinement

/-!
# The primitives of the read stream

Each primitive of the read stream does on the buffer what its decoder does on the bits of the
packet. The order in which the code consults the latch, the declaration and the end of the packet
is the order of the decoder.
-/

namespace Serialize

open Machine BitString Decode
open ReadStream

variable {α δ : Type}

/-! ### The latch -/

theorem ReadStream.Valid.fits {stream : ReadStream} (h : stream.Valid) :
    ¬stream.cursor.Overflows 0 := by
  have hle := h.bitsRead_le
  have hlt := h.numBits_lt
  rw [Cursor.Overflows, Nat.not_le]
  exact hle.trans_lt hlt

theorem latch_eq (profile : Profile) (stream : ReadStream) (error : Error) :
    (latch error : Action ReadStream α) profile stream
      = .err (stream.failed.getD error) { stream with failed := some (stream.failed.getD error) } :=
  rfl

theorem latch_tracks (error : Error) :
    Tracks (latch error : Action ReadStream α) (Decoders.refuseWith error) := by
  intro build stream h
  rw [latch_eq, Decoders.refuseWith, Decoder.run_refuse, if_neg h.fits]
  exact Or.inr ⟨_, rfl, h.latched _, rfl⟩

theorem refuseIfLatched_eq (profile : Profile) (stream : ReadStream) :
    refuseIfLatched profile stream
      = stream.failed.elim (.ok () stream) fun error => .err error stream := by
  simp only [refuseIfLatched, bind_apply, getState_apply, Outcome.bind_ok]
  cases stream.failed with
  | none => rfl
  | some error => rfl

theorem gate_tracks : Tracks (gate : Action ReadStream Unit) Decoders.gate := by
  intro build stream h
  show (refuseIfLatched build stream).Matches _ _ _
  rw [refuseIfLatched_eq, Decoders.gate, Decoder.run_payload]
  rcases hfailed : stream.failed with - | reason
  · rw [Cursor.consume_of_le (show stream.cursor.Live from hfailed) (Nat.zero_le _)]
    exact ⟨rfl, h, by rw [Cursor.advance, List.drop_zero, Nat.add_zero]⟩
  · rw [Cursor.consume_of_failed (show stream.cursor.failed = some reason from hfailed)]
    exact Or.inr ⟨_, rfl, h, rfl⟩

theorem declarationCheck_tracks (declared : Prop) [Decidable declared] :
    Tracks (declarationCheck declared : Action ReadStream Unit) (Decoders.declare declared) := by
  intro build stream h
  by_cases hdeclared : declared
  · rw [declarationCheck, if_pos hdeclared, Decoders.declare, if_pos hdeclared]
    exact ⟨rfl, h, rfl⟩
  · rw [declarationCheck, if_neg hdeclared, Decoders.declare, if_neg hdeclared]
    exact latch_tracks .valueOutOfRange build stream h

/-! ### A field -/

theorem Decoders.group_of_legal {width : U32} (h : 1 ≤ width.toNat ∧ width.toNat ≤ 32) :
    group width = .field width fun taken => .accept (BitVec.ofNat 32 (ofBits taken)) := by
  rw [group, if_pos h]

theorem Decoders.group_of_illegal {width : U32} (h : ¬(1 ≤ width.toNat ∧ width.toNat ≤ 32)) :
    group width = .refuse width .valueOutOfRange := by
  rw [group, if_neg h]

theorem refuses_to (profile : Profile) (stream : ReadStream) {width : U32} {stop : Nat}
    (hstop : ∀ reader, (checkedAdd 64 stream.reader.bitsRead width.toNat : Action BitReader Nat) profile
      reader = .ok stop reader) :
    refuses width profile stream
      = .ok (stream.failed.isSome || decide (stream.reader.numBits < stop)) stream := by
  simp only [refuses, bind_apply, getState_apply, Outcome.bind_ok, onReader, focus_apply,
    BitReader.wouldReadPastEnd, pure_apply, hstop, Outcome.mapState_ok]

theorem refuses_of (profile : Profile) {stream : ReadStream} (h : stream.Valid) {width : U32}
    (hfits : ¬stream.cursor.Overflows width) :
    refuses width profile stream
      = .ok (stream.failed.isSome || decide (stream.cursor.remaining.length < width.toNat)) stream := by
  have hle := h.bitsRead_le
  have hpast : (stream.reader.numBits < stream.reader.bitsRead + width.toNat)
      = (stream.cursor.remaining.length < width.toNat) := by
    rw [h.length_remaining, eq_iff_iff]
    omega
  have hadd : stream.reader.bitsRead + width.toNat < 2 ^ 64 := Nat.not_le.mp hfits
  simp only [refuses_to profile stream (checkedAdd_of hadd profile), hpast]

theorem onReader_bitsRemaining (profile : Profile) {stream : ReadStream} (h : stream.Valid) :
    onReader BitReader.bitsRemaining profile stream
      = .ok (stream.reader.numBits - stream.reader.bitsRead) stream := by
  simp only [onReader, focus_apply, BitReader.bitsRemaining, bind_apply, getState_apply,
    Outcome.bind_ok, checkedSub_of h.bitsRead_le, Outcome.mapState_ok]

theorem onReader_readBits (profile : Profile) {stream : ReadStream} (h : stream.Valid) (width : U32)
    (hwidth : 1 ≤ width.toNat ∧ width.toNat ≤ 32)
    (hle : width.toNat ≤ stream.cursor.remaining.length) :
    onReader (BitReader.readBits width) profile stream
      = .ok (BitVec.ofNat 32 (ofBits (stream.cursor.remaining.take width.toNat)))
          (stream.moveTo (stream.reader.bitsRead + width.toNat)) := by
  have hbits := h.bitsRead_le
  have hstop : stream.reader.bitsRead + width.toNat ≤ stream.reader.numBits := by
    rw [h.length_remaining] at hle
    omega
  rw [onReader, focus_apply, BitReader.readBits_eq profile hwidth hstop h.numBits_lt,
    take_ahead h hle]
  rfl

theorem wrapping_pred_ge_iff (width : U32) :
    32 ≤ width - 1 ↔ ¬(1 ≤ width.toNat ∧ width.toNat ≤ 32) := by
  rw [← wrapping_pred_lt_iff, BitVec.not_lt]

/-- The reason a field of this width is refused for, on a stream that has not latched one. -/
def bitsRefusal (width : U32) : Error :=
  if 1 ≤ width.toNat ∧ width.toNat ≤ 32 then .pastEnd else .valueOutOfRange

theorem refuseBits_eq (profile : Profile) (stream : ReadStream) (width : U32) :
    refuseBits width profile stream = latch (bitsRefusal width) profile stream := by
  have hpred : decide (32 ≤ width - 1) = decide ¬(1 ≤ width.toNat ∧ width.toNat ≤ 32) :=
    decide_eq_decide.mpr (wrapping_pred_ge_iff width)
  rw [refuseBits, bind_apply, getState_apply, Outcome.bind_ok, latch_eq, latch_eq, hpred, refusal,
    bitsRefusal]
  rcases stream.failed with - | reason
  · by_cases hwidth : 1 ≤ width.toNat ∧ width.toNat ≤ 32
    · simp [hwidth]
    · simp [hwidth]
  · rfl

/-- **What a field's read does,** `stop` being the end of the field in 64 bits. -/
theorem serializeBits_to (profile : Profile) {stream : ReadStream} (h : stream.Valid) {width : U32}
    {stop : Nat} (hstop : ∀ reader, (checkedAdd 64 stream.reader.bitsRead width.toNat :
      Action BitReader Nat) profile reader = .ok stop reader) (value : U32) :
    serializeBits width profile (stream, value)
      = if stream.failed.isSome ∨ stream.reader.numBits < stop ∨ ¬(1 ≤ width.toNat ∧ width.toNat ≤ 32)
        then (latch (bitsRefusal width) profile stream).mapState fun stream' => (stream', value)
        else .ok () (stream.moveTo stop,
          BitVec.ofNat 32 (ofBits (stream.reader.ahead.take width.toNat))) := by
  show (onState (refuses width) >>= fun refused =>
    if (refused || decide (32 ≤ width - 1)) = true then onState (refuseBits width)
    else do
      let value ← onState (onReader (BitReader.readBits width))
      store value) profile (stream, value) = _
  have hrefused : (((stream.failed.isSome || decide (stream.reader.numBits < stop))
      || decide (32 ≤ width - 1)) = true) = (stream.failed.isSome = true ∨
        stream.reader.numBits < stop ∨ ¬(1 ≤ width.toNat ∧ width.toNat ≤ 32)) := by
    rw [Bool.or_assoc, Bool.or_eq_true, Bool.or_eq_true, decide_eq_true_eq, decide_eq_true_eq,
      wrapping_pred_ge_iff]
  rw [bind_apply, onState_apply, refuses_to profile stream hstop, Outcome.mapState_ok,
    Outcome.bind_ok, ite_comp_apply]
  simp only [hrefused]
  split
  next => rw [onState_apply, refuseBits_eq]
  next haccepted =>
    rw [not_or, not_or, Nat.not_lt, not_not] at haccepted
    obtain ⟨-, hpacket, hwidth⟩ := haccepted
    rw [bind_apply, onState_apply, onReader, focus_apply, BitReader.readBits_to profile hwidth
      (h.bitsRead_le.trans_lt h.numBits_lt) (fun _ => hpacket) hstop]
    rfl

theorem serializeBits_of_trap {profile : Profile} {stream : ReadStream} {width : U32}
    (htrap : ∀ reader, (checkedAdd 64 stream.reader.bitsRead width.toNat : Action BitReader Nat)
      profile reader = .trap reader) (value : U32) :
    serializeBits width profile (stream, value) = .trap (stream, value) := by
  show (onState (refuses width) >>= fun _ => _) profile (stream, value) = _
  simp only [bind_apply, onState_apply, refuses, getState_apply, Outcome.bind_ok, onReader,
    focus_apply, BitReader.wouldReadPastEnd, htrap, Outcome.bind_trap, Outcome.mapState_trap]

theorem serializeBits_stores (width : U32) :
    Stores (serializeBits width : Action (ReadStream × U32) Unit) (Decoders.group width) := by
  intro build stream value h
  have hbits := h.bitsRead_le
  by_cases hover : stream.cursor.Overflows width
  · -- the end of the field overflows: both sides trap before looking at anything else
    have htrap := checkedAdd_of_not (Nat.not_lt.mpr hover) build (ε := Error) (σ := BitReader)
    rw [serializeBits_of_trap htrap, Decoders.group]
    split
    · rw [Decoder.run_field, if_pos hover]
      exact ⟨h, rfl, rfl⟩
    · rw [Decoder.run_refuse, if_pos hover]
      exact ⟨h, rfl, rfl⟩
  have hadd : stream.reader.bitsRead + width.toNat < 2 ^ 64 := Nat.not_le.mp hover
  rw [serializeBits_to build h (checkedAdd_of hadd build), latch_eq, bitsRefusal]
  rcases hfailed : stream.failed with - | reason
  · have hlive : stream.cursor.Live := hfailed
    by_cases hwidth : 1 ≤ width.toNat ∧ width.toNat ≤ 32
    · rw [Decoders.group_of_legal hwidth, Decoder.run_field, if_neg hover, if_pos hwidth]
      rcases Nat.lt_or_ge stream.cursor.remaining.length width.toNat with hshort | hle
      · rw [h.length_remaining] at hshort
        rw [if_pos (.inr (.inl (by omega))), Cursor.consume_of_short hlive (by
          rw [h.length_remaining]; exact hshort)]
        exact ⟨rfl, h.latched _, rfl, rfl⟩
      · have hlength := h.length_remaining
        obtain ⟨hvalid, hcursor⟩ := h.advance hle
        rw [if_neg (by simp [hwidth]; omega), Cursor.consume_of_le hlive hle, take_ahead h hle]
        exact ⟨hvalid, hcursor, rfl⟩
    · rw [Decoders.group_of_illegal hwidth, Decoder.run_refuse, if_neg hover, if_neg hwidth,
        if_pos (.inr (.inr hwidth)), Cursor.latch_of_live hlive]
      exact ⟨rfl, h.latched _, rfl, rfl⟩
  · have hcursor : stream.cursor.failed = some reason := hfailed
    have hecho : (Decoders.group width).run stream.cursor = .err reason stream.cursor := by
      rw [Decoders.group]
      split
      · rw [Decoder.run_field, if_neg hover, Cursor.consume_of_failed hcursor]
      · rw [Decoder.run_refuse, if_neg hover, Cursor.latch_of_failed hcursor]
    rw [hecho, if_pos (.inl rfl)]
    refine ⟨rfl, h.latched _, ?_, rfl⟩
    rw [cursor, cursor, hfailed]
    rfl

/-! ### Alignment -/

theorem ofNat_ofBits_eq_zero_iff {taken : List Bool} (h : taken.length ≤ 32) :
    BitVec.ofNat 32 (ofBits taken) = 0 ↔ ofBits taken = 0 := by
  have hlt : ofBits taken < 2 ^ 32 :=
    (ofBits_lt taken).trans_le (Nat.pow_le_pow_right (by decide) h)
  constructor
  · intro heq
    have hnat := congrArg BitVec.toNat heq
    rw [BitVec.toNat_ofNat, Nat.mod_eq_of_lt hlt] at hnat
    exact hnat
  · intro heq
    rw [heq]
    rfl

theorem byteBoundary_lt (position : Nat) : byteBoundary position < 8 := Nat.mod_lt _ (by decide)

theorem onReader_readAlign (profile : Profile) {stream : ReadStream} (h : stream.Valid)
    (hle : byteBoundary stream.reader.bitsRead ≤ stream.cursor.remaining.length) :
    onReader BitReader.readAlign profile stream
      = .ok (decide (ofBits (stream.cursor.remaining.take (byteBoundary stream.reader.bitsRead)) = 0))
          (stream.moveTo (stream.reader.bitsRead + byteBoundary stream.reader.bitsRead)) := by
  have hboundary : byteBoundary stream.reader.bitsRead = (8 - stream.reader.bitsRead % 8) % 8 := rfl
  by_cases hremainder : stream.reader.bitsRead % 8 = 0
  · have hzero : byteBoundary stream.reader.bitsRead = 0 := by omega
    simp only [onReader, focus_apply, BitReader.readAlign, bind_apply, getState_apply,
      Outcome.bind_ok, hremainder, ne_eq, not_true_eq_false, if_false, pure_apply, hzero,
      List.take_zero, ofBits_nil, decide_true, Outcome.mapState_ok]
    rfl
  · have hsub : 8 - stream.reader.bitsRead % 8 = byteBoundary stream.reader.bitsRead := by omega
    have hwidth := Decoders.toNat_byteBoundary stream.reader.bitsRead
    have hread := onReader_readBits profile h
      (BitVec.ofNat 32 (byteBoundary stream.reader.bitsRead))
      (by rw [hwidth]; omega) (by rw [hwidth]; exact hle)
    rw [hwidth] at hread
    have haligned : (stream.moveTo (stream.reader.bitsRead
        + byteBoundary stream.reader.bitsRead)).reader.bitsRead % 8 = 0 := by
      show (stream.reader.bitsRead + byteBoundary stream.reader.bitsRead) % 8 = 0
      omega
    have htaken : (stream.cursor.remaining.take (byteBoundary stream.reader.bitsRead)).length ≤ 32 := by
      have hlt := byteBoundary_lt stream.reader.bitsRead
      rw [List.length_take]
      omega
    rw [onReader, focus_apply] at hread ⊢
    simp only [BitReader.readAlign, bind_apply, getState_apply, Outcome.bind_ok, ne_eq, hremainder,
      not_false_eq_true, if_true, hsub]
    rcases hbits : BitReader.readBits (BitVec.ofNat 32 (byteBoundary stream.reader.bitsRead)) profile
      stream.reader with ⟨value, reader⟩ | ⟨error, reader⟩ | reader
    · rw [hbits, Outcome.mapState_ok] at hread
      obtain ⟨rfl, hstream⟩ := Outcome.ok.inj hread
      obtain rfl : reader = _ := congrArg ReadStream.reader hstream
      simp only [Outcome.bind_ok, debugAssert_of haligned, pure_apply, Outcome.mapState_ok,
        ofNat_ofBits_eq_zero_iff htaken]
      rfl
    · rw [hbits] at hread
      cases hread
    · rw [hbits] at hread
      cases hread

/-- The packet is whole bytes, so the next byte boundary lies inside it. -/
theorem ReadStream.Valid.boundary_le {stream : ReadStream} (h : stream.Valid) :
    byteBoundary stream.reader.bitsRead ≤ stream.cursor.remaining.length :=
  Decoders.boundary_le_remaining h.limit_whole

theorem ReadStream.Valid.boundary_fits {stream : ReadStream} (h : stream.Valid) :
    ¬stream.cursor.Overflows (BitVec.ofNat 32 (byteBoundary stream.reader.bitsRead)) :=
  Decoders.boundary_fits h.limit_lt h.limit_whole

theorem align_run {stream : ReadStream} (h : stream.Valid) (hlive : stream.cursor.Live) :
    Decoders.align.run stream.cursor =
      if ofBits (stream.cursor.remaining.take (byteBoundary stream.reader.bitsRead)) = 0 then
        .ok () (stream.cursor.advance (byteBoundary stream.reader.bitsRead))
      else (stream.cursor.advance (byteBoundary stream.reader.bitsRead)).latch .nonzeroPadding :=
  Decoders.align_run hlive h.limit_lt h.limit_whole

/-- **What an alignment does** on a stream whose packet is whole bytes. -/
theorem readAlign_eq (profile : Profile) {stream : ReadStream} (h : stream.Valid) :
    readAlign profile stream =
      if stream.failed.isSome then latch .pastEnd profile stream
      else if ofBits (stream.cursor.remaining.take (byteBoundary stream.reader.bitsRead)) = 0 then
        .ok () (stream.moveTo (stream.reader.bitsRead + byteBoundary stream.reader.bitsRead))
      else latch .nonzeroPadding profile
        (stream.moveTo (stream.reader.bitsRead + byteBoundary stream.reader.bitsRead)) := by
  have hboundary : stream.reader.alignBits = byteBoundary stream.reader.bitsRead := rfl
  simp only [readAlign, bind_apply, getState_apply, Outcome.bind_ok, hboundary,
    refuses_of profile h h.boundary_fits, Decoders.toNat_byteBoundary,
    decide_eq_false (Nat.not_lt.mpr h.boundary_le), Bool.or_false, ite_comp_apply]
  rcases hfailed : stream.failed with - | reason
  · rw [if_neg (by simp), if_neg (by simp), onReader_readAlign profile h h.boundary_le,
      Outcome.bind_ok]
    simp only [decide_eq_true_eq]
    rfl
  · rw [if_pos (by rfl), if_pos (by rfl), latch_eq, latch_eq, hfailed]
    rfl

theorem readAlign_tracks : Tracks readAlign Decoders.align := by
  intro build stream h
  rw [readAlign_eq build h]
  rcases hfailed : stream.failed with - | reason
  · obtain ⟨hvalid, hcursor⟩ := h.advance h.boundary_le
    rw [if_neg (by simp), align_run h hfailed, ← hcursor]
    split
    · exact ⟨rfl, hvalid, rfl⟩
    · exact Or.inr ⟨_, rfl, hvalid.latched _, by simp [cursor, moveTo, hfailed, packet]⟩
  · have hcursor : stream.cursor.failed = some reason := hfailed
    rw [if_pos (by rfl), latch_eq, Decoders.align, Decoder.run_locate, Decoder.run_field,
      if_neg (show ¬stream.cursor.Overflows (BitVec.ofNat 32 (byteBoundary stream.cursor.position))
        from h.boundary_fits), Cursor.consume_of_failed hcursor]
    simp only [hfailed, Option.getD_some]
    refine Or.inr ⟨_, rfl, h.latched _, ?_⟩
    rw [cursor, cursor, ← hfailed]

/-! ### A run of bytes -/

/-- A run of bytes is a slice of the buffer. Only the checked build minds where it starts. -/
theorem onReader_readByteSlice (profile : Profile) {stream : ReadStream} (h : stream.Valid) {n : Nat}
    (haligned : profile = .checked → stream.reader.bitsRead % 8 = 0)
    (hle : stream.reader.bitsRead + 8 * n ≤ stream.reader.numBits) :
    onReader (BitReader.readByteSlice n) profile stream
      = .ok ((stream.reader.data.drop (stream.reader.bitsRead / 8)).take n)
          (stream.moveTo (stream.reader.bitsRead + 8 * n)) := by
  have hdata := h.numBits_le
  have hlt := h.numBits_lt
  have hstart : stream.reader.bitsRead >>> 3 = stream.reader.bitsRead / 8 :=
    Nat.shiftRight_eq_div_pow _ 3
  have hboundary : (debugAssert (stream.reader.alignBits = 0) : Action BitReader Unit) profile
      stream.reader = .ok () stream.reader := by
    rw [debugAssert_apply, if_pos]
    intro hchecked
    rw [BitReader.alignBits, haligned hchecked]
  have hmul : n * 8 < 2 ^ 64 := by omega
  have hadd : stream.reader.bitsRead + n * 8 < 2 ^ 64 := by omega
  have hchecked : (inChecked do
      let payload ← checkedMul 64 n 8
      let stop ← checkedAdd 64 stream.reader.bitsRead payload
      require (stop ≤ stream.reader.numBits) : Action BitReader Unit) profile stream.reader
        = .ok () stream.reader := by
    apply inChecked_of_ok
    rw [bind_apply, checkedMul_of hmul, Outcome.bind_ok, bind_apply, checkedAdd_of hadd,
      Outcome.bind_ok, require_of (by omega)]
  simp only [onReader, focus_apply, BitReader.readByteSlice, bind_apply, getState_apply,
    Outcome.bind_ok, hboundary, hchecked, checkedMul_of hmul, checkedAdd_of hadd,
    setState_apply, hstart,
    checkedAdd_of (show stream.reader.bitsRead / 8 + n < 2 ^ 64 by omega),
    require_of (show stream.reader.bitsRead / 8 ≤ stream.reader.bitsRead / 8 + n
      ∧ stream.reader.bitsRead / 8 + n ≤ stream.reader.data.length by omega),
    pure_apply, Outcome.mapState_ok]
  rw [Nat.mul_comm n 8]
  rfl

/-- At a byte boundary the slice is bytes of the packet. -/
theorem slice_eq {stream : ReadStream} (h : stream.Valid) {n : Nat}
    (haligned : stream.reader.bitsRead % 8 = 0) (hle : 8 * n ≤ stream.cursor.remaining.length) :
    (stream.reader.data.drop (stream.reader.bitsRead / 8)).take n
      = octetsOfBits n (stream.cursor.remaining.take (8 * n)) := by
  apply bitsOfOctets_injective
  rw [octetsOfBits_take, bitsOfOctets_octetsOfBits hle, ← take_ahead h hle, bitsOfOctets_take,
    bitsOfOctets_drop, BitReader.ahead, Nat.mul_div_cancel' (Nat.dvd_of_mod_eq_zero haligned)]

/-- A checked build minds where a run of bytes starts. -/
theorem onReader_readByteSlice_of_unaligned {stream : ReadStream}
    (hunaligned : stream.reader.bitsRead % 8 ≠ 0) (n : Nat) :
    onReader (BitReader.readByteSlice n) .checked stream = .trap stream := by
  have hboundary : stream.reader.alignBits ≠ 0 := by
    rw [BitReader.alignBits]
    omega
  rw [onReader, focus_apply, BitReader.readByteSlice, bind_apply, getState_apply, Outcome.bind_ok,
    bind_apply, debugAssert_checked_of_not hboundary]
  rfl

theorem readPayload_eq (profile : Profile) {stream : ReadStream} (h : stream.Valid) (n : Nat) :
    readPayload n profile stream =
      if (stream.reader.numBits - stream.reader.bitsRead) / 8 < n then latch .pastEnd profile stream
      else onReader (BitReader.readByteSlice n) profile stream := by
  rw [readPayload, bind_apply, onReader_bitsRemaining profile h, Outcome.bind_ok, ite_comp_apply]

theorem readPayload_tracks (profile : Profile) {stream : ReadStream} (h : stream.Valid)
    (hlive : stream.cursor.Live) (haligned : stream.reader.bitsRead % 8 = 0) (n : Nat) :
    (readPayload n profile stream).Matches (fun stream' c => stream'.Valid ∧ stream'.cursor = c)
      NoEscape (((Decoders.octets n).bind fun payload => .accept payload.toList).run stream.cursor) := by
  rw [readPayload_eq profile h, ← h.length_remaining, Decoders.octets, Decoder.bind,
    Decoder.run_payload]
  rcases Nat.lt_or_ge stream.cursor.remaining.length (8 * n) with hshort | hle
  · rw [if_pos (by omega), Cursor.consume_of_short hlive hshort, latch_eq,
      show stream.failed = none from hlive]
    exact Or.inr ⟨_, rfl, h.latched _, rfl⟩
  · have hbits := h.bitsRead_le
    have hlength := h.length_remaining
    rw [if_neg (by omega), Cursor.consume_of_le hlive hle,
      onReader_readByteSlice profile h (fun _ => haligned) (by omega), slice_eq h haligned hle]
    exact ⟨rfl, h.advance hle⟩

theorem alignedPayload_tracks (n : Nat) :
    Tracks (readAlign >>= fun _ => readPayload n)
      ((Decoders.bytes n).bind fun payload => .accept payload.toList) := by
  intro build stream h
  have hmatch := readAlign_tracks build stream h
  rw [bind_apply, Decoders.bytes, Decoder.bind_eq, Decoder.bind_assoc, Decoder.run_bind]
  match hm : readAlign build stream, hd : Decoders.align.run stream.cursor, hmatch with
  | .ok () stream', .ok () c, ⟨_, hvalid, hcursor⟩ =>
      obtain ⟨hlive, hlive'⟩ := Decoder.live_of_run_eq_ok Decoders.align_guarded hd
      subst hcursor
      have hadvance : stream'.cursor = stream.cursor.advance (byteBoundary stream.reader.bitsRead) := by
        rw [align_run h hlive] at hd
        split at hd
        · exact (Outcome.ok.inj hd).2.symm
        · cases hd
      have haligned : stream'.reader.bitsRead % 8 = 0 := by
        have hposition := congrArg Cursor.position hadvance
        have hboundary : byteBoundary stream.reader.bitsRead
            = (8 - stream.reader.bitsRead % 8) % 8 := rfl
        simp only [cursor, Cursor.advance] at hposition
        omega
      exact readPayload_tracks build hvalid hlive' haligned n
  | .err error stream', _, .inr ⟨c, rfl, hstream⟩ => exact Or.inr ⟨c, rfl, hstream⟩
  | .trap stream', .trap c, hstream => exact hstream

end Serialize
