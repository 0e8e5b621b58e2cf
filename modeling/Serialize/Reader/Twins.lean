import Serialize.Model.Respects
import Serialize.Reader.Session

/-!
# Streams over the same packet

Two read streams over different buffers are twins when they are at the same place of the same packet.
No read of a stream reaches behind its packet, so that twins answer every call alike. The default
release profile is the exception: the end of a field that starts within 32 bits of `2 ^ 64` can wrap
there, and the field is then read over whatever lies behind the packet.
-/

namespace Serialize

open Machine BitString Decode
open Binary32 (Arithmetic)
open Utf8 (Text)
open ReadStream

variable {α δ : Type} {profile : Profile} {stream left right : ReadStream}

namespace ReadStream

/-- The number in the 32 bits behind the packet. -/
def behind (stream : ReadStream) : Nat :=
  ofBits (((bitsOfOctets stream.reader.data).drop stream.reader.numBits).take 32)

theorem Valid.ahead_eq (h : stream.Valid) : stream.reader.ahead
    = stream.cursor.remaining ++ (bitsOfOctets stream.reader.data).drop stream.reader.numBits := by
  have hlength := h.length_packet
  have hbits := h.bitsRead_le
  rw [BitReader.ahead, cursor, ← List.drop_append_of_le_length (by omega), packet,
    List.take_append_drop]

/-- A field is the bits left of the packet, and then those behind it. -/
theorem Valid.field_eq (h : stream.Valid) {n : Nat} (hn : n ≤ 32) :
    ofBits (stream.reader.ahead.take n) = ofBits (stream.cursor.remaining.take n)
      + 2 ^ (stream.cursor.remaining.take n).length
        * (stream.behind % 2 ^ (n - stream.cursor.remaining.length)) := by
  rw [h.ahead_eq, List.take_append, ofBits_append, behind, ← ofBits_take, List.take_take,
    Nat.min_eq_left (by omega)]

end ReadStream

/-- The streams are at the same place of the same packet. Where the end of a field may wrap, the same
32 bits lie behind it. -/
structure Twins (profile : Profile) (left right : ReadStream) : Prop where
  left_valid : left.Valid
  right_valid : right.Valid
  failed_eq : left.failed = right.failed
  numBits_eq : left.reader.numBits = right.reader.numBits
  bitsRead_eq : left.reader.bitsRead = right.reader.bitsRead
  packet_eq : left.packet = right.packet
  behind_eq : profile = .wrapping → 2 ^ 64 ≤ left.reader.numBits + 32 → left.behind = right.behind

namespace Twins

theorem remaining_eq (h : Twins profile left right) :
    left.cursor.remaining = right.cursor.remaining := by
  show left.packet.drop _ = right.packet.drop _
  rw [h.packet_eq, h.bitsRead_eq]

/-- Twins give the same field, also over the end of the packet where that can be read over. -/
theorem field_eq (h : Twins profile left right) {n : Nat} (hn : n ≤ 32)
    (hinside : left.reader.bitsRead + n ≤ left.reader.numBits
      ∨ profile = .wrapping ∧ 2 ^ 64 ≤ left.reader.bitsRead + n) :
    ofBits (left.reader.ahead.take n) = ofBits (right.reader.ahead.take n) := by
  have hbits := h.left_valid.bitsRead_le
  have hlength := h.left_valid.length_remaining
  rw [h.left_valid.field_eq hn, h.right_valid.field_eq hn, ← h.remaining_eq]
  rcases hinside with hinside | ⟨hwrapping, hover⟩
  · rw [show n - left.cursor.remaining.length = 0 by omega, Nat.pow_zero, Nat.mod_one, Nat.mod_one]
  · rw [h.behind_eq hwrapping (by omega)]

/-- Twins have the same bytes in their packet. -/
theorem take_bytes (h : Twins profile left right) {start n : Nat}
    (hn : 8 * (start + n) ≤ left.reader.numBits) :
    (left.reader.data.drop start).take n = (right.reader.data.drop start).take n := by
  have hpacket : ∀ {stream : ReadStream}, 8 * (start + n) ≤ stream.reader.numBits →
      bitsOfOctets ((stream.reader.data.drop start).take n)
        = (stream.packet.take (8 * (start + n))).drop (8 * start) := by
    intro stream hle
    rw [packet, List.take_take, Nat.min_eq_left hle, List.take_drop, bitsOfOctets_drop,
      bitsOfOctets_take]
  apply bitsOfOctets_injective
  rw [hpacket hn, hpacket (h.numBits_eq ▸ hn), h.packet_eq]

theorem moveTo (h : Twins profile left right) {position : Nat}
    (hle : position ≤ left.reader.numBits) :
    Twins profile (left.moveTo position) (right.moveTo position) where
  left_valid := h.left_valid.moved hle
  right_valid := h.right_valid.moved (h.numBits_eq ▸ hle)
  failed_eq := h.failed_eq
  numBits_eq := h.numBits_eq
  bitsRead_eq := rfl
  packet_eq := h.packet_eq
  behind_eq := h.behind_eq

theorem latched (h : Twins profile left right) (reason : Error) :
    Twins profile { left with failed := some reason } { right with failed := some reason } where
  left_valid := h.left_valid.latched reason
  right_valid := h.right_valid.latched reason
  failed_eq := rfl
  numBits_eq := h.numBits_eq
  bitsRead_eq := h.bitsRead_eq
  packet_eq := h.packet_eq
  behind_eq := h.behind_eq

end Twins

/-! ### Each primitive treats twins alike -/

theorem latch_twins (error : Error) : SimUnder profile (Twins profile) NoEscape
    (latch error : Action ReadStream α) (latch error) := by
  intro left right h
  rw [latch_eq, latch_eq, ← h.failed_eq]
  exact .inr ⟨_, rfl, h.latched _⟩

theorem refuseIfLatched_twins : SimUnder profile (Twins profile) NoEscape
    refuseIfLatched refuseIfLatched := by
  intro left right h
  rw [refuseIfLatched_eq, refuseIfLatched_eq, ← h.failed_eq]
  cases left.failed with
  | none => exact ⟨rfl, h⟩
  | some error => exact .inr ⟨_, rfl, h⟩

theorem serializeBits_twins (width : U32) : SimUnder profile (Carrying (Twins profile)) NoEscape
    (serializeBits width : Action (ReadStream × U32) Unit) (serializeBits width) := by
  rintro ⟨left, value⟩ ⟨right, _⟩ ⟨h, rfl⟩
  change Twins profile left right at h
  rcases checkedAdd_cases 64 left.reader.bitsRead width.toNat profile (ε := Error) (σ := BitReader)
    with htrap | ⟨stop, hstop, hsum⟩
  · rw [serializeBits_of_trap htrap, serializeBits_of_trap (h.bitsRead_eq ▸ htrap)]
    exact ⟨h, rfl⟩
  · rw [serializeBits_to profile h.left_valid hstop,
      serializeBits_to profile h.right_valid (h.bitsRead_eq ▸ hstop), ← h.failed_eq, ← h.numBits_eq]
    split
    next =>
      rw [latch_eq, latch_eq, ← h.failed_eq]
      exact .inr ⟨_, rfl, h.latched _, rfl⟩
    next haccepted =>
      rw [not_or, not_or, Nat.not_lt, not_not] at haccepted
      obtain ⟨-, hpacket, hwidth⟩ := haccepted
      have hinside : left.reader.bitsRead + width.toNat ≤ left.reader.numBits
          ∨ profile = .wrapping ∧ 2 ^ 64 ≤ left.reader.bitsRead + width.toNat := by
        rcases hsum with rfl | hwrapped
        · exact .inl hpacket
        · exact .inr hwrapped
      refine ⟨rfl, h.moveTo hpacket, ?_⟩
      rw [h.field_eq hwidth.2 hinside]

theorem readAlign_twins : SimUnder profile (Twins profile) NoEscape readAlign readAlign := by
  intro left right h
  have hbits := h.left_valid.bitsRead_le
  have hboundary := h.left_valid.boundary_le
  rw [h.left_valid.length_remaining] at hboundary
  have hmoved := h.moveTo (show left.reader.bitsRead + byteBoundary left.reader.bitsRead
    ≤ left.reader.numBits by omega)
  rw [readAlign_eq profile h.left_valid, readAlign_eq profile h.right_valid, ← h.failed_eq,
    ← h.bitsRead_eq, ← h.remaining_eq]
  split
  · exact latch_twins .pastEnd left right h
  · split
    · exact ⟨rfl, hmoved⟩
    · exact latch_twins .nonzeroPadding _ _ hmoved

theorem readPayload_twins (n : Nat) : SimUnder profile (Twins profile) NoEscape
    (readPayload n) (readPayload n) := by
  intro left right h
  have hbits := h.left_valid.bitsRead_le
  rw [readPayload_eq profile h.left_valid, readPayload_eq profile h.right_valid, ← h.numBits_eq,
    ← h.bitsRead_eq]
  split
  · exact latch_twins .pastEnd left right h
  · by_cases haligned : profile = .checked → left.reader.bitsRead % 8 = 0
    · have hstop : left.reader.bitsRead + 8 * n ≤ left.reader.numBits := by omega
      rw [onReader_readByteSlice profile h.left_valid haligned hstop,
        onReader_readByteSlice profile h.right_valid (h.bitsRead_eq ▸ haligned)
          (h.bitsRead_eq ▸ h.numBits_eq ▸ hstop), ← h.bitsRead_eq,
        h.take_bytes (show 8 * (left.reader.bitsRead / 8 + n) ≤ left.reader.numBits by omega)]
      exact ⟨rfl, h.moveTo hstop⟩
    · rw [Classical.not_imp] at haligned
      obtain ⟨rfl, hunaligned⟩ := haligned
      rw [onReader_readByteSlice_of_unaligned hunaligned,
        onReader_readByteSlice_of_unaligned (h.bitsRead_eq ▸ hunaligned)]
      exact h

theorem readEnd_twins : SimUnder profile (Twins profile) NoEscape readEnd readEnd := by
  intro left right h
  have hmoved := h.moveTo (le_refl left.reader.numBits)
  rw [readEnd_eq profile h.left_valid, readEnd_eq profile h.right_valid, ← h.failed_eq,
    ← h.numBits_eq, ← h.remaining_eq]
  split
  · exact latch_twins .trailingData left right h
  · split
    · exact latch_twins .trailingData left right h
    · split
      · exact ⟨rfl, hmoved⟩
      · exact latch_twins .nonzeroPadding _ _ hmoved

instance : CoreRespects profile (Twins profile) where
  fail error := ⟨latch_twins error⟩
  gate := ⟨refuseIfLatched_twins⟩
  serializeBits width := ⟨serializeBits_twins width⟩

section Instances

local instance (error : Error) :
    Respects profile (Twins profile) (latch error : Action ReadStream α) := ⟨latch_twins error⟩

local instance : Respects profile (Twins profile) refuseIfLatched := ⟨refuseIfLatched_twins⟩

local instance : Respects profile (Twins profile) readAlign := ⟨readAlign_twins⟩

local instance (n : Nat) : Respects profile (Twins profile) (readPayload n) :=
  ⟨readPayload_twins n⟩

local instance {n : Nat} (source : List U8) :
    Respects profile (Carrying (Twins profile)) (copyInto source :
      Action (ReadStream × List.Vector U8 n) Unit) := by
  unfold copyInto
  split
  · exact ⟨fun _ _ h => ⟨rfl, h.1, rfl⟩⟩
  · infer_instance

theorem serializeObject_twins {m n : Action (ReadStream × δ) Unit}
    (h : SimUnder profile (Carrying (Twins profile)) NoEscape m n) :
    SimUnder profile (Carrying (Twins profile)) NoEscape (serializeObject m)
      (serializeObject n) := by
  unfold serializeObject instStream
  refine SimUnder.bind (CallSimUnder.onState refuseIfLatched_twins) fun _ =>
    h.attempt.bind fun result => ?_
  cases result with
  | ok value => exact CallSimUnder.onState refuseIfLatched_twins
  | error error => exact (inferInstance : Respects profile (Carrying (Twins profile)) (do
      let _ ← attempt (onState (latch (α := Unit) error))
      onState refuseIfLatched : Action (ReadStream × δ) Unit)).sim

instance : StreamRespects profile (Twins profile) where
  serializeBytes n := by
    unfold serializeBytes instStream
    dsimp only
    infer_instance
  serializeAlign := ⟨readAlign_twins⟩
  serializeString bufferSize := by
    have hpayload : ∀ bytes : List U8, Respects profile (Carrying (Twins profile))
        (if bytes.contains 0 then onState (latch .embeddedNul)
          else match Utf8.fromUtf8 bytes with
            | some text => store text
            | none => onState (latch .invalidUtf8) : Action (ReadStream × Text) Unit) := by
      intro bytes
      cases Utf8.fromUtf8 bytes <;> infer_instance
    unfold serializeString instStream
    infer_instance

end Instances

/-- **Twins answer every call alike.** -/
theorem twins_mirrors [Arithmetic] (profile : Profile)  :
    Mirrors profile (Twins profile) where
  observation {left right} h := by
    show Observation.mk left.failed left.reader.bitsRead left.reader.numBits = Observation.mk _ _ _
    rw [h.failed_eq, h.bitsRead_eq, h.numBits_eq]
    rfl
  operation operation := (inferInstance : Respects profile (Carrying (Twins profile))
    (operation.run : Action (ReadStream × operation.Value) Unit)).sim
  finish := readEnd_twins
  fail := latch_twins
  reject := (inferInstance : Respects profile (Twins profile)
    (reject : Action ReadStream Unit)).sim
  object := serializeObject_twins

end Serialize
