import Serialize.Contracts.Terminal
import Serialize.Format.Runs

/-!
# String reads

A read of a string refuses for the first of six reasons that applies, and otherwise gives exactly the
bytes of the packet, wherever its length field ends below 64 bits. Only the length can be asked for
past 64 bits: the padding is always there, and the payload is compared in bytes.
-/

namespace Serialize

open Machine BitString Decode
open Decode.Decoder (run_bind)
open Binary32 (Arithmetic)
open Utf8 (Text wellFormed)
open ReadStream

/-- The outcome of the bytes of a string, behind a length field of `consumed` bits with `bits` left of
the packet. -/
def PayloadRead (stream : ReadStream) (consumed length : Nat) (bits : List Bool) (prior : Text)
    (outcome : Outcome Error (ReadStream × Text) Unit) : Prop :=
  let padding := byteBoundary (bitsProcessed stream + consumed)
  let body := bits.drop padding
  let payload := octetsOfBits length body
  if true ∈ bits.take padding then Refuses .nonzeroPadding prior outcome
  else if body.length / 8 < length then Refuses .pastEnd prior outcome
  else if payload.contains 0 = true then Refuses .embeddedNul prior outcome
  else if ¬wellFormed payload = true then Refuses .invalidUtf8 prior outcome
  else ∃ text : Text, text.bytes = payload
    ∧ stream.Accepts (consumed + padding + 8 * length) text outcome

/-- The outcome of a string read on a live stream, for an outcome `outcome` of handing it a string
that holds `prior`. -/
def StringRead (stream : ReadStream) (bufferSize : Nat) (prior : Text)
    (outcome : Outcome Error (ReadStream × Text) Unit) : Prop :=
  let bits := stream.cursor.remaining
  let width := Nat.size (bufferSize - 1)
  let length := ofBits (bits.take width)
  if bufferSize = 0 ∨ i32Max < bufferSize then stream.RefusesAfter 0 .valueOutOfRange prior outcome
  else if bits.length < width then Refuses .pastEnd prior outcome
  else if bufferSize - 1 < length then Refuses .valueOutOfRange prior outcome
  else PayloadRead stream width length (bits.drop width) prior outcome

section Strings

variable {stream : ReadStream} {bufferSize : Nat} {prior : Text} {build : Build}

theorem string_legal (h : ¬(bufferSize = 0 ∨ i32Max < bufferSize)) :
    1 ≤ bufferSize ∧ bufferSize ≤ i32Max := by
  omega

theorem stringDecoder_run (h : ¬(bufferSize = 0 ∨ i32Max < bufferSize)) (c : Cursor Error) :
    (Decoders.string bufferSize).run c = ((Decoders.int 0 (BitVec.ofNat 32 bufferSize - 1)).run c).bind
      fun length c' => (Decoders.align.bind fun _ =>
        (Decoders.octets (length.signExtend 64).toNat).bind fun payload =>
          Decoders.text payload.toList).run c' := by
  rw [Decoders.string, if_neg h, ← run_bind]
  refine congrArg (fun d : Decoder Error Text => d.run c) (congrArg _ (funext fun length => ?_))
  exact Decoder.bind_assoc _ _ _

theorem payloadRead_of_run {m : Action (ReadStream × Text) Unit} {d : Decoder Error Text}
    {c : Cursor Error} {consumed length : Nat} (hm : Stores m d) (hstream : stream.Valid)
    (hlive : c.Live) (hlimit : c.limit < 2 ^ 64) (hwhole : c.limit % 8 = 0)
    (hposition : c.position = bitsProcessed stream + consumed)
    (hrun : d.run stream.cursor = (Decoders.align.bind fun _ =>
      (Decoders.octets length).bind fun payload => Decoders.text payload.toList).run c) :
    PayloadRead stream consumed length c.remaining prior (m build (stream, prior)) := by
  have hboundary := Decoders.boundary_le_remaining hwhole
  rw [run_bind, Decoders.align_run hlive hlimit hwhole, hposition] at hrun
  rw [hposition] at hboundary
  unfold PayloadRead
  dsimp only
  set padding := byteBoundary (bitsProcessed stream + consumed) with hpadding
  have hlive' : (c.advance padding).Live := hlive
  have hlimit' := Decoders.limit_advance hlimit hboundary
  have hbody : (c.advance padding).remaining = c.remaining.drop padding := rfl
  split
  next hset =>
    rw [if_neg ((ofBits_ne_zero_iff _).mpr hset), Cursor.latch_of_live hlive'] at hrun
    exact refuses_of_run hm hstream hrun rfl
  next hclear =>
  rw [if_pos (not_not.mp (mt (ofBits_ne_zero_iff _).mp hclear)), Outcome.bind_ok, run_bind] at hrun
  split
  next hshort =>
    rw [Decoders.octets_run_short hlive' hshort] at hrun
    exact refuses_of_run hm hstream hrun rfl
  next hlong =>
  have hlong := Nat.not_lt.mp hlong
  obtain ⟨payload, hpayload, hread⟩ := Decoders.octets_run hlive' hlong
  rw [hread, Outcome.bind_ok, hpayload, hbody] at hrun
  have hlive'' : ((c.advance padding).advance (8 * length)).Live := hlive
  have hlimit'' : ((c.advance padding).advance (8 * length)).limit < 2 ^ 64 :=
    Decoders.limit_advance hlimit' (by rw [hbody]; omega)
  split
  next hnul =>
    rw [Decoders.text_run_nul hlimit'' (List.contains_iff_mem.mp hnul), Cursor.latch_of_live hlive''] at hrun
    exact refuses_of_run hm hstream hrun rfl
  next hnul =>
  have hnul := mt List.contains_iff_mem.mpr hnul
  split
  next hill =>
    rw [Decoders.text_run_ill hlimit'' hnul hill, Cursor.latch_of_live hlive''] at hrun
    exact refuses_of_run hm hstream hrun rfl
  next hwell =>
    have hwell := not_not.mp hwell
    rw [Decoders.text_run_value hnul hwell] at hrun
    have hend : c.position + padding + 8 * length
        = bitsProcessed stream + (consumed + padding + 8 * length) := by omega
    exact ⟨_, rfl, accepts_of_run hm hstream hrun hend hlive''⟩

theorem stringRead_of_stop (hstream : stream.Valid) (hlive : stream.cursor.Live)
    (hstop : 1 ≤ bufferSize ∧ bufferSize ≤ i32Max →
      stream.cursor.stop (Nat.size (bufferSize - 1)) < 2 ^ 64) :
    StringRead stream bufferSize prior (serializeString bufferSize build (stream, prior)) := by
  have hm := serializeString_stores bufferSize
  have hlimit := hstream.limit_lt
  unfold StringRead
  dsimp only
  split
  next hillegal =>
    have hrun : (Decoders.string bufferSize).run stream.cursor
        = .err .valueOutOfRange { stream.cursor with failed := some .valueOutOfRange } := by
      rw [Decoders.string, if_pos hillegal, Decoders.refuseWith_run hlimit, Cursor.latch_of_live hlive]
    exact refusesAfter_of_run hm hstream hrun rfl rfl
  next hdeclared =>
  have hlegal := string_legal hdeclared
  have hstring := stringDecoder_run hdeclared stream.cursor
  split
  next hshort =>
    obtain ⟨taken, hrun⟩ := Decoders.length_run_short hlegal hlive hlimit hshort (hstop hlegal)
    rw [hrun] at hstring
    exact refuses_of_run hm hstream hstring rfl
  next hle =>
  have hle := Nat.not_lt.mp hle
  split
  next hpast =>
    rw [Decoders.length_run_past hlegal hlive hlimit hle hpast] at hstring
    exact refuses_of_run hm hstream hstring rfl
  next hinside =>
  have hinside := Nat.not_lt.mp hinside
  rw [Decoders.length_run_value hlegal hlive hlimit hle hinside, Outcome.bind_ok,
    Decoders.length_widened hlegal.2 hinside] at hstring
  have hlive' : (stream.cursor.advance (Nat.size (bufferSize - 1))).Live := hlive
  have hwhole : (stream.cursor.advance (Nat.size (bufferSize - 1))).limit % 8 = 0 := by
    rw [(Cursor.reaches_advance hle).limit_eq]
    exact hstream.limit_whole
  exact payloadRead_of_run hm hstream hlive' (Decoders.limit_advance hlimit hle) hwhole rfl hstring

theorem string_traps (hstream : stream.Valid) (hlegal : 1 ≤ bufferSize ∧ bufferSize ≤ i32Max)
    (hstop : 2 ^ 64 ≤ stream.cursor.stop (Nat.size (bufferSize - 1))) :
    ∃ p, serializeString bufferSize build (stream, prior) = .trap p := by
  have hlimit := hstream.limit_lt
  have hone : bufferSize ≠ 1 := by
    rintro rfl
    have hposition := Decoders.position_lt hlimit
    rw [Nat.sub_self, Nat.size_zero, Cursor.stop_zero] at hstop
    omega
  obtain ⟨c, hrun⟩ := Decoders.spanned_run_trap (Decoders.length_offset hlegal hone) hlimit hstop
  have hdeclared : ¬(bufferSize = 0 ∨ i32Max < bufferSize) := by omega
  have hstring := stringDecoder_run hdeclared stream.cursor
  rw [Decoders.int, Decoders.ranged_of_lt (Decoders.length_order hlegal hone), hrun] at hstring
  exact traps_of_run (serializeString_stores bufferSize) hstream hstring

theorem PayloadRead.returned {consumed length : Nat} {bits : List Bool}
    {outcome : Outcome Error (ReadStream × Text) Unit}
    (h : PayloadRead stream consumed length bits prior outcome) : outcome.Returned := by
  unfold PayloadRead at h
  dsimp only at h
  split at h
  · exact h.returned
  split at h
  · exact h.returned
  split at h
  · exact h.returned
  split at h
  · exact h.returned
  · obtain ⟨text, -, haccepts⟩ := h
    exact haccepts.returned

theorem StringRead.returned {outcome : Outcome Error (ReadStream × Text) Unit}
    (h : StringRead stream bufferSize prior outcome) : outcome.Returned := by
  unfold StringRead at h
  dsimp only at h
  split at h
  · exact h.returned
  split at h
  · exact h.returned
  split at h
  · exact h.returned
  · exact h.returned

/-- **A string read refuses in the stated order and accepts exactly the format's strings**, where its
length field does not ask past 64 bits. -/
theorem string_read_iff [Arithmetic] (hreachable : stream.Reachable) (hlive : stream.failure = none)
    (bufferSize : Nat) (build : Build) (prior : Text) :
    StringRead stream bufferSize prior (serializeString bufferSize build (stream, prior))
      ↔ (1 ≤ bufferSize ∧ bufferSize ≤ i32Max →
        stream.cursor.stop (Nat.size (bufferSize - 1)) < 2 ^ 64) := by
  have hstream := hreachable.valid
  constructor
  · intro hread hlegal
    by_contra hstop
    obtain ⟨p, hcall⟩ := @string_traps stream bufferSize prior build hstream hlegal
      (Nat.not_lt.mp hstop)
    rw [hcall] at hread
    exact hread.returned
  · exact stringRead_of_stop hstream hlive

end Strings

/-- Three bits of length, five of padding, and two bytes that are no text. -/
theorem string_read_two_bytes : StringRead (fresh [0x02, 0x41, 0xC3] 3) 8 ⟨[], rfl⟩
    (serializeString 8 .checked (fresh [0x02, 0x41, 0xC3] 3, ⟨[], rfl⟩)) :=
  have hreachable : (fresh [0x02, 0x41, 0xC3] 3).Reachable := reachable_fresh (by decide)
  (string_read_iff hreachable rfl 8 .checked ⟨[], rfl⟩).mpr fun _ => by decide

/-- At the end of the largest packet a length of eight bits is past 64 bits. -/
theorem string_read_not_ordered :
    ¬∀ stream : ReadStream, stream.Reachable → stream.failure = none →
      ∀ (bufferSize : Nat) (build : Build) (prior : Text),
        StringRead stream bufferSize prior (serializeString bufferSize build (stream, prior)) := by
  intro hall
  obtain ⟨stream, hreachable, hcursor⟩ := reachable_largest (le_refl (2 ^ 61 - 1))
  have hlive : stream.cursor.Live := by rw [hcursor]; rfl
  have hread := hall stream hreachable hlive 256 .checked ⟨[], rfl⟩
  have hstop : 2 ^ 64 ≤ stream.cursor.stop (Nat.size (256 - 1)) := by
    rw [hcursor]
    decide
  obtain ⟨p, hcall⟩ := @string_traps stream 256 ⟨[], rfl⟩ .checked hreachable.valid (by decide) hstop
  rw [hcall] at hread
  exact hread.returned

end Serialize
