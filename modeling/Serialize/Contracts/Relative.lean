import Serialize.Contracts.Terminal
import Serialize.Format.Relative
import Serialize.Writer.Reachable

/-!
# Relative integer reads

A read of a relative integer accepts exactly the codes the writer emits for its `previous`, which are
prefix-free, and refuses every other bit string for the reason its tier gives, wherever the payload
of that tier ends below 64 bits.
-/

namespace Serialize

open Machine BitString Decode
open Binary32 (Arithmetic)
open ReadStream

/-- The writer's codes for a `previous`. -/
structure RelativeCodes [Arithmetic] (previous : I32) : Prop where
  prefix_free : ∀ current current' : I32, RelativeDomain previous.toInt current.toInt →
    RelativeDomain previous.toInt current'.toInt →
    relativeBits previous.toInt current.toInt <+: relativeBits previous.toInt current'.toInt →
    current = current'
  emitted : ∀ (buffer : List U8) (stream : WriteStream) (build : Build) (current : I32),
    WriteStream.Reachable buffer stream → RelativeDomain previous.toInt current.toInt →
    (relativeBits previous.toInt current.toInt).length ≤ stream.available →
    ∃ bits, stream = WriteStream.holding buffer bits
      ∧ serializeIntRelative previous build (stream, current) = .ok ()
        (WriteStream.holding buffer (bits ++ relativeBits previous.toInt current.toInt), current)

/-- The outcome of a relative read on a live stream, for an outcome `outcome` of handing it a variable
that holds `prior`. -/
structure RelativeRead (stream : ReadStream) (previous prior : I32)
    (outcome : Outcome Error (ReadStream × I32) Unit) : Prop where
  accepted : ∀ (n : Nat) (current : I32), stream.Accepts n current outcome ↔
    RelativeDomain previous.toInt current.toInt
      ∧ relativeBits previous.toInt current.toInt <+: stream.cursor.remaining
      ∧ n = (relativeBits previous.toInt current.toInt).length
  refused : ∀ error, Refuses error prior outcome ↔
    relativeRefusal previous.toInt stream.cursor.remaining = some error
  answered : (∃ n current, stream.Accepts n current outcome) ∨ ∃ error, Refuses error prior outcome

theorem relative_codes_of [Arithmetic] {previous : I32} (hprevious : 0 ≤ previous.toInt) :
    RelativeCodes previous where
  prefix_free current current' hdomain hdomain' hstarts :=
    (Decoders.intRelative_codes previous).prefix_free ⟨hprevious, hdomain⟩ ⟨hprevious, hdomain'⟩ 0
      hstarts
  emitted buffer stream build current hreachable hdomain hroom := by
    obtain ⟨hbuffer, bits, hbits, rfl⟩ := hreachable.holds
    have hfits : bits.length + (relativeBits previous.toInt current.toInt).length
        ≤ buffer.length * 8 := by
      have havailable := WriteStream.available_holding hbits
      omega
    have hemits := @serializeIntRelative_emits _ _ (WriteStream.sink hbuffer).toCoreSink previous current
      hprevious hdomain.1 build bits hbits
    exact ⟨bits, rfl, hemits.1 hfits⟩

section Relative

variable {stream : ReadStream} {previous prior : I32} {build : Build}

theorem limit_succ_lt (h : stream.Valid) : stream.cursor.limit + 1 < 2 ^ 64 := by
  have hwhole := h.whole
  have hlt := h.numBits_lt
  rw [h.limit_cursor]
  omega

theorem relativeRead_of_end (hstream : stream.Valid) (hlive : stream.cursor.Live)
    (hprevious : 0 ≤ previous.toInt) (hend : relativeEnd stream.cursor < 2 ^ 64) :
    RelativeRead stream previous prior (serializeIntRelative previous build (stream, prior)) := by
  have hm := serializeIntRelative_stores previous
  have hsettles := Decoders.intRelative_settles hprevious hlive (limit_succ_lt hstream) hend
  obtain ⟨hrefused, hanswered⟩ := answered_of_settles hm hstream hlive hsettles
  refine ⟨fun n current => ?_, hrefused, hanswered⟩
  rw [accepts_iff_code hm (Decoders.intRelative_codes previous) hstream hlive, and_iff_right hprevious]
  rfl

theorem RelativeRead.returned {outcome : Outcome Error (ReadStream × I32) Unit}
    (h : RelativeRead stream previous prior outcome) : outcome.Returned := by
  obtain ⟨n, current, haccepts⟩ | ⟨error, hrefuses⟩ := h.answered
  · exact haccepts.returned
  · exact hrefuses.returned

/-- **A relative read accepts exactly the writer's codes**, and refuses the rest for the stated
reasons, where the payload ends below 64 bits. -/
theorem relative_read_iff [Arithmetic] (hreachable : stream.Reachable)
    (hlive : stream.failure = none) (hprevious : 0 ≤ previous.toInt) (build : Build) (prior : I32) :
    (RelativeCodes previous
        ∧ RelativeRead stream previous prior (serializeIntRelative previous build (stream, prior)))
      ↔ relativeEnd stream.cursor < 2 ^ 64 := by
  have hstream := hreachable.valid
  constructor
  · rintro ⟨-, hread⟩
    by_contra hend
    obtain ⟨c, hrun⟩ := @Decoders.intRelative_traps _ stream.cursor hprevious hlive
      (limit_succ_lt hstream) (Nat.not_lt.mp hend)
    obtain ⟨p, hcall⟩ := @traps_of_run _ _ _ stream c prior build
      (serializeIntRelative_stores previous) hstream hrun
    rw [hcall] at hread
    exact hread.returned
  · intro hend
    exact ⟨relative_codes_of hprevious, relativeRead_of_end hstream hlive hprevious hend⟩

end Relative

/-- A flag, and behind it the three bits of a difference of four. -/
theorem relative_read_tier_two : RelativeCodes 10
    ∧ RelativeRead (fresh [0x0A] 1) 10 0 (serializeIntRelative 10 .checked (fresh [0x0A] 1, 0)) :=
  have hreachable : (fresh [0x0A] 1).Reachable := reachable_fresh (by decide)
  (relative_read_iff hreachable rfl (by decide) .checked 0).mpr (by decide)

/-- Six clear flags in the last byte of the largest packet, and an absolute payload past 64 bits. -/
theorem relative_read_not_exact :
    ¬∀ (stream : ReadStream) (previous prior : I32) (build : Build), stream.Reachable →
      stream.failure = none → 0 ≤ previous.toInt → RelativeCodes previous
        ∧ RelativeRead stream previous prior (serializeIntRelative previous build (stream, prior)) := by
  intro hall
  obtain ⟨stream, hreachable, hcursor⟩ :=
    @reachable_largest _ (2 ^ 61 - 2) (by decide)
  have hlive : stream.cursor.Live := by rw [hcursor]; rfl
  obtain ⟨-, hread⟩ := hall stream 0 0 .checked hreachable hlive (by decide)
  have hend : 2 ^ 64 ≤ relativeEnd stream.cursor := by
    rw [hcursor]
    decide
  obtain ⟨c, hrun⟩ := @Decoders.intRelative_traps 0 _ (by decide) hlive
    (limit_succ_lt hreachable.valid) hend
  obtain ⟨p, hcall⟩ := @traps_of_run _ _ _ stream c 0 .checked (serializeIntRelative_stores 0)
    hreachable.valid hrun
  rw [hcall] at hread
  exact hread.returned

end Serialize
