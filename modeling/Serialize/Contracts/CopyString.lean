import Serialize.Float.Binary32
import Serialize.Model.Agreement
import Serialize.Model.CopyString
import Serialize.Reader.Flushed
import Serialize.Writer.Reachable

/-!
# Copied strings

What is copied is the longest text a field can carry, found from its end by looking at one byte at a
time, and the string operation with the same size takes it and gives it back.
-/

namespace Serialize

open Machine BitString Decode
open Binary32 (Arithmetic)
open Utf8 (Text isCharBoundary isContinuation isCharBoundary_iff)

/-- Keep a number of bytes, then drop bytes from the end while the first byte left out is a
continuation byte. -/
def backOff (bytes : List U8) : Nat → List U8
  | 0 => []
  | kept + 1 => match bytes[kept + 1]? with
    | some leftOut => if isContinuation leftOut then backOff bytes kept else bytes.take (kept + 1)
    | none => bytes.take (kept + 1)

/-- The longest text a field of `bufferSize` can carry of a source. -/
structure LongestCopy (source : Text) (bufferSize : Nat) (copy : Text) : Prop where
  isPrefix : copy.bytes <+: source.beforeNul.bytes
  fits : copy.bytes.length ≤ bufferSize - 1
  boundary : source.beforeNul.Boundary copy.bytes.length
  longest : ∀ index, index ≤ bufferSize - 1 → source.beforeNul.Boundary index →
    index ≤ copy.bytes.length

/-! ### The loop -/

/-- The last boundary up to a place. -/
structure LastBoundary (source : Text) (stop last : Nat) : Prop where
  le : last ≤ stop
  boundary : isCharBoundary source.bytes last = true
  last : ∀ index, index ≤ stop → isCharBoundary source.bytes index = true → index ≤ last

section Loop

variable {σ : Type} {source : Text} {stop last : Nat}

theorem LastBoundary.here (h : isCharBoundary source.bytes stop = true) :
    LastBoundary source stop stop :=
  ⟨le_refl _, h, fun _ hindex _ => hindex⟩

theorem LastBoundary.back (hlast : LastBoundary source stop last)
    (h : ¬isCharBoundary source.bytes (stop + 1) = true) : LastBoundary source (stop + 1) last := by
  refine ⟨Nat.le_succ_of_le hlast.le, hlast.boundary, fun index hindex hboundary => ?_⟩
  rcases Nat.le_succ_iff.mp hindex with hindex | rfl
  · exact hlast.last index hindex hboundary
  · exact absurd hboundary h

theorem LastBoundary.eq_here (hlast : LastBoundary source stop last)
    (h : isCharBoundary source.bytes stop = true) : last = stop :=
  Nat.le_antisymm hlast.le (hlast.last stop (le_refl _) h)

theorem LastBoundary.before (hlast : LastBoundary source (stop + 1) last)
    (h : ¬isCharBoundary source.bytes (stop + 1) = true) : LastBoundary source stop last := by
  refine ⟨?_, hlast.boundary, fun index hindex => hlast.last index (Nat.le_succ_of_le hindex)⟩
  have hne : last ≠ stop + 1 := by
    rintro rfl
    exact h hlast.boundary
  exact Nat.le_of_lt_succ (Nat.lt_of_le_of_ne hlast.le hne)

/-- The loop ends at the last boundary, and never steps back from the first byte. -/
theorem exists_backToBoundary (source : Text) (stop : Nat) : ∃ last, LastBoundary source stop last
    ∧ ∀ (profile : Profile) (state : σ), backToBoundary source stop profile state = .ok last state := by
  induction stop with
  | zero =>
      refine ⟨0, .here rfl, fun profile state => ?_⟩
      rw [backToBoundary, bind_apply, require_of (Utf8.isCharBoundary_zero _)]
      rfl
  | succ stop ih =>
      by_cases h : isCharBoundary source.bytes (stop + 1) = true
      · refine ⟨stop + 1, .here h, fun profile state => ?_⟩
        rw [backToBoundary, if_pos h]
        rfl
      · obtain ⟨last, hlast, hrun⟩ := ih
        refine ⟨last, hlast.back h, fun profile state => ?_⟩
        rw [backToBoundary, if_neg h]
        exact hrun profile state

theorem sliceTo_eq (h : isCharBoundary source.bytes stop = true) (profile : Profile) (state : σ) :
    sliceTo source stop profile state = .ok (source.upTo stop h) state := dif_pos h

theorem backOff_eq (hstop : stop ≤ source.bytes.length) (hlast : LastBoundary source stop last) :
    backOff source.bytes stop = source.bytes.take last := by
  induction stop generalizing last with
  | zero =>
      rw [Nat.le_zero.mp hlast.le]
      rfl
  | succ stop ih =>
      rw [backOff]
      rcases Nat.lt_or_eq_of_le hstop with hinside | hend
      · have htest := Utf8.isCharBoundary_of_lt (Nat.succ_pos stop) hinside
        rw [List.getElem?_eq_getElem hinside]
        dsimp only
        split
        · next hcontinuation =>
            rw [hcontinuation, Bool.not_true] at htest
            exact ih (Nat.le_of_succ_le hstop) (hlast.before (by rw [htest]; exact Bool.false_ne_true))
        · next hstart =>
            rw [Bool.not_eq_true] at hstart
            rw [hstart, Bool.not_false] at htest
            rw [hlast.eq_here htest]
      · have hboundary : isCharBoundary source.bytes (stop + 1) = true := by
          rw [hend]
          exact Utf8.isCharBoundary_length _
        rw [List.getElem?_eq_none (Nat.le_of_eq hend.symm), hlast.eq_here hboundary]

theorem backOff_of_length_le {bytes : List U8} {kept : Nat} (h : bytes.length ≤ kept) :
    backOff bytes kept = bytes := by
  match kept, h with
  | 0, h => rw [List.eq_nil_of_length_eq_zero (Nat.le_zero.mp h), backOff]
  | kept + 1, h =>
      rw [backOff, List.getElem?_eq_none h]
      exact List.take_of_length_le h

theorem backOff_min (bytes : List U8) (kept : Nat) :
    backOff bytes (min bytes.length kept) = backOff bytes kept := by
  rcases Nat.le_total bytes.length kept with h | h
  · rw [Nat.min_eq_left h, backOff_of_length_le h, backOff_of_length_le (le_refl _)]
  · rw [Nat.min_eq_right h]

end Loop

/-! ### The copy -/

section Copy

variable {source : Text} {bufferSize : Nat}

/-- The copy ends at the last boundary the field has room for, whatever was there before. -/
theorem serializeCopyString_eq (hsize : 1 ≤ bufferSize) : ∃ stop copy,
    LastBoundary source.beforeNul (min source.beforeNul.bytes.length (bufferSize - 1)) stop
      ∧ copy.bytes = source.beforeNul.bytes.take stop
      ∧ ∀ profile dest, serializeCopyString source bufferSize profile dest = .ok () copy := by
  obtain ⟨stop, hlast, hrun⟩ := exists_backToBoundary (σ := Text) source.beforeNul
    (min source.beforeNul.bytes.length (bufferSize - 1))
  refine ⟨stop, source.beforeNul.upTo stop hlast.boundary, hlast, rfl, fun profile dest => ?_⟩
  rw [serializeCopyString, bind_apply, debugAssert_of hsize, Outcome.bind_ok, bind_apply,
    setState_apply, Outcome.bind_ok, bind_apply, hrun, Outcome.bind_ok,
    bind_apply, sliceTo_eq hlast.boundary, Outcome.bind_ok, modifyState_apply, Text.empty_append]

theorem longestCopy_of_lastBoundary {stop : Nat} {copy : Text}
    (hlast : LastBoundary source.beforeNul (min source.beforeNul.bytes.length (bufferSize - 1)) stop)
    (hcopy : copy.bytes = source.beforeNul.bytes.take stop) :
    LongestCopy source bufferSize copy := by
  have hinside : stop ≤ source.beforeNul.bytes.length :=
    Utf8.le_length_of_isCharBoundary hlast.boundary
  have hlength : copy.bytes.length = stop := by rw [hcopy, List.length_take_of_le hinside]
  refine ⟨?_, ?_, ?_, ?_⟩
  · rw [hcopy]
    exact List.take_prefix ..
  · rw [hlength]
    exact hlast.le.trans (Nat.min_le_right ..)
  · rw [hlength]
    exact (isCharBoundary_iff ..).mp hlast.boundary
  · intro index hindex hboundary
    have htest := (isCharBoundary_iff ..).mpr hboundary
    rw [hlength]
    exact hlast.last index (Nat.le_min.mpr ⟨Utf8.le_length_of_isCharBoundary htest, hindex⟩) htest

theorem LongestCopy.inDomain {copy : Text} (h : LongestCopy source bufferSize copy)
    (hsize : 1 ≤ bufferSize) : copy.bytes.length < bufferSize ∧ 0 ∉ copy.bytes := by
  have hfits := h.fits
  exact ⟨by omega, fun hzero => source.zero_notMem_beforeNul (h.isPrefix.subset hzero)⟩

end Copy

/-! ### Written and read back -/

/-- With room for it, the string operation writes the text from where the stream stands, and on the
packet flushed then, whatever lies behind it, gives it back to a reader that stands at that place. -/
def Carries [Arithmetic] (bufferSize : Nat) (text : Text) : Prop :=
  ∀ {buffer : List U8} {stream : WriteStream}, WriteStream.Reachable buffer stream →
    bitsProcessed stream
      + (stringCode byteBoundary bufferSize (bitsProcessed stream) text.bytes).length
      ≤ buffer.length * 8 →
    ∀ profile : Profile, ∃ written flushed,
      serializeString bufferSize profile (stream, text) = .ok () (written, text)
      ∧ WriteStream.flush profile written = .ok () flushed
      ∧ ∀ (reader : ReadStream) (slack : List U8) (profile' : Profile) (prior : Text), reader.Reachable →
        reader.failure = none → reader.reader.data = flushed.data ++ slack →
        reader.reader.numBits = 8 * flushed.bytesProcessed →
        bitsProcessed reader = bitsProcessed stream →
        ∃ final, serializeString bufferSize profile' (reader, prior) = .ok () (final, text)
          ∧ bitsProcessed final = bitsProcessed written

theorem carries_of_inDomain [Arithmetic] {bufferSize : Nat} {text : Text}
    (hsize : 1 ≤ bufferSize ∧ bufferSize ≤ i32Max)
    (hdomain : text.bytes.length < bufferSize ∧ 0 ∉ text.bytes) : Carries bufferSize text := by
  intro buffer stream hreachable hroom profile
  obtain ⟨hbuffer, bits, hbits, rfl⟩ := hreachable.holds
  have hroom : bits.length + (stringCode byteBoundary bufferSize bits.length text.bytes).length
      ≤ buffer.length * 8 := hroom
  set code := stringCode byteBoundary bufferSize bits.length text.bytes with hcode
  have hfits : (bits ++ code).length ≤ buffer.length * 8 := by
    rw [List.length_append]
    exact hroom
  have hwritten := WriteStream.serializeString_ok hbuffer hsize hdomain .checked hroom
  refine ⟨_, _, (StreamAgrees.serializeString bufferSize).of_checked hwritten profile,
    WriteStream.flush_holding hbuffer profile hfits, ?_⟩
  intro reader slack profile' prior hreader hlive hdata hnumBits hposition
  have hstart : reader.cursor.position = bits.length := hposition
  have hfollows : reader.Follows (WriteStream.flushed buffer (bits ++ code)) bits.length :=
    ⟨hreader, hlive, ⟨slack, hdata⟩, hnumBits, hposition⟩
  have hiff := @ReadStream.accepts_iff_code Text (serializeString bufferSize) _ reader text prior
    code.length .checked (serializeString_stores bufferSize) _ _
    (Decoders.string_codes bufferSize) hreader.valid hlive
  rw [hstart] at hiff
  obtain ⟨final, hcall, hend, -⟩ := hiff.mpr ⟨⟨hsize, hdomain⟩, hfollows.ahead, rfl⟩
  refine ⟨final, (StreamAgrees.serializeString bufferSize).of_checked hcall profile', ?_⟩
  rw [hend, hposition]
  exact List.length_append.symm

/-- **The copy is the longest text the field can carry.** It does not depend on what was copied over,
backing off from the end byte by byte finds it, and the field carries it. -/
theorem copy_string_longest [Arithmetic] (source : Text) {bufferSize : Nat}
    (hsize : 1 ≤ bufferSize ∧ bufferSize ≤ i32Max) : ∃ copy : Text,
      (∀ profile dest, serializeCopyString source bufferSize profile dest = .ok () copy)
        ∧ LongestCopy source bufferSize copy
        ∧ copy.bytes = backOff source.beforeNul.bytes (bufferSize - 1)
        ∧ Carries bufferSize copy := by
  obtain ⟨stop, copy, hlast, hcopy, hrun⟩ := @serializeCopyString_eq source bufferSize hsize.1
  have hlongest := longestCopy_of_lastBoundary hlast hcopy
  refine ⟨copy, hrun, hlongest, ?_, carries_of_inDomain hsize (hlongest.inDomain hsize.1)⟩
  rw [hcopy, ← backOff_min, backOff_eq (Nat.min_le_left ..) hlast]

/-- Two characters of two bytes, and a field for three bytes. -/
theorem copy_string_longest_split : ∃ copy : Text,
    (∀ profile dest, serializeCopyString ⟨[0xC3, 0xA9, 0xC3, 0xA9], rfl⟩ 4 profile dest = .ok () copy)
      ∧ LongestCopy ⟨[0xC3, 0xA9, 0xC3, 0xA9], rfl⟩ 4 copy
      ∧ copy.bytes = backOff (Text.beforeNul ⟨[0xC3, 0xA9, 0xC3, 0xA9], rfl⟩).bytes (4 - 1)
      ∧ Carries 4 copy :=
  copy_string_longest ⟨[0xC3, 0xA9, 0xC3, 0xA9], rfl⟩ (by decide)

example (profile : Profile) (dest : Text) :
    serializeCopyString ⟨[0x61, 0xF0, 0x9F, 0x98, 0x80], rfl⟩ 5 profile dest
      = .ok () ⟨[0x61], rfl⟩ := by
  cases profile with
  | trapping build => cases build <;> rfl
  | wrapping => rfl

end Serialize
