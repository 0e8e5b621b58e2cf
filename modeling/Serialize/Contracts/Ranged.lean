import Serialize.Contracts.Terminal
import Serialize.Format.Runs
import Serialize.Reader.Reachable

/-!
# Ranged integer reads

What a read of a ranged integer comes to, in plain integers: by the latch, by its bounds, by how much
of the packet is left, and by the number the next bits spell. The three ranged integers meet this
wherever the groups they ask for end at a 64 bit position.
-/

namespace Serialize

open Machine BitString Decode
open Decode.Decoder
open Binary32 (Arithmetic)
open ReadStream

/-- The width of a ranged integer: the bit length of the difference of its bounds. -/
def rangeWidth {w : Nat} (min max : BitVec w) : Nat := Nat.size (max.toInt - min.toInt).toNat

/-- The outcome of a ranged read on a stream, for an outcome `outcome` of handing it a variable that
holds `prior`. -/
def RangedRead {w : Nat} (stream : ReadStream) (min max prior : BitVec w)
    (outcome : Outcome Error (ReadStream × BitVec w) Unit) : Prop :=
  let width := rangeWidth min max
  let offset := ofBits (stream.cursor.remaining.take width)
  match stream.failure with
  | some reason => stream.RefusesAfter 0 reason prior outcome
  | none =>
      if max.toInt < min.toInt then stream.RefusesAfter 0 .valueOutOfRange prior outcome
      else if min.toInt = max.toInt then stream.Accepts 0 min outcome
      else if stream.cursor.remaining.length < width then Refuses .pastEnd prior outcome
      else if max.toInt - min.toInt < offset then
        stream.RefusesAfter width .valueOutOfRange prior outcome
      else ∃ value : BitVec w, value.toInt = min.toInt + offset ∧ stream.Accepts width value outcome

theorem RangedRead.returned {w : Nat} {stream : ReadStream} {min max prior : BitVec w}
    {outcome : Outcome Error (ReadStream × BitVec w) Unit}
    (h : RangedRead stream min max prior outcome) : outcome.Returned := by
  unfold RangedRead at h
  dsimp only at h
  split at h
  · exact h.returned
  split at h
  · exact h.returned
  split at h
  · exact h.returned
  split at h
  · exact h.returned
  split at h
  · exact h.returned
  · obtain ⟨value, -, haccepts⟩ := h
    exact haccepts.returned

section Ranged

variable {w : Nat} {min max prior : BitVec w} {stream : ReadStream}
  {m : Action (ReadStream × BitVec w) Unit} {offset : Decoder Error (BitVec w)} {build : Build}

theorem rangeWidth_eq (h : min.toInt ≤ max.toInt) :
    rangeWidth min max = Nat.size (max - min).toNat := by
  rw [rangeWidth, Wrapping.toNat_sub h]

theorem rangeWidth_eq_zero (h : max.toInt ≤ min.toInt) : rangeWidth min max = 0 := by
  rw [rangeWidth, Int.toNat_of_nonpos (by omega), Nat.size_zero]

section Groups

variable (hoffset : min ≠ max → offset.Grouped (Nat.size (max - min).toNat) (BitVec.ofNat w))
  (hm : Stores m (Decoders.ranged offset min max)) (hstream : stream.Valid)
include hoffset hm hstream

theorem ranged_echoes {reason : Error} (hfailed : stream.failure = some reason)
    (hstop : stream.cursor.stop (rangeWidth min max) < 2 ^ 64) :
    stream.RefusesAfter 0 reason prior (m build (stream, prior)) := by
  have hfailed' : stream.cursor.failed = some reason := hfailed
  have hrun : (Decoders.ranged offset min max).run stream.cursor = .err reason stream.cursor := by
    rcases lt_trichotomy min.toInt max.toInt with horder | heq | horder
    · have hne : min ≠ max := fun heq => horder.ne (congrArg BitVec.toInt heq)
      rw [rangeWidth_eq horder.le] at hstop
      rw [Decoders.ranged_of_lt horder]
      exact Decoders.spanned_run_failed (hoffset hne) hfailed' hstop
    · obtain rfl := BitVec.eq_of_toInt_eq heq
      rw [Decoders.ranged_run_single, Cursor.consume_of_failed hfailed']
    · rw [Decoders.ranged_run_inverted hstream.limit_lt horder, Cursor.latch_of_failed hfailed']
  exact refusesAfter_of_run hm hstream hrun rfl hfailed'

theorem ranged_traps (hstop : 2 ^ 64 ≤ stream.cursor.stop (rangeWidth min max)) :
    ∃ p, m build (stream, prior) = .trap p := by
  rcases lt_or_ge min.toInt max.toInt with horder | horder
  · have hne : min ≠ max := fun heq => horder.ne (congrArg BitVec.toInt heq)
    rw [rangeWidth_eq horder.le] at hstop
    rw [Decoders.ranged_of_lt horder] at hm
    obtain ⟨c, hrun⟩ := Decoders.spanned_run_trap (hoffset hne) hstream.limit_lt hstop
    exact traps_of_run hm hstream hrun
  · have hposition := Decoders.position_lt hstream.limit_lt
    rw [rangeWidth_eq_zero horder, Cursor.stop_zero] at hstop
    omega

/-- **A ranged read over groups** comes to what it should exactly where it does not ask past 64 bits. -/
theorem ranged_read_iff (hw : 0 < w) : RangedRead stream min max prior (m build (stream, prior))
    ↔ stream.cursor.stop (rangeWidth min max) < 2 ^ 64 := by
  constructor
  · intro hread
    by_contra hstop
    obtain ⟨p, hcall⟩ := ranged_traps hoffset hm hstream (Nat.not_lt.mp hstop)
    rw [hcall] at hread
    exact hread.returned
  intro hstop
  have hlimit := hstream.limit_lt
  unfold RangedRead
  dsimp only
  cases hfailed : stream.failure with
  | some reason => exact ranged_echoes hoffset hm hstream hfailed hstop
  | none =>
    have hlive : stream.cursor.Live := hfailed
    dsimp only
    split
    next horder =>
      exact refusesAfter_of_run hm hstream ((Decoders.ranged_run_inverted hlimit horder).trans
        (Cursor.latch_of_live hlive _)) rfl rfl
    split
    next heq =>
      obtain rfl := BitVec.eq_of_toInt_eq heq
      exact accepts_of_run hm hstream (Decoders.ranged_run_single.trans
        (Cursor.consume_of_le hlive (Nat.zero_le _))) rfl hlive
    next hinverted hne =>
    have horder : min.toInt < max.toInt := by omega
    have hgrouped := hoffset fun heq => hne (congrArg BitVec.toInt heq)
    have hspan := Wrapping.toNat_sub horder.le
    have hwidth : Nat.size (max - min).toNat ≤ w := Decoders.size_sub_zero_le _
    rw [rangeWidth_eq horder.le] at hstop ⊢
    rw [Decoders.ranged_of_lt horder] at hm
    split
    next hshort =>
      obtain ⟨taken, hrun⟩ := Decoders.spanned_run_short hgrouped hlive hlimit hshort hstop
      exact refuses_of_run hm hstream hrun rfl
    next hle =>
    have hle := Nat.not_lt.mp hle
    split
    next hpast =>
      have hpast' : (max - min).toNat
          < ofBits (stream.cursor.remaining.take (Nat.size (max - min).toNat)) := by omega
      exact refusesAfter_of_run hm hstream
        (Decoders.spanned_run_past hgrouped hwidth hlive hlimit hle hpast') rfl rfl
    next hpast =>
      have hinside : ofBits (stream.cursor.remaining.take (Nat.size (max - min).toNat))
          ≤ (max - min).toNat := by omega
      exact ⟨_, Decoders.toInt_offset_add hw horder.le hinside, accepts_of_run hm hstream
        (Decoders.spanned_run_value hgrouped hwidth hlive hlimit hle hinside) rfl hlive⟩

end Groups

end Ranged

/-- **Ranged reads have exactly the specified outcome** where they do not ask past 64 bits. -/
theorem ranged_reads_iff [Arithmetic] {stream : ReadStream} (hreachable : stream.Reachable)
    (build : Build) :
    (∀ min max prior : I32, RangedRead stream min max prior (serializeInt min max build (stream, prior))
        ↔ stream.cursor.stop (rangeWidth min max) < 2 ^ 64)
      ∧ (∀ min max prior : I64,
        RangedRead stream min max prior (serializeInt64 min max build (stream, prior))
          ↔ stream.cursor.stop (rangeWidth min max) < 2 ^ 64)
      ∧ ∀ min max prior : I128,
        RangedRead stream min max prior (serializeInt128 min max build (stream, prior))
          ↔ stream.cursor.stop (rangeWidth min max) < 2 ^ 64 := by
  have hvalid := hreachable.valid
  refine ⟨fun min max prior => ?_, fun min max prior => ?_, fun min max prior => ?_⟩
  · exact ranged_read_iff (fun hne => Decoders.int_offset hne) (serializeInt_stores min max) hvalid
      (by decide)
  · exact ranged_read_iff (fun hne => Decoders.int64_offset hne) (serializeInt64_stores min max)
      hvalid (by decide)
  · exact ranged_read_iff (fun hne => Decoders.int128_offset hne) (serializeInt128_stores min max)
      hvalid (by decide)

/-- Three bits that spell an integer of `[-2, 3]`. -/
theorem ranged_reads_three_bits : RangedRead (fresh [0xFD] 1) (-2 : I32) 3 7
    (serializeInt (-2) 3 .checked (fresh [0xFD] 1, 7)) :=
  have hreachable : (fresh [0xFD] 1).Reachable := reachable_fresh (by decide)
  ((ranged_reads_iff hreachable .checked).1 (-2) 3 7).mpr (by decide)

/-- At the end of the largest packet a byte asked for is past 64 bits. -/
theorem ranged_read_not_specified :
    ¬∀ stream : ReadStream, stream.Reachable → ∀ (build : Build) (min max prior : I32),
      RangedRead stream min max prior (serializeInt min max build (stream, prior)) := by
  intro hall
  obtain ⟨stream, hreachable, hcursor⟩ := reachable_largest (le_refl (2 ^ 61 - 1))
  have hread := hall stream hreachable .checked 0 255 0
  rw [ranged_read_iff (fun hne => Decoders.int_offset hne) (serializeInt_stores 0 255)
    hreachable.valid (by decide), hcursor] at hread
  exact absurd hread (by decide)

end Serialize
