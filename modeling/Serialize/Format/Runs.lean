import Serialize.Format.Codes

/-!
# Decoders over a cursor

How the decoders of a declaration, an alignment, a ranged integer and a string end, case by case, from
a cursor at any place: by what was declared, by what is left of the bit string, and by what it spells.
-/

namespace Serialize

open Machine BitString Decode Wrapping
open Decode.Decoder (run_bind run_field run_locate run_refuse run_accept bind_eq accept_bind)
open Utf8 (Text fromUtf8 wellFormed)

namespace Decoders

variable {α : Type} {c : Cursor Error}

/-! ### Steps -/

theorem position_lt (hlimit : c.limit < 2 ^ 64) : c.position < 2 ^ 64 := by
  rw [Cursor.limit] at hlimit
  omega

theorem refuseWith_run (hlimit : c.limit < 2 ^ 64) (error : Error) :
    (refuseWith error : Decoder Error α).run c = c.latch error := by
  have hfits : ¬c.Overflows 0 := Nat.not_le.mpr (position_lt hlimit)
  rw [refuseWith, run_refuse, if_neg hfits]

theorem boundary_le_remaining (hwhole : c.limit % 8 = 0) :
    byteBoundary c.position ≤ c.remaining.length := by
  rw [Cursor.limit] at hwhole
  rw [byteBoundary]
  omega

theorem toNat_byteBoundary (position : Nat) :
    (BitVec.ofNat 32 (byteBoundary position)).toNat = byteBoundary position := by
  rw [BitVec.toNat_ofNat, byteBoundary]
  omega

theorem boundary_fits (hlimit : c.limit < 2 ^ 64) (hwhole : c.limit % 8 = 0) :
    ¬c.Overflows (BitVec.ofNat 32 (byteBoundary c.position)) := by
  have hle := boundary_le_remaining hwhole
  rw [Cursor.limit] at hlimit
  rw [Cursor.Overflows, toNat_byteBoundary, Nat.not_le]
  omega

theorem limit_advance {n : Nat} (hlimit : c.limit < 2 ^ 64) (hle : n ≤ c.remaining.length) :
    (c.advance n).limit < 2 ^ 64 := by
  rw [(Cursor.reaches_advance hle).limit_eq]
  exact hlimit

/-- Alignment inside the packet: the padding is consumed, and refused if a bit of it is set. -/
theorem align_run (hlive : c.Live) (hlimit : c.limit < 2 ^ 64) (hwhole : c.limit % 8 = 0) :
    align.run c = if ofBits (c.remaining.take (byteBoundary c.position)) = 0 then
        .ok () (c.advance (byteBoundary c.position))
      else (c.advance (byteBoundary c.position)).latch .nonzeroPadding := by
  have hle := boundary_le_remaining hwhole
  rw [align, run_locate, run_field, if_neg (boundary_fits hlimit hwhole), toNat_byteBoundary,
    Cursor.consume_of_le hlive hle]
  split
  · rfl
  · exact refuseWith_run (limit_advance hlimit hle) _

/-! ### Offsets -/

section Spanned

variable {w n : Nat} {offset : Decoder Error (BitVec w)} {span : BitVec w} {f : BitVec w → α}
  (hoffset : offset.Grouped n (BitVec.ofNat w))
include hoffset

theorem spanned_run_past (hn : n ≤ w) (hlive : c.Live) (hlimit : c.limit < 2 ^ 64)
    (hle : n ≤ c.remaining.length) (hpast : span.toNat < ofBits (c.remaining.take n)) :
    (spanned offset span f).run c
      = .err .valueOutOfRange { c.advance n with failed := some .valueOutOfRange } := by
  have hlt := (ofBits_take_lt hle).trans_le (two_pow_le_of_le hn)
  have hlive' : (c.advance n).Live := hlive
  have hpast' : span < BitVec.ofNat w (ofBits (c.remaining.take n)) := by
    rw [BitVec.lt_def, BitVec.toNat_ofNat, Nat.mod_eq_of_lt hlt]
    exact hpast
  rw [spanned, run_bind, hoffset.run_of_le hlive hlimit hle, Outcome.bind_ok, if_pos hpast',
    refuseWith_run (limit_advance hlimit hle), Cursor.latch_of_live hlive']

theorem spanned_run_value (hn : n ≤ w) (hlive : c.Live) (hlimit : c.limit < 2 ^ 64)
    (hle : n ≤ c.remaining.length) (hvalue : ofBits (c.remaining.take n) ≤ span.toNat) :
    (spanned offset span f).run c
      = .ok (f (BitVec.ofNat w (ofBits (c.remaining.take n)))) (c.advance n) := by
  have hlt := (ofBits_take_lt hle).trans_le (two_pow_le_of_le hn)
  have hvalue' : ¬span < BitVec.ofNat w (ofBits (c.remaining.take n)) := by
    rw [BitVec.lt_def, BitVec.toNat_ofNat, Nat.mod_eq_of_lt hlt]
    exact Nat.not_lt.mpr hvalue
  rw [spanned, run_bind, hoffset.run_of_le hlive hlimit hle, Outcome.bind_ok, if_neg hvalue',
    run_accept]

theorem spanned_run_short (hlive : c.Live) (hlimit : c.limit < 2 ^ 64)
    (hlt : c.remaining.length < n) (hstop : c.stop n < 2 ^ 64) :
    ∃ taken, (spanned offset span f).run c
      = .err .pastEnd { c.advance taken with failed := some .pastEnd } := by
  rw [Cursor.stop_of_lt hlive hlt] at hstop
  rw [spanned, run_bind, hoffset.run_of_lt hlive hlimit hlt, if_neg (Nat.not_le.mpr hstop)]
  exact ⟨_, rfl⟩

theorem spanned_run_failed {reason : Error} (hfailed : c.failed = some reason)
    (hstop : c.stop n < 2 ^ 64) : (spanned offset span f).run c = .err reason c := by
  rw [Cursor.stop_of_failed hfailed] at hstop
  rw [spanned, run_bind, hoffset.run_of_failed hfailed, if_neg (Nat.not_le.mpr hstop)]
  rfl

theorem spanned_run_trap (hlimit : c.limit < 2 ^ 64) (hstop : 2 ^ 64 ≤ c.stop n) :
    ∃ c', (spanned offset span f).run c = .trap c' := by
  obtain ⟨c', hrun⟩ := hoffset.run_eq_trap hlimit hstop
  rw [spanned, run_bind, hrun]
  exact ⟨c', rfl⟩

/-- A value out of range is known only once the whole offset is. -/
theorem position_of_spanned_run_err (hn : n ≤ w) (hlive : c.Live) (hlimit : c.limit < 2 ^ 64)
    {c' : Cursor Error} (hrun : (spanned offset span f).run c = .err .valueOutOfRange c') :
    c'.position = c.position + n := by
  by_cases hle : n ≤ c.remaining.length
  · by_cases hpast : span.toNat < ofBits (c.remaining.take n)
    · rw [spanned_run_past hoffset hn hlive hlimit hle hpast] at hrun
      cases hrun
      rfl
    · rw [spanned_run_value hoffset hn hlive hlimit hle (Nat.not_lt.mp hpast)] at hrun
      cases hrun
  · by_cases hstop : c.stop n < 2 ^ 64
    · obtain ⟨taken, hshort⟩ :=
        @spanned_run_short _ c w n offset span f hoffset hlive hlimit (Nat.not_le.mp hle) hstop
      rw [hshort] at hrun
      cases hrun
    · obtain ⟨c'', htrap⟩ :=
        @spanned_run_trap _ c w n offset span f hoffset hlimit (Nat.not_lt.mp hstop)
      rw [htrap] at hrun
      cases hrun

end Spanned

theorem spanned_map {β : Type} {w : Nat} (offset : Decoder Error (BitVec w)) (span : BitVec w)
    (f : BitVec w → α) (g : α → β) :
    (spanned offset span f).bind (fun value => .accept (g value))
      = spanned offset span fun value => g (f value) := by
  rw [spanned, spanned, Decoder.bind_assoc]
  congr 1
  funext value
  split
  · rfl
  · rfl

/-! ### Ranged integers -/

section Ranged

variable {w : Nat} {offset : Decoder Error (BitVec w)} {min max : BitVec w}

theorem ranged_run_inverted (hlimit : c.limit < 2 ^ 64) (h : max.toInt < min.toInt) :
    (ranged offset min max).run c = c.latch .valueOutOfRange := by
  have hsle : ¬min.sle max = true := by
    rw [BitVec.sle_iff_toInt_le]
    exact not_le.mpr h
  rw [ranged, bind_eq, declare_bind_refused hsle, refuseWith_run hlimit]

theorem ranged_run_single : (ranged offset min min).run c = c.consume 0 fun _ c' => .ok min c' := by
  have hsle : min.sle min = true := BitVec.sle_iff_toInt_le.mpr (le_refl _)
  rw [ranged, bind_eq, declare_bind_run hsle, if_pos rfl]
  rfl

theorem ranged_of_lt (h : min.toInt < max.toInt) :
    ranged offset min max = spanned offset (max - min) fun value => value + min := by
  have hsle : min.sle max = true := BitVec.sle_iff_toInt_le.mpr h.le
  have hne : min ≠ max := fun heq => h.ne (congrArg BitVec.toInt heq)
  rw [ranged, bind_eq, declare_bind_run hsle, if_neg hne]
  rfl

theorem toInt_offset_add (hw : 0 < w) (h : min.toInt ≤ max.toInt) {x : Nat}
    (hx : x ≤ (max - min).toNat) : (BitVec.ofNat w x + min).toInt = min.toInt + x := by
  have hlt : x < 2 ^ w := hx.trans_lt (max - min).isLt
  have hoffset : (BitVec.ofNat w x).toNat = x := by
    rw [BitVec.toNat_ofNat, Nat.mod_eq_of_lt hlt]
  have hsub : BitVec.ofNat w x + min - min = BitVec.ofNat w x := BitVec.add_sub_cancel _ _
  have hrange := (offset_le_iff hw h (BitVec.ofNat w x + min)).mp (by rwa [hsub, hoffset])
  have hvalue := toNat_sub hrange.1
  rw [hsub, hoffset] at hvalue
  omega

end Ranged

/-! ### Fixed point -/

section Fixed

variable {T : FixedPointStorage} {integerBits fractionBits : U32} {minUnits maxUnits : I64}

theorem fixed_offset (h : Operation.FixedLegal T integerBits fractionBits minUnits maxUnits)
    (hne : minUnits ≠ maxUnits) :
    (offset128 (bitLength ((maxUnits.signExtend 128 - minUnits.signExtend 128)
        <<< fractionBits.toNat : U128))).Grouped
      (Nat.size (Operation.rawBound maxUnits fractionBits
        - Operation.rawBound minUnits fractionBits).toNat) (BitVec.ofNat 128) := by
  rw [← toNat_bitLength_rawRange h.minRaw_le h.le_maxRaw h.order]
  exact offset128_grouped (rawRange_bounds h.minRaw_le h.le_maxRaw h.order hne)

variable {min max : I128}

theorem rawMin_of_toInt (hmin : min.toInt = Operation.rawBound minUnits fractionBits) :
    minUnits.signExtend 128 <<< fractionBits.toNat = min := by
  rw [rawMin_eq, ← hmin, BitVec.ofInt_toInt]

theorem rawRange_of_toInt (hmin : min.toInt = Operation.rawBound minUnits fractionBits)
    (hmax : max.toInt = Operation.rawBound maxUnits fractionBits) :
    (maxUnits.signExtend 128 - minUnits.signExtend 128) <<< fractionBits.toNat = max - min := by
  rw [rawRange_eq, ← hmin, ← hmax, ← sub_eq_ofInt]

theorem units_eq_iff (hmin : min.toInt = Operation.rawBound minUnits fractionBits)
    (hmax : max.toInt = Operation.rawBound maxUnits fractionBits) :
    minUnits = maxUnits ↔ min = max := by
  constructor
  · rintro rfl
    exact BitVec.eq_of_toInt_eq (hmin.trans hmax.symm)
  · rintro rfl
    apply BitVec.eq_of_toInt_eq
    have hpos : (2 : Int) ^ fractionBits.toNat ≠ 0 := by positivity
    exact mul_right_cancel₀ hpos (hmin.symm.trans hmax)

theorem bitsRequired128_zero (x : U128) : bitsRequired128 0 x = bitLength x := by
  apply BitVec.eq_of_toNat_eq
  rw [toNat_bitsRequired128, toNat_bitLength (by decide), sub_zero]

/-- **Fixed point is a ranged integer** over the raw bounds, narrowed to its storage. -/
theorem fixed_eq_int128 (h : Operation.FixedLegal T integerBits fractionBits minUnits maxUnits)
    (hmin : min.toInt = Operation.rawBound minUnits fractionBits)
    (hmax : max.toInt = Operation.rawBound maxUnits fractionBits) :
    fixed T integerBits fractionBits minUnits maxUnits
      = int128 min max >>= fun raw => pure (T.fromUnsigned raw) := by
  have horder : min.toInt ≤ max.toInt := by
    rw [hmin, hmax]
    exact rawBound_le_rawBound fractionBits h.order
  rw [fixed_of_legal h, rawMin_of_toInt hmin, rawRange_of_toInt hmin hmax, int128, bind_eq]
  by_cases heq : minUnits = maxUnits
  · obtain rfl := (units_eq_iff hmin hmax).mp heq
    have hsle : min.sle min = true := BitVec.sle_iff_toInt_le.mpr (le_refl _)
    rw [if_pos heq, ranged, bind_eq, declare_bind_run hsle, if_pos rfl]
    rfl
  · have hlt : min.toInt < max.toInt :=
      lt_of_le_of_ne horder fun hint => heq ((units_eq_iff hmin hmax).mpr (BitVec.eq_of_toInt_eq hint))
    rw [if_neg heq, ranged_of_lt hlt, bitsRequired128_zero]
    simp only [Decoder.pure_eq, spanned_map, BitVec.add_comm min]

end Fixed

/-! ### The length of a string -/

section Length

variable {bufferSize : Nat}

theorem toNat_span (h : 1 ≤ bufferSize ∧ bufferSize ≤ i32Max) :
    (BitVec.ofNat 32 bufferSize - 1 - 0 : I32).toNat = bufferSize - 1 := by
  have hmax := h.2
  simp only [i32Max] at hmax
  rw [sub_zero, BitVec.toNat_sub, BitVec.toNat_ofNat, show (1 : I32).toNat = 1 from rfl,
    Nat.mod_eq_of_lt (by omega : bufferSize < 2 ^ 32)]
  omega

theorem length_order (h : 1 ≤ bufferSize ∧ bufferSize ≤ i32Max) (hone : bufferSize ≠ 1) :
    (0 : I32).toInt < (BitVec.ofNat 32 bufferSize - 1 : I32).toInt := by
  rw [largest_toInt h, show (0 : I32).toInt = 0 from rfl]
  omega

theorem length_offset (h : 1 ≤ bufferSize ∧ bufferSize ≤ i32Max) (hone : bufferSize ≠ 1) :
    (group (bitsRequired 0 (BitVec.ofNat 32 bufferSize - 1 - 0))).Grouped (Nat.size (bufferSize - 1))
      (BitVec.ofNat 32) := by
  have hne : (0 : I32) ≠ BitVec.ofNat 32 bufferSize - 1 := fun heq =>
    (length_order h hone).ne (congrArg BitVec.toInt heq)
  have hgrouped := int_offset hne
  rwa [toNat_span h] at hgrouped

theorem size_le_32 (h : bufferSize ≤ i32Max) : Nat.size (bufferSize - 1) ≤ 32 := by
  simp only [i32Max] at h
  exact Nat.size_le.mpr (by omega)

theorem size_pos_ne_one {n : Nat} (h : n < Nat.size (bufferSize - 1)) : bufferSize ≠ 1 := by
  rintro rfl
  simp at h

theorem length_run_short (h : 1 ≤ bufferSize ∧ bufferSize ≤ i32Max) (hlive : c.Live)
    (hlimit : c.limit < 2 ^ 64) (hlt : c.remaining.length < Nat.size (bufferSize - 1))
    (hstop : c.stop (Nat.size (bufferSize - 1)) < 2 ^ 64) :
    ∃ taken, (int 0 (BitVec.ofNat 32 bufferSize - 1)).run c
      = .err .pastEnd { c.advance taken with failed := some .pastEnd } := by
  have hone := size_pos_ne_one hlt
  rw [int, ranged_of_lt (length_order h hone)]
  exact spanned_run_short (length_offset h hone) hlive hlimit hlt hstop

theorem length_run_past (h : 1 ≤ bufferSize ∧ bufferSize ≤ i32Max) (hlive : c.Live)
    (hlimit : c.limit < 2 ^ 64) (hle : Nat.size (bufferSize - 1) ≤ c.remaining.length)
    (hpast : bufferSize - 1 < ofBits (c.remaining.take (Nat.size (bufferSize - 1)))) :
    (int 0 (BitVec.ofNat 32 bufferSize - 1)).run c = .err .valueOutOfRange
      { c.advance (Nat.size (bufferSize - 1)) with failed := some .valueOutOfRange } := by
  have hone : bufferSize ≠ 1 := by
    rintro rfl
    simp at hpast
  rw [int, ranged_of_lt (length_order h hone)]
  apply spanned_run_past (length_offset h hone) (size_le_32 h.2) hlive hlimit hle
  rwa [toNat_span h]

theorem length_run_value (h : 1 ≤ bufferSize ∧ bufferSize ≤ i32Max) (hlive : c.Live)
    (hlimit : c.limit < 2 ^ 64) (hle : Nat.size (bufferSize - 1) ≤ c.remaining.length)
    (hvalue : ofBits (c.remaining.take (Nat.size (bufferSize - 1))) ≤ bufferSize - 1) :
    (int 0 (BitVec.ofNat 32 bufferSize - 1)).run c
      = .ok (BitVec.ofNat 32 (ofBits (c.remaining.take (Nat.size (bufferSize - 1)))))
        (c.advance (Nat.size (bufferSize - 1))) := by
  by_cases hone : bufferSize = 1
  · subst hone
    exact ranged_run_single.trans (Cursor.consume_of_le hlive (Nat.zero_le _))
  · rw [int, ranged_of_lt (length_order h hone),
      spanned_run_value (length_offset h hone) (size_le_32 h.2) hlive hlimit hle, add_zero]
    rwa [toNat_span h]

theorem length_widened (h : bufferSize ≤ i32Max) {length : Nat} (hle : length ≤ bufferSize - 1) :
    ((BitVec.ofNat 32 length : I32).signExtend 64).toNat = length := by
  simp only [i32Max] at h
  have hint := toInt_ofNat_i32 (n := length) (by omega)
  rw [toNat_signExtend (by omega), hint, Int.toNat_natCast]

end Length

/-! ### The payload of a string -/

theorem octets_run_short {count : Nat} (hlive : c.Live) (h : c.remaining.length / 8 < count) :
    (octets count).run c = .err .pastEnd { c with failed := some .pastEnd } :=
  Cursor.consume_of_short hlive (by omega)

theorem octets_run {count : Nat} (hlive : c.Live) (h : count ≤ c.remaining.length / 8) :
    ∃ payload : List.Vector U8 count, payload.toList = octetsOfBits count c.remaining
      ∧ (octets count).run c = .ok payload (c.advance (8 * count)) := by
  let payload : List.Vector U8 count :=
    ⟨octetsOfBits count (c.remaining.take (8 * count)), length_octetsOfBits count _⟩
  have hpayload : payload.toList = octetsOfBits count c.remaining :=
    octetsOfBits_take count c.remaining
  exact ⟨payload, hpayload, Cursor.consume_of_le hlive (by omega)⟩

theorem text_run_nul {payload : List U8} (hlimit : c.limit < 2 ^ 64) (h : 0 ∈ payload) :
    (text payload).run c = c.latch .embeddedNul := by
  rw [text, if_pos (List.contains_iff_mem.mpr h), refuseWith_run hlimit]

theorem text_run_ill {payload : List U8} (hlimit : c.limit < 2 ^ 64) (hnul : 0 ∉ payload)
    (h : ¬wellFormed payload = true) : (text payload).run c = c.latch .invalidUtf8 := by
  rw [text, if_neg (mt List.contains_iff_mem.mp hnul), fromUtf8, dif_neg h]
  exact refuseWith_run hlimit _

theorem text_run_value {payload : List U8} (hnul : 0 ∉ payload) (h : wellFormed payload = true) :
    (text payload).run c = .ok ⟨payload, h⟩ c := by
  rw [text, if_neg (mt List.contains_iff_mem.mp hnul), fromUtf8, dif_pos h]
  rfl

end Decoders

end Serialize
