import Serialize.Decode.Grouped
import Serialize.Format.FixedPoint

/-!
# Every exact decoder inverts the reference encoding

The decoder of every operation but the compressed floats accepts exactly the reference encodings of
the values its declaration admits: a legal declaration, a value in its domain, and no second
encoding of it. Groups collapse to one field here, wrapping offsets to differences of integers.
-/

namespace Serialize

open BitString Decode Wrapping
open Decode.Decoder
open Binary32 (Arithmetic)
open Operation (rawBound)
open Utf8 (Text)

/-! ### Groups put back together -/

theorem joinDwords_ofNat {low high : Nat} (hlow : low < 2 ^ 32) (hhigh : high < 2 ^ 32) :
    ((BitVec.ofNat 32 high).setWidth 64 <<< 32 ||| (BitVec.ofNat 32 low).setWidth 64 : U64)
      = BitVec.ofNat 64 (low + 2 ^ 32 * high) := by
  rw [setWidth_ofNat (by decide) hlow, setWidth_ofNat (by decide) hhigh, ofNat_shiftLeft,
    ofNat_or hlow]

theorem joinGroups_ofNat {n0 n1 n2 n3 : Nat} (h0 : n0 < 2 ^ 32) (h1 : n1 < 2 ^ 32)
    (h2 : n2 < 2 ^ 32) (h3 : n3 < 2 ^ 32) :
    joinGroups (BitVec.ofNat 32 n0) (BitVec.ofNat 32 n1) (BitVec.ofNat 32 n2) (BitVec.ofNat 32 n3)
      = BitVec.ofNat 128 (n0 + 2 ^ 32 * n1 + 2 ^ 64 * n2 + 2 ^ 96 * n3) := by
  rw [joinGroups, setWidth_ofNat (by decide) h0, setWidth_ofNat (by decide) h1,
    setWidth_ofNat (by decide) h2, setWidth_ofNat (by decide) h3, ofNat_shiftLeft, ofNat_shiftLeft,
    ofNat_shiftLeft, ofNat_or (by omega : 2 ^ 64 * n2 < 2 ^ 96),
    show 2 ^ 64 * n2 + 2 ^ 96 * n3 = 2 ^ 64 * (n2 + 2 ^ 32 * n3) by ring,
    ofNat_or (by omega : 2 ^ 32 * n1 < 2 ^ 64),
    show 2 ^ 32 * n1 + 2 ^ 64 * (n2 + 2 ^ 32 * n3) = 2 ^ 32 * (n1 + 2 ^ 32 * n2 + 2 ^ 64 * n3) by ring,
    ofNat_or h0]
  congr 1
  ring

namespace Decoders

/-! ### Fields -/

theorem group_grouped {width : U32} (h : 1 ≤ width.toNat ∧ width.toNat ≤ 32) :
    (group width).Grouped width.toNat (BitVec.ofNat 32) := by
  rw [group, if_pos h]
  exact .last h fun _ _ => rfl

theorem group_grouped_32 : (group 32).Grouped 32 (BitVec.ofNat 32) :=
  @group_grouped 32 (by decide)

theorem group_takes {width : U32} (h : 1 ≤ width.toNat ∧ width.toNat ≤ 32) :
    (group width).Takes width.toNat (BitVec.ofNat 32) :=
  (group_grouped h).takes

theorem group_takes_32 : (group 32).Takes 32 (BitVec.ofNat 32) :=
  group_grouped_32.takes

theorem toNat_sub_of_le {width bound : U32} (h : bound ≤ width) :
    (width - bound).toNat = width.toNat - bound.toNat :=
  BitVec.toNat_sub_of_le h

theorem two_pow_le_of_le {m n : Nat} (h : m ≤ n) : 2 ^ m ≤ 2 ^ n :=
  Nat.pow_le_pow_right (by decide) h

theorem dwords_grouped {width : U32} (h : 1 ≤ width.toNat ∧ width.toNat ≤ 64) :
    (dwords width).Grouped width.toNat (BitVec.ofNat 64) := by
  by_cases h32 : width ≤ 32
  · have hle : width.toNat ≤ 32 := h32
    rw [dwords, if_pos h32]
    refine ((group_grouped ⟨h.1, hle⟩).map _).congr fun x hx => ?_
    exact setWidth_ofNat (by decide) (hx.trans_le (two_pow_le_of_le hle))
  · have hlt : 32 < width.toNat := Nat.not_le.mp h32
    have hrest : (width - 32).toNat = width.toNat - 32 := toNat_sub_of_le (Nat.le_of_lt hlt)
    have htotal : 32 + (width - 32).toNat = width.toNat := by omega
    rw [dwords, if_neg h32, ← htotal]
    refine (Grouped.bind group_grouped_32 (by omega) fun low _ =>
      (group_grouped (by omega)).map _).congr fun x hx => ?_
    have hpow := two_pow_le_of_le (show 32 + (width - 32).toNat ≤ 64 by omega)
    rw [joinDwords_ofNat (Nat.mod_lt _ (by decide)) (by omega), Nat.mod_add_div]

theorem offset128_grouped {width : U32} (h : 1 ≤ width.toNat ∧ width.toNat ≤ 128) :
    (offset128 width).Grouped width.toNat (BitVec.ofNat 128) := by
  have hzero : (0 : U32) = BitVec.ofNat 32 0 := rfl
  by_cases h32 : width ≤ 32
  · have hle : width.toNat ≤ 32 := h32
    rw [offset128, if_pos h32]
    refine ((group_grouped ⟨h.1, hle⟩).map _).congr fun x hx => ?_
    have hx32 := hx.trans_le (two_pow_le_of_le hle)
    rw [hzero, joinGroups_ofNat hx32 (by decide) (by decide) (by decide)]
    congr 1
  have hlt32 : 32 < width.toNat := Nat.not_le.mp h32
  by_cases h64 : width ≤ 64
  · have hle : width.toNat ≤ 64 := h64
    have hrest : (width - 32).toNat = width.toNat - 32 := toNat_sub_of_le (Nat.le_of_lt hlt32)
    have htotal : 32 + (width - 32).toNat = width.toNat := by omega
    rw [offset128, if_neg h32, if_pos h64, ← htotal]
    refine (Grouped.bind group_grouped_32 (by omega) fun low _ =>
      (group_grouped (by omega)).map _).congr fun x hx => ?_
    have hpow := two_pow_le_of_le (show 32 + (width - 32).toNat ≤ 64 by omega)
    rw [hzero, joinGroups_ofNat (Nat.mod_lt _ (by decide)) (by omega) (by decide) (by decide)]
    congr 1
    omega
  have hlt64 : 64 < width.toNat := Nat.not_le.mp h64
  by_cases h96 : width ≤ 96
  · have hle : width.toNat ≤ 96 := h96
    have hrest : (width - 64).toNat = width.toNat - 64 := toNat_sub_of_le (Nat.le_of_lt hlt64)
    have htotal : 32 + (32 + (width - 64).toNat) = width.toNat := by omega
    rw [offset128, if_neg h32, if_neg h64, if_pos h96, ← htotal]
    refine (Grouped.bind group_grouped_32 (by omega) fun low _ =>
      Grouped.bind group_grouped_32 (by omega) fun middle _ =>
      (group_grouped (by omega)).map _).congr fun x hx => ?_
    have hpow := two_pow_le_of_le (show 32 + (32 + (width - 64).toNat) ≤ 96 by omega)
    rw [hzero, joinGroups_ofNat (Nat.mod_lt _ (by decide)) (Nat.mod_lt _ (by decide)) (by omega)
      (by decide)]
    congr 1
    omega
  · have hlt96 : 96 < width.toNat := Nat.not_le.mp h96
    have hrest : (width - 96).toNat = width.toNat - 96 := toNat_sub_of_le (Nat.le_of_lt hlt96)
    have htotal : 32 + (32 + (32 + (width - 96).toNat)) = width.toNat := by omega
    rw [offset128, if_neg h32, if_neg h64, if_neg h96, ← htotal]
    refine (Grouped.bind group_grouped_32 (by omega) fun low _ =>
      Grouped.bind group_grouped_32 (by omega) fun middle _ =>
      Grouped.bind group_grouped_32 (by omega) fun high _ =>
      (group_grouped (by omega)).map _).congr fun x hx => ?_
    have hpow := two_pow_le_of_le (show 32 + (32 + (32 + (width - 96).toNat)) ≤ 128 by omega)
    rw [joinGroups_ofNat (Nat.mod_lt _ (by decide)) (Nat.mod_lt _ (by decide))
      (Nat.mod_lt _ (by decide)) (by omega)]
    congr 1
    omega

theorem dwords_takes {width : U32} (h : 1 ≤ width.toNat ∧ width.toNat ≤ 64) :
    (dwords width).Takes width.toNat (BitVec.ofNat 64) :=
  (dwords_grouped h).takes

theorem offset128_takes {width : U32} (h : 1 ≤ width.toNat ∧ width.toNat ≤ 128) :
    (offset128 width).Takes width.toNat (BitVec.ofNat 128) :=
  (offset128_grouped h).takes

theorem codes_of_takes {w n : Nat} {d : Decoder Error (BitVec w)} (h : d.Takes n (BitVec.ofNat w))
    (hn : n ≤ w) : d.Codes (fun value => value.toNat < 2 ^ n) fun _ value => toBits n value.toNat := by
  refine (Codes.of_takes h BitVec.toNat fun x hx => ?_).congr (fun value => ?_) fun _ _ _ => rfl
  · rw [BitVec.toNat_ofNat, Nat.mod_eq_of_lt (hx.trans_le (two_pow_le_of_le hn))]
  · rw [BitVec.ofNat_toNat, BitVec.setWidth_eq]
    exact and_iff_left rfl

/-! ### Steps that carry nothing -/

theorem refuseWith_codes {α : Type} (error : Error) (code : Nat → α → List Bool) :
    (refuseWith error).Codes (fun _ => False) code :=
  Codes.refuse 0 error code

theorem declare_bind_run {α : Type} {declared : Prop} [Decidable declared] (h : declared)
    (next : Unit → Decoder Error α) : (declare declared).bind next = next () := by
  rw [declare, if_pos h, accept_bind]

theorem declare_bind_refused {α : Type} {declared : Prop} [Decidable declared] (h : ¬declared)
    (next : Unit → Decoder Error α) : (declare declared).bind next = refuseWith .valueOutOfRange := by
  rw [declare, if_neg h]
  rfl

theorem declare_bind_codes {α : Type} {declared : Prop} [Decidable declared]
    {next : Unit → Decoder Error α} {Domain : α → Prop} {code : Nat → α → List Bool}
    (h : declared → (next ()).Codes Domain code) :
    ((declare declared).bind next).Codes (fun value => declared ∧ Domain value) code := by
  by_cases hdeclared : declared
  · rw [declare, if_pos hdeclared]
    exact (h hdeclared).congr (fun _ => by simp [hdeclared]) fun _ _ _ => rfl
  · rw [declare, if_neg hdeclared]
    exact (refuseWith_codes _ code).congr (fun _ => by simp [hdeclared]) fun _ _ _ => rfl

theorem declare_bind_parse {α : Type} {declared : Prop} [Decidable declared]
    {next : Unit → Decoder Error α} {position : Nat} {bits : List Bool} {r : α × Nat × List Bool} :
    ((declare declared).bind next).parse position bits = some r ↔
      declared ∧ (next ()).parse position bits = some r := by
  by_cases hdeclared : declared
  · rw [declare, if_pos hdeclared, Decoder.accept_bind]
    exact (and_iff_right hdeclared).symm
  · rw [declare, if_neg hdeclared]
    constructor
    · intro heq
      cases heq
    · intro h
      exact absurd h.1 hdeclared

theorem gate_bind_codes {α : Type} {next : Unit → Decoder Error α} {Domain : α → Prop}
    {code : Nat → α → List Bool} (h : (next ()).Codes Domain code) :
    (gate.bind next).Codes Domain code := by
  intro position bits value position' rest
  rw [← h]
  rfl

theorem refuseIf_codes {α : Type} (c : Prop) [Decidable c] (value : α) (error : Error) :
    (if c then refuseWith error else .accept value).Codes (fun value' => ¬c ∧ value' = value)
      fun _ _ => [] := by
  split
  next h => exact (refuseWith_codes _ _).congr (fun _ => by simp [h]) fun _ _ _ => rfl
  next h => exact (Codes.accept value).congr (fun _ => by simp [h]) fun _ _ _ => rfl

theorem acceptIf_codes {α : Type} (c : Prop) [Decidable c] (value : α) (error : Error) :
    (if c then .accept value else refuseWith error).Codes (fun value' => c ∧ value' = value)
      fun _ _ => [] := by
  split
  next h => exact (Codes.accept value).congr (fun _ => by simp [h]) fun _ _ _ => rfl
  next h => exact (refuseWith_codes _ _).congr (fun _ => by simp [h]) fun _ _ _ => rfl

/-! ### Offsets -/

/-- An offset that must not pass a span, and what is made of it. -/
def spanned {α : Type} {w : Nat} (offset : Decoder Error (BitVec w)) (span : BitVec w)
    (f : BitVec w → α) : Decoder Error α :=
  offset.bind fun value => if span < value then refuseWith .valueOutOfRange else .accept (f value)

/-- Where the offsets inside the span stand for the values of a domain, their codes are the codes of
these values. -/
theorem spanned_codes {α : Type} {w n : Nat} {offset : Decoder Error (BitVec w)} {span : BitVec w}
    {f : BitVec w → α} {Domain : α → Prop} (offsetOf : α → BitVec w)
    (hoffset : offset.Takes n (BitVec.ofNat w)) (hn : n ≤ w) (hspan : span.toNat < 2 ^ n)
    (hstands : ∀ part value, ¬span < part ∧ value = f part ↔ Domain value ∧ offsetOf value = part) :
    (spanned offset span f).Codes Domain fun _ value => toBits n (offsetOf value).toNat := by
  refine (Codes.bind (codes_of_takes hoffset hn)
    (fun part => refuseIf_codes (span < part) (f part) .valueOutOfRange) offsetOf
    fun part value hvalue => ((hstands part value).mp hvalue).2).congr (fun value => ?_)
    fun _ value _ => List.append_nil _
  rw [hstands]
  constructor
  · exact fun h => h.2.1
  · intro h
    have hinside := BitVec.le_def.mp (BitVec.not_lt.mp ((hstands _ value).mpr ⟨h, rfl⟩).1)
    exact ⟨hinside.trans_lt hspan, h, rfl⟩

/-! ### Ranged integers -/

theorem size_sub_zero_le {w : Nat} (x : BitVec w) : Nat.size x.toNat ≤ w := Nat.size_le.mpr x.isLt

theorem size_sub_pos {w : Nat} {min max : BitVec w} (h : min ≠ max) :
    1 ≤ Nat.size (max - min).toNat := by
  refine Nat.size_pos.mpr (Nat.pos_of_ne_zero fun hzero => ?_)
  exact h (sub_eq_zero.mp (BitVec.eq_of_toNat_eq hzero)).symm

/-- **Ranged integers code their offsets.** -/
theorem ranged_codes {w : Nat} (hw : 0 < w) {offset : Decoder Error (BitVec w)} {min max : BitVec w}
    (hoffset : min ≠ max → offset.Takes (Nat.size (max - min).toNat) (BitVec.ofNat w)) :
    (ranged offset min max).Codes
      (fun value => min.toInt ≤ max.toInt ∧ min.toInt ≤ value.toInt ∧ value.toInt ≤ max.toInt)
      fun _ value => rangedBits min.toInt max.toInt value.toInt := by
  refine (@declare_bind_codes _ _ _ _
    (fun value => min.toInt ≤ value.toInt ∧ value.toInt ≤ max.toInt)
    (fun _ value => rangedBits min.toInt max.toInt value.toInt) fun hsle => ?_).congr
    (fun value => ?_) fun _ _ _ => rfl
  · have horder : min.toInt ≤ max.toInt := BitVec.sle_iff_toInt_le.mp hsle
    split
    next heq =>
      subst heq
      refine gate_bind_codes ((Codes.accept min).congr (fun value => ?_) fun _ value hvalue => ?_)
      · constructor
        · rintro rfl
          exact ⟨le_refl _, le_refl _⟩
        · rintro ⟨hlow, hhigh⟩
          exact BitVec.eq_of_toInt_eq (le_antisymm hhigh hlow)
      · subst hvalue
        simp [rangedBits]
    next hne =>
      refine (spanned_codes (fun value => value - min) (hoffset hne) (size_sub_zero_le (max - min))
        (Nat.size_le.mp (le_refl _)) fun part value => ?_).congr (fun _ => Iff.rfl)
        fun _ value hvalue => ?_
      · rw [BitVec.not_lt, BitVec.le_def]
        constructor
        · rintro ⟨hle, rfl⟩
          rw [← BitVec.add_sub_cancel part min] at hle
          exact ⟨(offset_le_iff hw horder _).mp hle, BitVec.add_sub_cancel part min⟩
        · rintro ⟨hrange, rfl⟩
          exact ⟨(offset_le_iff hw horder value).mpr hrange, (BitVec.sub_add_cancel value min).symm⟩
      · rw [toNat_sub hvalue.1, toNat_sub horder]
        rfl
  · rw [BitVec.sle_iff_toInt_le]

theorem sub_zero_toNat {w : Nat} (x : BitVec w) : (x - 0).toNat = x.toNat := by
  rw [sub_zero]

theorem int_offset {min max : I32} (h : min ≠ max) :
    (group (bitsRequired 0 (max - min))).Grouped (Nat.size (max - min).toNat) (BitVec.ofNat 32) := by
  have hwidth : (bitsRequired 0 (max - min)).toNat = Nat.size (max - min).toNat := by
    rw [toNat_bitsRequired, sub_zero_toNat]
  rw [← hwidth]
  apply group_grouped
  rw [hwidth]
  exact ⟨size_sub_pos h, size_sub_zero_le _⟩

theorem int64_offset {min max : I64} (h : min ≠ max) :
    (dwords (bitsRequired64 0 (max - min))).Grouped (Nat.size (max - min).toNat) (BitVec.ofNat 64) := by
  have hwidth : (bitsRequired64 0 (max - min)).toNat = Nat.size (max - min).toNat := by
    rw [toNat_bitsRequired64, sub_zero_toNat]
  rw [← hwidth]
  apply dwords_grouped
  rw [hwidth]
  exact ⟨size_sub_pos h, size_sub_zero_le _⟩

theorem int128_offset {min max : I128} (h : min ≠ max) :
    (offset128 (bitsRequired128 0 (max - min))).Grouped (Nat.size (max - min).toNat)
      (BitVec.ofNat 128) := by
  have hwidth : (bitsRequired128 0 (max - min)).toNat = Nat.size (max - min).toNat := by
    rw [toNat_bitsRequired128, sub_zero_toNat]
  rw [← hwidth]
  apply offset128_grouped
  rw [hwidth]
  exact ⟨size_sub_pos h, size_sub_zero_le _⟩

theorem int_codes (min max : I32) :
    (int min max).Codes
      (fun value => min.toInt ≤ max.toInt ∧ min.toInt ≤ value.toInt ∧ value.toInt ≤ max.toInt)
      fun _ value => rangedBits min.toInt max.toInt value.toInt :=
  ranged_codes (by decide) fun hne => (int_offset hne).takes

theorem int64_codes (min max : I64) :
    (int64 min max).Codes
      (fun value => min.toInt ≤ max.toInt ∧ min.toInt ≤ value.toInt ∧ value.toInt ≤ max.toInt)
      fun _ value => rangedBits min.toInt max.toInt value.toInt :=
  ranged_codes (by decide) fun hne => (int64_offset hne).takes

theorem int128_codes (min max : I128) :
    (int128 min max).Codes
      (fun value => min.toInt ≤ max.toInt ∧ min.toInt ≤ value.toInt ∧ value.toInt ≤ max.toInt)
      fun _ value => rangedBits min.toInt max.toInt value.toInt :=
  ranged_codes (by decide) fun hne => (int128_offset hne).takes

/-! ### Raw fields -/

theorem group_codes (width : U32) :
    (group width).Codes
      (fun value => (1 ≤ width.toNat ∧ width.toNat ≤ 32) ∧ value.toNat < 2 ^ width.toNat)
      fun _ value => toBits width.toNat value.toNat := by
  by_cases h : 1 ≤ width.toNat ∧ width.toNat ≤ 32
  · refine (codes_of_takes (group_takes h) h.2).congr (fun value => ?_) fun _ _ _ => rfl
    exact (and_iff_right h).symm
  · rw [group, if_neg h]
    refine (Codes.refuse _ _ _).congr (fun value => ?_) fun _ _ _ => rfl
    simp [h]

theorem bits64_codes (width : U32) :
    (bits64 width).Codes
      (fun value => (1 ≤ width.toNat ∧ width.toNat ≤ 64) ∧ value.toNat < 2 ^ width.toNat)
      fun _ value => toBits width.toNat value.toNat :=
  declare_bind_codes fun h : 1 ≤ width ∧ width ≤ 64 => codes_of_takes (dwords_takes h) h.2

theorem bits64_takes : (bits64 64).Takes 64 (BitVec.ofNat 64) :=
  @dwords_takes 64 (by decide)

theorem bool_codes : bool.Codes (fun _ => True) fun _ value => [value] := by
  have htakes : bool.Takes 1 fun x => decide (BitVec.ofNat 32 x ≠ 0) :=
    (@group_takes 1 (by decide)).map _
  have hsmall : ∀ x, x < 2 ^ 1 → (decide (BitVec.ofNat 32 x ≠ 0)).toNat = x := by
    intro x hx
    obtain rfl | rfl : x = 0 ∨ x = 1 := by omega
    · rfl
    · rfl
  refine (Codes.of_takes htakes Bool.toNat hsmall).congr (fun value => ?_) fun _ value _ => ?_
  · cases value <;> decide
  · exact toBits_one_toNat value

theorem narrow_codes {w : Nat} (h : 1 ≤ w ∧ w ≤ 32) :
    (narrow w).Codes (fun _ => True) fun _ value => toBits w value.toNat := by
  have hwidth : (BitVec.ofNat 32 w).toNat = w := by
    rw [BitVec.toNat_ofNat, Nat.mod_eq_of_lt (by omega)]
  have htakes : (narrow w).Takes w (BitVec.ofNat w) := by
    have hgroup := @group_takes (BitVec.ofNat 32 w) (by rw [hwidth]; exact h)
    rw [hwidth] at hgroup
    refine (hgroup.map _).congr fun x hx => ?_
    apply BitVec.eq_of_toNat_eq
    rw [BitVec.toNat_setWidth, BitVec.toNat_ofNat, BitVec.toNat_ofNat,
      Nat.mod_mod_of_dvd _ (Nat.pow_dvd_pow 2 h.2)]
  exact (codes_of_takes htakes (le_refl w)).congr (fun value => by simp [value.isLt])
    fun _ _ _ => rfl

theorem u128_codes : u128.Codes (fun _ => True) fun _ value => toBits 128 value.toNat := by
  have htakes : u128.Takes 128 (BitVec.ofNat 128) := by
    refine (Takes.bind (n := 64) bits64_takes fun low _ => bits64_takes.map _).congr fun x hx => ?_
    rw [setWidth_ofNat (by decide) (Nat.mod_lt _ (by decide)), setWidth_ofNat (by decide) (by omega),
      ofNat_shiftLeft, ofNat_or (Nat.mod_lt _ (by decide)), Nat.mod_add_div]
  exact (codes_of_takes htakes (le_refl 128)).congr (fun value => by simp [value.isLt])
    fun _ _ _ => rfl

/-! ### Floats -/

theorem floatBitsAreFinite_eq (value : U32) : floatBitsAreFinite value = Binary32.isFinite value := by
  have hmask : (0x7F800000 : U32) = BitField.mask 32 23 8 := rfl
  rw [floatBitsAreFinite, Binary32.isFinite, Bool.eq_iff_iff, bne_iff_ne, decide_eq_true_iff, hmask]
  exact not_congr (BitField.and_mask_eq_iff (by decide) value)

theorem doubleBitsAreFinite_eq (value : U64) :
    doubleBitsAreFinite value = Binary64.isFinite value := by
  have hmask : (0x7FF0000000000000 : U64) = BitField.mask 64 52 11 := rfl
  rw [doubleBitsAreFinite, Binary64.isFinite, Bool.eq_iff_iff, bne_iff_ne, decide_eq_true_iff, hmask]
  exact not_congr (BitField.and_mask_eq_iff (by decide) value)

theorem checked_codes {α : Type} {d : Decoder Error α} {Domain : α → Prop}
    {code : Nat → α → List Bool} (h : d.Codes Domain code) (check : α → Bool) (error : Error) :
    (d.bind fun value => if check value then .accept value else refuseWith error).Codes
      (fun value => Domain value ∧ check value = true) code := by
  refine (Codes.bind h (fun part => acceptIf_codes (check part = true) part error) id
    fun part value hvalue => hvalue.2).congr (fun value => ?_) fun _ value _ => List.append_nil _
  simp

theorem f32_codes :
    f32.Codes (fun value => Binary32.isFinite value = true) fun _ value => toBits 32 value.toNat := by
  have htakes := codes_of_takes group_takes_32 (le_refl 32)
  refine (checked_codes htakes floatBitsAreFinite .nonFiniteFloat).congr (fun value => ?_)
    fun _ _ _ => rfl
  rw [floatBitsAreFinite_eq]
  exact and_iff_right value.isLt

theorem f64_codes :
    f64.Codes (fun value => Binary64.isFinite value = true) fun _ value => toBits 64 value.toNat := by
  have htakes := codes_of_takes bits64_takes (le_refl 64)
  refine (checked_codes htakes doubleBitsAreFinite .nonFiniteFloat).congr (fun value => ?_)
    fun _ _ _ => rfl
  rw [doubleBitsAreFinite_eq]
  exact and_iff_right value.isLt

/-! ### Fixed point -/

section Fixed

variable {T : FixedPointStorage} {integerBits fractionBits : U32} {minUnits maxUnits : I64}

/-- An offset inside the raw span, put back on the raw minimum and narrowed, is a raw value inside
the raw bounds; and every raw value inside them is one. -/
theorem rawOffset_iff (hlow : T.minRaw ≤ rawBound minUnits fractionBits)
    (hhigh : rawBound maxUnits fractionBits ≤ T.maxRaw) (horder : minUnits.toInt ≤ maxUnits.toInt)
    (value : BitVec T.bits) (offset : U128) :
    (¬((maxUnits.signExtend 128 - minUnits.signExtend 128) <<< fractionBits.toNat : U128) < offset
        ∧ value = T.fromUnsigned (minUnits.signExtend 128 <<< fractionBits.toNat + offset)) ↔
      (rawBound minUnits fractionBits ≤ T.toInt value
        ∧ T.toInt value ≤ rawBound maxUnits fractionBits)
        ∧ T.toUnsigned value - minUnits.signExtend 128 <<< fractionBits.toNat = offset := by
  have hspan := T.maxRaw_sub_minRaw
  have hraw := rawBound_le_rawBound fractionBits horder
  have hsum : (minUnits.signExtend 128 <<< fractionBits.toNat + offset : U128)
      = BitVec.ofInt 128 (rawBound minUnits fractionBits + offset.toNat) := by
    rw [rawMin_eq, BitVec.ofInt_add, BitVec.ofInt_natCast, BitVec.ofNat_toNat, BitVec.setWidth_eq]
  rw [BitVec.not_lt, BitVec.le_def, toNat_rawRange hlow hhigh horder, hsum, T.fromUnsigned_ofInt,
    T.toUnsigned_eq, rawMin_eq, ← ofInt_sub]
  constructor
  · rintro ⟨hle, rfl⟩
    have hoffset : T.toInt (BitVec.ofInt T.bits (rawBound minUnits fractionBits + offset.toNat))
        = rawBound minUnits fractionBits + offset.toNat := T.toInt_ofInt (by omega) (by omega)
    rw [hoffset, add_sub_cancel_left, BitVec.ofInt_natCast, BitVec.ofNat_toNat,
      BitVec.setWidth_eq]
    exact ⟨⟨by omega, by omega⟩, rfl⟩
  · rintro ⟨⟨hmin, hmax⟩, rfl⟩
    rw [toNat_ofInt (by omega) (by omega), Int.toNat_of_nonneg (by omega), add_sub_cancel,
      T.ofInt_toInt]
    exact ⟨by omega, rfl⟩

theorem fixed_of_legal (h : Operation.FixedLegal T integerBits fractionBits minUnits maxUnits) :
    fixed T integerBits fractionBits minUnits maxUnits
      = if minUnits = maxUnits then
          gate.bind fun _ => .accept (T.fromUnsigned (minUnits.signExtend 128 <<< fractionBits.toNat))
        else
          let rawRange : U128 :=
            (maxUnits.signExtend 128 - minUnits.signExtend 128) <<< fractionBits.toNat
          spanned (offset128 (bitLength rawRange)) rawRange fun offset =>
            T.fromUnsigned (minUnits.signExtend 128 <<< fractionBits.toNat + offset) := by
  rw [fixed, bind_eq, declare_bind_run h.integerBits_pos, bind_eq, declare_bind_run h.width, bind_eq,
    declare_bind_run (BitVec.sle_iff_toInt_le.mpr h.order), bind_eq, declare_bind_run (capacity_of_legal h)]
  rfl

/-- The first declaration that does not hold is refused, whichever it is. -/
theorem fixed_of_not_legal
    (h : ¬Operation.FixedLegal T integerBits fractionBits minUnits maxUnits) :
    fixed T integerBits fractionBits minUnits maxUnits = refuseWith .valueOutOfRange := by
  rw [fixed, bind_eq]
  by_cases hpositive : 1 ≤ integerBits.toNat
  case neg => exact declare_bind_refused hpositive _
  rw [declare_bind_run hpositive, bind_eq]
  by_cases hwidth : integerBits.toNat + fractionBits.toNat = T.bits
  case neg => exact declare_bind_refused hwidth _
  rw [declare_bind_run hwidth, bind_eq]
  by_cases hsle : minUnits.sle maxUnits = true
  case neg => exact declare_bind_refused hsle _
  rw [declare_bind_run hsle, bind_eq]
  have horder := BitVec.sle_iff_toInt_le.mp hsle
  apply declare_bind_refused
  rw [capacity_iff hpositive hwidth horder]
  rintro ⟨hlow, hhigh⟩
  exact h ⟨hpositive, hwidth, horder, hlow, hhigh⟩

theorem fixed_codes (integerBits : U32) :
    (fixed T integerBits fractionBits minUnits maxUnits).Codes
      (fun value => Operation.FixedLegal T integerBits fractionBits minUnits maxUnits
        ∧ rawBound minUnits fractionBits ≤ T.toInt value
        ∧ T.toInt value ≤ rawBound maxUnits fractionBits)
      fun _ value => rangedBits (rawBound minUnits fractionBits) (rawBound maxUnits fractionBits)
        (T.toInt value) := by
  by_cases hlegal : Operation.FixedLegal T integerBits fractionBits minUnits maxUnits
  case neg =>
    rw [fixed_of_not_legal hlegal]
    refine (refuseWith_codes _ _).congr (fun value => ?_) fun _ _ _ => rfl
    exact iff_of_false id fun h => hlegal h.1
  have horder := hlegal.order
  have hlow := hlegal.minRaw_le
  have hhigh := hlegal.le_maxRaw
  rw [fixed_of_legal hlegal]
  split
  next heq =>
    subst heq
    refine gate_bind_codes ((Codes.accept _).congr (fun value => ?_) fun _ value hvalue => ?_)
    · rw [rawMin_eq, T.fromUnsigned_ofInt, and_iff_right hlegal]
      constructor
      · rintro rfl
        rw [T.toInt_ofInt hlow hhigh]
        exact ⟨le_refl _, le_refl _⟩
      · rintro ⟨hmin, hmax⟩
        rw [← T.ofInt_toInt value, le_antisymm hmax hmin]
    · simp [rangedBits]
  next hne =>
    have hwidth := rawRange_bounds hlow hhigh horder hne
    have hsize := toNat_bitLength_rawRange hlow hhigh horder
    have hraw := toNat_rawRange hlow hhigh horder
    refine (spanned_codes
      (fun value => T.toUnsigned value - minUnits.signExtend 128 <<< fractionBits.toNat)
      (offset128_takes hwidth) hwidth.2 ?_ fun offset value =>
        rawOffset_iff hlow hhigh horder value offset).congr (fun value => ?_) fun _ value hvalue => ?_
    · rw [hsize, hraw]
      exact Nat.size_le.mp (le_refl _)
    · exact (and_iff_right hlegal).symm
    · have hspan := T.maxRaw_sub_minRaw
      rw [hsize, T.toUnsigned_eq, rawMin_eq, ← ofInt_sub, toNat_ofInt (by omega) (by omega)]
      rfl

end Fixed

/-! ### Relative integers -/

section Relative

variable {previous : I32}

theorem relative_codes (previous : I32) (reconstructed : Int) :
    (relative previous reconstructed).Codes
      (fun current => intRelativeInDomain previous reconstructed
        ∧ current = BitVec.ofInt 32 reconstructed)
      fun _ _ => [] :=
  acceptIf_codes _ _ _

theorem toInt_ofInt_i32 {n : Int} (hlow : -2 ^ 31 ≤ n) (hhigh : n < 2 ^ 31) :
    (BitVec.ofInt 32 n).toInt = n :=
  Wrapping.toInt_ofInt (by decide) hlow hhigh

theorem relative_iff {reconstructed : Int} (current : I32) :
    (intRelativeInDomain previous reconstructed ∧ current = BitVec.ofInt 32 reconstructed) ↔
      0 ≤ reconstructed ∧ previous.toInt < reconstructed ∧ current.toInt = reconstructed := by
  have hcurrent := i32_toInt_bounds current
  constructor
  · rintro ⟨⟨⟨hnonneg, hmax⟩, hgreater⟩, rfl⟩
    simp only [i32Max] at hmax
    exact ⟨hnonneg, hgreater, toInt_ofInt_i32 (by omega) (by omega)⟩
  · rintro ⟨hnonneg, hgreater, rfl⟩
    refine ⟨⟨⟨hnonneg, ?_⟩, hgreater⟩, BitVec.ofInt_toInt.symm⟩
    simp only [i32Max]
    omega

theorem tierPayload_codes (hprevious : 0 ≤ previous.toInt) {low high : I32} (hlow : 0 < low.toInt)
    (horder : low.toInt ≤ high.toInt) :
    ((int low high).bind fun difference =>
        relative previous (previous.toInt + difference.toInt)).Codes
      (fun current => low.toInt ≤ current.toInt - previous.toInt
        ∧ current.toInt - previous.toInt ≤ high.toInt)
      fun _ current => rangedBits low.toInt high.toInt (current.toInt - previous.toInt) := by
  have hhigh := i32_toInt_bounds high
  refine (Codes.bind (int_codes low high) (fun difference => relative_codes previous _)
    (fun current => BitVec.ofInt 32 (current.toInt - previous.toInt))
    fun difference current hcurrent => ?_).congr (fun current => ?_) fun _ current hcurrent => ?_
  · rw [(relative_iff current).mp hcurrent |>.2.2, add_sub_cancel_left, BitVec.ofInt_toInt]
  · have hbounds := i32_toInt_bounds current
    rw [relative_iff]
    constructor
    · rintro ⟨⟨-, hmin, hmax⟩, -, -, hvalue⟩
      omega
    · rintro ⟨hmin, hmax⟩
      rw [toInt_ofInt_i32 (by omega) (by omega)]
      omega
  · have hvalue := ((relative_iff current).mp hcurrent.2).2.2
    rw [List.append_nil]
    congr 1
    omega

/-- One flag of the ladder: set, it is followed by the tier's payload; clear, by the tiers above. -/
theorem tiers_cons_codes (hprevious : 0 ≤ previous.toInt) {threshold : U32} {low high : I32}
    (hlow : 0 < low.toInt) (horder : low.toInt ≤ high.toInt) {rest : List (U32 × I32 × I32)}
    (code : Int → Int → List Bool)
    (hrest : (tiers previous rest).Codes
      (fun current => high.toInt + 1 ≤ current.toInt - previous.toInt)
      fun _ current => code (current.toInt - previous.toInt) current.toInt) :
    (tiers previous ((threshold, low, high) :: rest)).Codes
      (fun current => low.toInt ≤ current.toInt - previous.toInt)
      fun _ current => if current.toInt - previous.toInt ≤ high.toInt then
          true :: rangedBits low.toInt high.toInt (current.toInt - previous.toInt)
        else false :: code (current.toInt - previous.toInt) current.toInt := by
  have hnext : ∀ inBucket : Bool, ((if inBucket = true then
        (int low high).bind fun difference =>
          relative previous (previous.toInt + difference.toInt)
      else tiers previous rest) : Decoder Error I32).Codes
      (fun current => low.toInt ≤ current.toInt - previous.toInt
        ∧ inBucket = decide (current.toInt - previous.toInt ≤ high.toInt))
      fun _ current => if inBucket = true then
          rangedBits low.toInt high.toInt (current.toInt - previous.toInt)
        else code (current.toInt - previous.toInt) current.toInt := by
    intro inBucket
    cases inBucket with
    | true =>
        refine (tierPayload_codes hprevious hlow horder).congr (fun current => ?_) fun _ _ _ => rfl
        rw [eq_comm (a := true), decide_eq_true_iff]
    | false =>
        refine hrest.congr (fun current => ?_) fun _ _ _ => rfl
        rw [eq_comm (a := false), decide_eq_false_iff_not]
        omega
  refine (Codes.bind bool_codes hnext
    (fun current => decide (current.toInt - previous.toInt ≤ high.toInt))
    fun inBucket current hcurrent => hcurrent.2.symm).congr (fun current => ?_)
    fun _ current _ => ?_
  · simp
  · by_cases h : current.toInt - previous.toInt ≤ high.toInt
    · simp [h]
    · simp [h]

theorem absolute_codes (hprevious : 0 ≤ previous.toInt) :
    (absolute previous).Codes (fun current => 69914 + 1 ≤ current.toInt - previous.toInt)
      fun _ current => toBits 32 current.toInt.toNat := by
  have hnext : ∀ value : U32, ((if ¬intRelativeInDomain previous value.toNat then
        refuseWith .valueOutOfRange
      else if (value.toNat : Int) - previous.toInt ≤ 69914 then refuseWith .nonCanonical
      else .accept (BitVec.ofInt 32 value.toNat)) : Decoder Error I32).Codes
      (fun current => 69914 + 1 ≤ current.toInt - previous.toInt ∧ current = value)
      fun _ _ => [] := by
    intro value
    have hvalue : BitVec.ofInt 32 value.toNat = value := by
      rw [BitVec.ofInt_natCast, BitVec.ofNat_toNat, BitVec.setWidth_eq]
    have hcond := BitVec.toInt_eq_toNat_cond value
    have hlt := value.isLt
    rw [hvalue]
    by_cases hdomain : intRelativeInDomain previous value.toNat
    · have hmax := hdomain.1.2
      simp only [i32Max] at hmax
      rw [if_neg (not_not.mpr hdomain)]
      refine (refuseIf_codes _ _ _).congr (fun current => ?_) fun _ _ _ => rfl
      refine and_congr_left fun hcurrent => ?_
      subst hcurrent
      omega
    · rw [if_pos hdomain]
      refine (refuseWith_codes _ _).congr (fun current => ?_) fun _ _ _ => rfl
      rw [false_iff]
      rintro ⟨hdifference, rfl⟩
      refine hdomain ⟨⟨by omega, ?_⟩, by omega⟩
      simp only [i32Max]
      omega
  refine (Codes.bind (codes_of_takes group_takes_32 (le_refl 32)) hnext id
    fun value current hcurrent => hcurrent.2).congr (fun current => ?_) fun _ current hcurrent => ?_
  · have hlt := current.isLt
    simp [hlt]
  · have hdifference := hcurrent.2.1
    have hcond := BitVec.toInt_eq_toNat_cond current
    simp only [id] at hdifference ⊢
    rw [List.append_nil]
    congr 1
    omega

/-- The bounds of a tier as integers. -/
def tierBounds (tier : U32 × I32 × I32) : Int × Int := (tier.2.1.toInt, tier.2.2.toInt)

/-- Tiers that start at a difference and leave no gap up to the absolute tier. -/
def Ladder : Int → List (U32 × I32 × I32) → Prop
  | least, [] => least = 69914 + 1
  | least, (_, low, high) :: rest =>
      (low.toInt = least ∧ 0 < least ∧ least ≤ high.toInt) ∧ Ladder (high.toInt + 1) rest

theorem tiers_codes (hprevious : 0 ≤ previous.toInt) {least : Int} {ladder : List (U32 × I32 × I32)}
    (h : Ladder least ladder) :
    (tiers previous ladder).Codes (fun current => least ≤ current.toInt - previous.toInt)
      fun _ current =>
        tierBits (current.toInt - previous.toInt) current.toInt (ladder.map tierBounds) := by
  induction ladder generalizing least with
  | nil =>
      obtain rfl := h
      exact absolute_codes hprevious
  | cons tier rest ih =>
      obtain ⟨threshold, low, high⟩ := tier
      obtain ⟨⟨rfl, hpositive, horder⟩, hrest⟩ := h
      exact tiers_cons_codes hprevious hpositive horder
        (fun difference current => tierBits difference current (rest.map tierBounds))
        (ih hrest)

theorem buckets_ladder : Ladder 2 buckets := by
  simp only [Ladder, buckets]
  decide

/-- **The writer's ladder is the only one**: the decoder of a relative integer accepts the first
tier that fits and no other. -/
theorem intRelative_codes (previous : I32) :
    (intRelative previous).Codes
      (fun current => 0 ≤ previous.toInt
        ∧ previous.toInt < current.toInt ∧ current.toInt ≤ i32Max)
      fun _ current => relativeBits previous.toInt current.toInt := by
  refine (@declare_bind_codes _ _ _ _ (fun current => 1 ≤ current.toInt - previous.toInt) _
    fun hsle => ?_).congr (fun current => ?_) fun _ _ _ => rfl
  · have hprevious : 0 ≤ previous.toInt := BitVec.sle_iff_toInt_le.mp hsle
    have hnext : ∀ oneBit : Bool, ((if oneBit = true then relative previous (previous.toInt + 1)
        else tiers previous buckets) : Decoder Error I32).Codes
        (fun current => 1 ≤ current.toInt - previous.toInt
          ∧ oneBit = decide (current.toInt - previous.toInt = 1))
        fun _ current => if oneBit = true then []
          else tierBits (current.toInt - previous.toInt) current.toInt relativeTiers := by
      intro oneBit
      cases oneBit with
      | true =>
          refine (relative_codes previous _).congr (fun current => ?_) fun _ _ _ => rfl
          rw [relative_iff, eq_comm (a := true), decide_eq_true_iff]
          omega
      | false =>
          refine (tiers_codes hprevious buckets_ladder).congr (fun current => ?_) fun _ _ _ => rfl
          rw [eq_comm (a := false), decide_eq_false_iff_not]
          omega
    refine (Codes.bind bool_codes hnext (fun current => decide (current.toInt - previous.toInt = 1))
      fun oneBit current hcurrent => hcurrent.2.symm).congr (fun current => ?_)
      fun _ current _ => ?_
    · simp
    · rw [relativeBits]
      by_cases h : current.toInt - previous.toInt = 1
      · simp [h]
      · simp [h]
  · have hbounds := i32_toInt_bounds current
    rw [BitVec.sle_iff_toInt_le, show (0 : I32).toInt = 0 from rfl]
    refine and_congr_right fun _ => ?_
    simp only [i32Max]
    omega

end Relative

/-! ### Bytes and strings -/

theorem align_codes : align.Codes (fun _ => True) fun position _ => alignCode byteBoundary position := by
  intro position bits value position' rest
  have hwidth : (BitVec.ofNat 32 (byteBoundary position)).toNat = byteBoundary position := by
    rw [BitVec.toNat_ofNat, byteBoundary]
    omega
  rw [align, parse, parse, hwidth]
  simp only [alignCode, List.length_replicate]
  constructor
  · intro h
    split at h
    · cases h
    next hle =>
      split at h
      next hzero =>
        rw [parse_accept] at h
        cases h
        have hlength : (bits.take (byteBoundary position)).length = byteBoundary position := by
          rw [List.length_take]
          omega
        have hzeros := (ofBits_eq_zero_iff _).mp hzero
        rw [hlength] at hzeros
        exact ⟨trivial, by rw [← hzeros, List.take_append_drop], rfl⟩
      next hzero => cases h
  · rintro ⟨-, rfl, rfl⟩
    have hlength : (List.replicate (byteBoundary position) false).length = byteBoundary position :=
      List.length_replicate
    rw [if_neg (by rw [List.length_append, hlength]; omega), List.take_left' hlength,
      List.drop_left' hlength, if_pos (ofBits_replicate_false _), parse_accept]

theorem octets_codes (count : Nat) :
    (octets count).Codes (fun _ => True) fun _ value => bitsOfOctets value.toList := by
  have htakes : (octets count).Takes (8 * count)
      fun x => ⟨leOctets count x, length_leOctets count x⟩ := fun _ _ => rfl
  have hlength : ∀ value : List.Vector U8 count,
      (bitsOfOctets value.toList).length = 8 * count := fun value => by
    rw [length_bitsOfOctets, value.toList_length]
  refine (Codes.of_takes htakes (fun value => ofBits (bitsOfOctets value.toList))
    fun x hx => ?_).congr (fun value => ?_) fun _ value _ => ?_
  · exact (congrArg ofBits (bitsOfOctets_leOctets count x)).trans (ofBits_toBits_of_lt hx)
  · rw [iff_true]
    refine ⟨hlength value ▸ ofBits_lt (bitsOfOctets value.toList), List.Vector.eq _ _ ?_⟩
    have hoctets := octetsOfBits_bitsOfOctets value.toList []
    rw [List.append_nil, value.toList_length] at hoctets
    exact hoctets
  · exact (eq_toBits_of_ofBits (hlength value) rfl).symm

theorem bytes_codes (count : Nat) :
    (bytes count).Codes (fun _ => True)
      fun position value => bytesCode byteBoundary position value.toList :=
  (Codes.before align_codes (octets_codes count)).congr (fun _ => by simp) fun _ _ _ => rfl

theorem text_codes (payload : List U8) :
    (text payload).Codes (fun value => 0 ∉ value.bytes ∧ value.bytes = payload) fun _ _ => [] := by
  rw [text]
  split
  next hzero =>
    refine (refuseWith_codes _ _).congr (fun value => ?_) fun _ _ _ => rfl
    rw [false_iff]
    rintro ⟨hnone, rfl⟩
    exact hnone (List.contains_iff_mem.mp hzero)
  next hnone =>
    rcases hvalue : Utf8.fromUtf8 payload with - | value
    · refine (refuseWith_codes _ _).congr (fun value => ?_) fun _ _ _ => rfl
      rw [false_iff]
      rintro ⟨-, rfl⟩
      rw [Utf8.fromUtf8_bytes] at hvalue
      cases hvalue
    · have hbytes := Utf8.fromUtf8_eq_some_iff.mp hvalue
      refine (Codes.accept value).congr (fun value' => ?_) fun _ _ _ => rfl
      constructor
      · rintro rfl
        exact ⟨fun hzero => hnone (List.contains_iff_mem.mpr (hbytes ▸ hzero)), hbytes⟩
      · rintro ⟨-, hvalue'⟩
        exact Utf8.Text.ext_bytes (hvalue'.trans hbytes.symm)

/-- The bytes of a text as a payload of a given length: its own where it has that length. -/
def payloadOf (count : Nat) (value : Text) : List.Vector U8 count :=
  ⟨(value.bytes ++ List.replicate count 0).take count, by simp⟩

theorem payloadOf_toList {count : Nat} {value : Text} (h : value.bytes.length = count) :
    (payloadOf count value).toList = value.bytes := by
  subst h
  exact List.take_left

theorem payload_codes (count : Nat) :
    ((bytes count).bind fun payload => text payload.toList).Codes
      (fun value => value.bytes.length = count ∧ 0 ∉ value.bytes)
      fun position value => bytesCode byteBoundary position value.bytes := by
  have hpart : ∀ (payload : List.Vector U8 count) (value : Text),
      0 ∉ value.bytes ∧ value.bytes = payload.toList → payloadOf count value = payload := by
    rintro payload value ⟨-, hvalue⟩
    have hlength : value.bytes.length = count := by rw [hvalue, payload.toList_length]
    exact List.Vector.eq _ _ ((payloadOf_toList hlength).trans hvalue)
  refine (Codes.bind (bytes_codes count) (fun payload => text_codes payload.toList)
    (payloadOf count) hpart).congr (fun value => ?_) fun _ value hvalue => ?_
  · constructor
    · rintro ⟨-, hnone, hvalue⟩
      exact ⟨by rw [hvalue, List.Vector.toList_length], hnone⟩
    · rintro ⟨hlength, hnone⟩
      exact ⟨trivial, hnone, (payloadOf_toList hlength).symm⟩
  · rw [List.append_nil, ← hvalue.2.2]

theorem toInt_ofNat_i32 {n : Nat} (h : n < 2 ^ 31) : (BitVec.ofNat 32 n).toInt = n := by
  rw [← BitVec.ofInt_natCast]
  exact toInt_ofInt_i32 (by omega) (by omega)

theorem toNat_signExtend {length : I32} (h : 0 ≤ length.toInt) :
    (length.signExtend 64).toNat = length.toInt.toNat := by
  have hbounds := i32_toInt_bounds length
  rw [signExtend_eq_ofInt]
  exact toNat_ofInt h (by omega)

theorem largest_toInt {bufferSize : Nat} (h : 1 ≤ bufferSize ∧ bufferSize ≤ i32Max) :
    (BitVec.ofNat 32 bufferSize - 1 : I32).toInt = (bufferSize : Int) - 1 := by
  have hmax := h.2
  simp only [i32Max] at hmax
  have hone : (1 : I32) = BitVec.ofInt 32 1 := rfl
  rw [hone, ← BitVec.ofInt_natCast, ← ofInt_sub]
  exact toInt_ofInt_i32 (by omega) (by omega)

theorem string_codes (bufferSize : Nat) :
    (string bufferSize).Codes
      (fun value => (1 ≤ bufferSize ∧ bufferSize ≤ i32Max)
        ∧ value.bytes.length < bufferSize ∧ 0 ∉ value.bytes)
      fun position value => stringCode byteBoundary bufferSize position value.bytes := by
  rw [string]
  split
  next hsize =>
    refine (refuseWith_codes _ _).congr (fun value => ?_) fun _ _ _ => rfl
    rw [false_iff]
    omega
  next hsize =>
    have hlegal : 1 ≤ bufferSize ∧ bufferSize ≤ i32Max := by omega
    have hmax := hlegal.2
    simp only [i32Max] at hmax
    have hlargest := largest_toInt hlegal
    refine (Codes.bind (int_codes 0 (BitVec.ofNat 32 bufferSize - 1))
      (fun length => payload_codes (length.signExtend 64).toNat)
      (fun value => BitVec.ofNat 32 value.bytes.length) fun length value hvalue => ?_).congr
      (fun value => ?_) fun position value hvalue => ?_
    · rw [hvalue.1, BitVec.ofNat_toNat, signExtend_eq_ofInt, setWidth_ofInt (by decide),
        BitVec.ofInt_toInt]
    · rw [hlargest, show (0 : I32).toInt = 0 from rfl]
      constructor
      · rintro ⟨⟨-, hmin, hle⟩, hlength, hnone⟩
        rw [toNat_signExtend hmin] at hlength
        exact ⟨hlegal, by omega, hnone⟩
      · rintro ⟨-, hlt, hnone⟩
        have hlength := toInt_ofNat_i32 (n := value.bytes.length) (by omega)
        rw [toNat_signExtend (by omega), hlength]
        exact ⟨by omega, by omega, hnone⟩
    · obtain ⟨⟨-, hmin, hle⟩, hlength, -⟩ := hvalue
      rw [show (0 : I32).toInt = 0 from rfl] at hmin
      have hnat : (BitVec.ofNat 32 value.bytes.length).toInt = (value.bytes.length : Int) := by
        rw [toNat_signExtend hmin] at hlength
        omega
      rw [hlargest, hnat, show (0 : I32).toInt = 0 from rfl]
      rfl

end Decoders

variable [Arithmetic]

/-- **Decoders invert the reference encoding.** The decoder of an exact operation accepts a bit
string just when the declaration is legal and the string starts with the encoding of the value it
gives, which is a value the declaration admits. -/
theorem Operation.decoder_codes {operation : Operation} (hexact : operation.Exact) :
    operation.decoder.Codes (fun value => operation.Legal ∧ operation.InDomain value)
      fun position value => operation.encode byteBoundary position value := by
  have htrue : ∀ {α : Type} (value : α), True ↔ True ∧ True := fun _ => by simp
  cases operation with
  | bits width => exact Decoders.group_codes width
  | bits64 width => exact Decoders.bits64_codes width
  | bool => exact Decoders.bool_codes.congr htrue fun _ _ _ => rfl
  | u8 => exact (Decoders.narrow_codes (by decide)).congr htrue fun _ _ _ => rfl
  | u16 => exact (Decoders.narrow_codes (by decide)).congr htrue fun _ _ _ => rfl
  | u32 =>
      exact (Decoders.codes_of_takes Decoders.group_takes_32 (le_refl 32)).congr
        (fun value => iff_of_true value.isLt ⟨trivial, trivial⟩) fun _ _ _ => rfl
  | u64 =>
      exact (Decoders.codes_of_takes Decoders.bits64_takes (le_refl 64)).congr
        (fun value => iff_of_true value.isLt ⟨trivial, trivial⟩) fun _ _ _ => rfl
  | u128 => exact Decoders.u128_codes.congr htrue fun _ _ _ => rfl
  | int min max => exact Decoders.int_codes min max
  | int64 min max => exact Decoders.int64_codes min max
  | int128 min max => exact Decoders.int128_codes min max
  | fixed T integerBits fractionBits minUnits maxUnits => exact Decoders.fixed_codes integerBits
  | intRelative previous => exact Decoders.intRelative_codes previous
  | f32 => exact Decoders.f32_codes.congr (fun _ => (and_iff_right trivial).symm) fun _ _ _ => rfl
  | f64 => exact Decoders.f64_codes.congr (fun _ => (and_iff_right trivial).symm) fun _ _ _ => rfl
  | bytes count => exact (Decoders.bytes_codes count).congr htrue fun _ _ _ => rfl
  | string bufferSize => exact Decoders.string_codes bufferSize
  | align => exact Decoders.align_codes.congr htrue fun _ _ _ => rfl
  | compressedFloat min max resolution => exact hexact.elim
  | compressedFloatPrecomputed maxIntegerValue width delta min => exact hexact.elim

/-! ### Compressed floats

A compressed float is not a code: several packets decode to one value. What it accepts is still a
legal declaration and a finite value. -/

namespace Decoders

theorem compressedFloatPrecomputed_sound {maxIntegerValue width : U32} {delta min value : F32}
    {position position' : Nat} {bits rest : List Bool}
    (h : (compressedFloatPrecomputed maxIntegerValue width delta min).parse position bits
      = some (value, position', rest)) :
    Operation.PrecomputedLegal maxIntegerValue width delta ∧ Binary32.isFinite value = true := by
  simp only [compressedFloatPrecomputed, Decoder.bind_eq, declare_bind_parse] at h
  obtain ⟨⟨hlow, hhigh⟩, hwidth, hdelta, hfinite, hfield⟩ := h
  refine ⟨⟨⟨hlow, hhigh⟩, ?_, hdelta, hfinite⟩, ?_⟩
  · rw [hwidth, toNat_bitsRequired, sub_zero_toNat]
  · rw [Decoder.parse_bind_eq_some] at hfield
    obtain ⟨integerValue, position₁, bits₁, -, hdecoded⟩ := hfield
    split at hdecoded
    · cases hdecoded
    split at hdecoded
    next hchecked =>
      rw [Decoder.pure_eq, Decoder.parse_accept] at hdecoded
      cases hdecoded
      rw [← floatBitsAreFinite_eq]
      exact hchecked
    next => cases hdecoded

theorem compressedFloat_sound {min max resolution value : F32} {position position' : Nat}
    {bits rest : List Bool}
    (h : (compressedFloat min max resolution).parse position bits = some (value, position', rest)) :
    (Operation.compressedFloat min max resolution).Legal ∧ Binary32.isFinite value = true := by
  simp only [compressedFloat, Decoder.bind_eq, declare_bind_parse] at h
  obtain ⟨⟨horder, hresolution⟩, hdelta, hquotient, hprecomputed⟩ := h
  exact ⟨⟨horder, hresolution, hdelta, hquotient⟩,
    (compressedFloatPrecomputed_sound hprecomputed).2⟩

end Decoders

/-- **Decoders validate.** What any operation's decoder accepts has a legal declaration and lies in
the domain it declares. -/
theorem Operation.decoder_sound {operation : Operation} {value : operation.Value}
    {position position' : Nat} {bits rest : List Bool}
    (h : operation.decoder.parse position bits = some (value, position', rest)) :
    operation.Legal ∧ operation.InDomain value := by
  by_cases hexact : operation.Exact
  · exact ((Operation.decoder_codes hexact _ _ _ _ _).mp h).1
  cases operation with
  | compressedFloat min max resolution => exact Decoders.compressedFloat_sound h
  | compressedFloatPrecomputed maxIntegerValue width delta min =>
      exact Decoders.compressedFloatPrecomputed_sound h
  | _ => exact (hexact trivial).elim

end Serialize
