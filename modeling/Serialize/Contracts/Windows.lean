import Serialize.Reader.Group

/-!
# Windows and groups

What the bit reader returns is the buffer's bits, whichever way it loads them: a field through one
slice or a guarded copy, a group out of one span or field by field.
-/

namespace Serialize

open Machine BitString

namespace BitReader

/-! ### One field -/

/-- **Both window loads give the packet's bits.** The slice and the guarded copy load one window, and
the field read through it is the number in the buffer's bits from the position on. -/
theorem reads_packet_bits (profile : Profile) {reader : BitReader} {width : U32}
    (hwidth : 1 ≤ width.toNat ∧ width.toNat ≤ 32)
    (hpacket : profile = .checked → reader.bitsRead + width.toNat ≤ reader.numBits)
    (hposition : reader.bitsRead + width.toNat < 2 ^ 64) :
    (∃ window : U64, window.toNat = fieldAt reader.data (8 * (reader.bitsRead / 8)) 64
        ∧ loadWindow (reader.bitsRead >>> 3) profile reader = .ok window reader
        ∧ loadWindowSlow (reader.bitsRead >>> 3) profile reader = .ok window reader)
      ∧ ∃ output : U32, output.toNat = fieldAt reader.data reader.bitsRead width.toNat
        ∧ readBits width profile reader
          = .ok output { reader with bitsRead := reader.bitsRead + width.toNat } := by
  have hbyte : reader.bitsRead >>> 3 = reader.bitsRead / 8 := Nat.shiftRight_eq_div_pow _ 3
  constructor
  · refine ⟨windowAt reader.data (reader.bitsRead / 8), ?_, ?_, ?_⟩
    · rw [windowAt, ofBits_drop_take, BitVec.toNat_ofNat, Nat.mod_eq_of_lt (fieldAt_lt ..)]
    · rw [hbyte]
      exact loadWindow_eq profile reader (by omega)
    · rw [hbyte]
      exact loadWindowSlow_eq profile reader _
  · refine ⟨_, ?_, readBits_of profile hwidth hpacket hposition⟩
    have hlt := fieldAt_lt reader.data reader.bitsRead width.toNat
    have hpow : 2 ^ width.toNat ≤ 2 ^ 32 := Nat.pow_le_pow_right (by decide) hwidth.2
    rw [ahead, ofBits_drop_take, BitVec.toNat_ofNat, Nat.mod_eq_of_lt (hlt.trans_le hpow)]

/-- Seven bits across two bytes, the last of them past the buffer. -/
theorem reads_packet_bits_past_end :
    (∃ window : U64, window.toNat = fieldAt [0xA5, 0x5A] (8 * (10 / 8)) 64
        ∧ loadWindow (10 >>> 3) .unchecked ⟨[0xA5, 0x5A], 16, 10⟩
          = .ok window ⟨[0xA5, 0x5A], 16, 10⟩
        ∧ loadWindowSlow (10 >>> 3) .unchecked ⟨[0xA5, 0x5A], 16, 10⟩
          = .ok window ⟨[0xA5, 0x5A], 16, 10⟩)
      ∧ ∃ output : U32, output.toNat = fieldAt [0xA5, 0x5A] 10 7
        ∧ readBits 7 .unchecked ⟨[0xA5, 0x5A], 16, 10⟩ = .ok output ⟨[0xA5, 0x5A], 16, 10 + 7⟩ :=
  @reads_packet_bits .unchecked ⟨[0xA5, 0x5A], 16, 10⟩ 7 (by decide)
    (fun hchecked => nomatch hchecked) (by decide)

/-! ### A group -/

/-- **The group read is the sequential read.** In the span of a short group every offset is left alone
by its mask and every window is inside. -/
theorem group_read_sequential (profile : Profile) {reader : BitReader} {widths : List U32}
    (hwidths : FieldWidths widths)
    (hstop : reader.bitsRead + totalWidth widths ≤ reader.numBits)
    (hnumBits : reader.numBits < 2 ^ 64) :
    (∃ values : List U32, values.length = widths.length
        ∧ readEach widths profile reader
          = .ok values { reader with bitsRead := reader.bitsRead + totalWidth widths }
        ∧ readBitsGroup widths profile reader
          = .ok values { reader with bitsRead := reader.bitsRead + totalWidth widths })
      ∧ (totalWidth widths ≤ 248 → ∀ first width rest, widths = first ++ width :: rest →
        ∀ position, position = (reader.bitsRead &&& 7) + totalWidth first →
          position >>> 3 &&& 31 = position >>> 3 ∧ position >>> 3 + 8 ≤ 40) := by
  constructor
  · exact ⟨_, length_fieldsOf .., readEach_eq profile hwidths hstop hnumBits,
      readBitsGroup_eq profile hwidths hstop hnumBits⟩
  · rintro hshort first width rest rfl position rfl
    have hshift : reader.bitsRead &&& 7 = reader.bitsRead % 8 :=
      Nat.and_two_pow_sub_one_eq_mod reader.bitsRead 3
    have hwidth := hwidths width (List.mem_append_right _ (List.mem_cons_self ..))
    rw [totalWidth_append, totalWidth_cons] at hshort
    have hlt : (reader.bitsRead &&& 7) + totalWidth first < 256 := by omega
    refine ⟨and_mask_offset hlt, ?_⟩
    rw [Nat.shiftRight_eq_div_pow]
    omega

/-- A group of three fields from the third bit on. -/
theorem group_read_three :
    (∃ values : List U32, values.length = 3
        ∧ readEach [1, 32, 7] .checked ⟨List.replicate 48 0x5A, 64, 3⟩
          = .ok values ⟨List.replicate 48 0x5A, 64, 3 + 40⟩
        ∧ readBitsGroup [1, 32, 7] .checked ⟨List.replicate 48 0x5A, 64, 3⟩
          = .ok values ⟨List.replicate 48 0x5A, 64, 3 + 40⟩)
      ∧ (totalWidth [1, 32, 7] ≤ 248 → ∀ first width rest, [1, 32, 7] = first ++ width :: rest →
        ∀ position, position = (3 &&& 7) + totalWidth first →
          position >>> 3 &&& 31 = position >>> 3 ∧ position >>> 3 + 8 ≤ 40) :=
  have hwidths : FieldWidths [1, 32, 7] := by simp [FieldWidths]
  @group_read_sequential .checked ⟨List.replicate 48 0x5A, 64, 3⟩ [1, 32, 7] hwidths
    (by decide) (by decide)

end BitReader

end Serialize
