import Serialize.Model.BitPacker

/-!
# Windows are bits

A window of 64 bits starting at a byte is the same number whether it is loaded by one slice or by
the guarded copy: the bits of the buffer from that byte on, the bits past the buffer counting as
zero. A field read through a window is therefore a stretch of the buffer's bits.
-/

namespace Serialize

open Machine BitString

theorem bits_replicate_zero (n : Nat) :
    bitsOfOctets (List.replicate n 0) = List.replicate (8 * n) false := by
  induction n with
  | zero => rfl
  | succ n ih =>
      rw [List.replicate_succ, bitsOfOctets_cons, ih, show (0 : U8).toNat = 0 from rfl, toBits_zero,
        List.replicate_append_replicate]
      congr 1
      ring

theorem fromLeBytes_eq (bytes : List U8) :
    fromLeBytes bytes = BitVec.ofNat 64 (ofBits (bitsOfOctets bytes)) := by
  rw [fromLeBytes, leNat_eq_ofBits]

/-- The number in the 64 bits from a byte of the buffer on. -/
def windowAt (data : List U8) (byteIndex : Nat) : U64 :=
  BitVec.ofNat 64 (ofBits (((bitsOfOctets data).drop (8 * byteIndex)).take 64))

theorem windowAt_eq (data : List U8) (byteIndex : Nat) :
    windowAt data byteIndex = fromLeBytes ((data.drop byteIndex).take 8) := by
  rw [windowAt, fromLeBytes_eq, bitsOfOctets_take, bitsOfOctets_drop]

theorem fromLeBytes_padded (tail : List U8) (n : Nat) :
    fromLeBytes (tail ++ List.replicate n 0) = fromLeBytes tail := by
  rw [fromLeBytes_eq, fromLeBytes_eq, bitsOfOctets_append, ofBits_append, bits_replicate_zero,
    ofBits_replicate_false, Nat.mul_zero, Nat.add_zero]

namespace BitReader

theorem loadWindowSlow_eq (profile : Profile) (reader : BitReader) (byteIndex : Nat) :
    loadWindowSlow byteIndex profile reader = .ok (windowAt reader.data byteIndex) reader := by
  have hdrop : reader.data.drop (min byteIndex reader.data.length) = reader.data.drop byteIndex := by
    rcases Nat.le_total byteIndex reader.data.length with h | h
    · rw [Nat.min_eq_left h]
    · rw [Nat.min_eq_right h, List.drop_length, List.drop_eq_nil_of_le h]
  set tail := reader.data.drop byteIndex with htail
  have hfilled : copyFromSlice (List.replicate 8 0) 0 (tail.take (min tail.length 8))
      = tail.take 8 ++ List.replicate (8 - min 8 tail.length) 0 := by
    have htake : tail.take (min tail.length 8) = tail.take 8 := by
      rw [Nat.min_comm, ← List.take_take, List.take_length]
    rw [copyFromSlice, htake, List.take_zero, List.nil_append, Nat.zero_add, List.length_take,
      List.drop_replicate]
  simp only [loadWindowSlow, bind_apply, getState_apply, Outcome.bind_ok, pure_apply, hdrop]
  rw [require_of (Nat.min_le_right _ _), Outcome.bind_ok,
    require_of ⟨Nat.min_le_left _ _, Nat.min_le_right _ _⟩, Outcome.bind_ok, hfilled,
    fromLeBytes_padded, windowAt_eq]

theorem loadWindow_eq (profile : Profile) (reader : BitReader) {byteIndex : Nat}
    (h : byteIndex + 8 < 2 ^ 64) :
    loadWindow byteIndex profile reader = .ok (windowAt reader.data byteIndex) reader := by
  simp only [loadWindow, bind_apply, checkedAdd_of h, Outcome.bind_ok, getState_apply, ite_comp_apply]
  split
  · next hfits =>
    have hlength : ((reader.data.drop byteIndex).take 8).length = 8 := by
      rw [List.length_take, List.length_drop]
      omega
    rw [require_of hlength, Outcome.bind_ok, pure_apply, windowAt_eq]
  · exact loadWindowSlow_eq profile reader byteIndex

end BitReader

/-! ### A field in a window -/

theorem toNat_lowMask {n : Nat} (h : n < 64) : ((1#64 <<< n) - 1#64).toNat = 2 ^ n - 1 := by
  have hpow : 2 ^ n < 2 ^ 64 := Nat.pow_lt_pow_right (by decide) h
  have hpos : 0 < 2 ^ n := Nat.two_pow_pos n
  rw [BitVec.toNat_sub, BitVec.toNat_shiftLeft, BitVec.toNat_ofNat, Nat.shiftLeft_eq,
    Nat.mod_eq_of_lt (by decide : 1 < 2 ^ 64), Nat.one_mul, Nat.mod_eq_of_lt hpow]
  omega

/-- Shifting and masking a window picks a stretch of its bits. -/
theorem field_of_window (bits : List Bool) {shift width : Nat} (hshift : shift + width ≤ 64)
    (hwidth : width ≤ 32) :
    ((BitVec.ofNat 64 (ofBits (bits.take 64)) >>> shift).setWidth 32
        &&& ((1#64 <<< width) - 1#64).setWidth 32 : U32)
      = BitVec.ofNat 32 (ofBits ((bits.drop shift).take width)) := by
  have hwindow : ofBits (bits.take 64) < 2 ^ 64 :=
    (ofBits_lt _).trans_le (Nat.pow_le_pow_right (by decide) (List.length_take_le _ _))
  have hpow : 2 ^ width ≤ 2 ^ 32 := Nat.pow_le_pow_right (by decide) hwidth
  have hpos : 0 < 2 ^ width := Nat.two_pow_pos width
  have hstretch : (bits.drop shift).take width = ((bits.take 64).drop shift).take width := by
    rw [List.drop_take, List.take_take, Nat.min_eq_left (by omega)]
  apply BitVec.eq_of_toNat_eq
  rw [BitVec.toNat_and, BitVec.toNat_setWidth, BitVec.toNat_setWidth, BitVec.toNat_ushiftRight,
    BitVec.toNat_ofNat, Nat.mod_eq_of_lt hwindow, toNat_lowMask (by omega),
    Nat.mod_eq_of_lt (by omega : 2 ^ width - 1 < 2 ^ 32), Nat.and_two_pow_sub_one_eq_mod,
    Nat.mod_mod_of_dvd _ (Nat.pow_dvd_pow 2 hwidth), Nat.shiftRight_eq_div_pow, BitVec.toNat_ofNat,
    hstretch, ofBits_take _ width, ofBits_drop]
  exact (Nat.mod_eq_of_lt ((Nat.mod_lt _ hpos).trans_le hpow)).symm

namespace BitReader

/-- The bits the reader has yet to read, slack included. -/
def ahead (reader : BitReader) : List Bool := (bitsOfOctets reader.data).drop reader.bitsRead

/-- What a field's read gives and where it leaves the reader, `stop` being the end of the field in
64 bits. -/
theorem readBits_to (profile : Profile) {reader : BitReader} {width : U32} {stop : Nat}
    (hwidth : 1 ≤ width.toNat ∧ width.toNat ≤ 32) (hposition : reader.bitsRead < 2 ^ 64)
    (hpacket : profile = .checked → stop ≤ reader.numBits)
    (hstop : ∀ state, (checkedAdd 64 reader.bitsRead width.toNat : Action BitReader Nat) profile state
      = .ok stop state) :
    readBits width profile reader
      = .ok (BitVec.ofNat 32 (ofBits (reader.ahead.take width.toNat)))
          { reader with bitsRead := stop } := by
  have hshift : reader.bitsRead &&& 7 = reader.bitsRead % 8 :=
    Nat.and_two_pow_sub_one_eq_mod reader.bitsRead 3
  have hbyte : reader.bitsRead >>> 3 = reader.bitsRead / 8 := Nat.shiftRight_eq_div_pow _ 3
  have hahead : reader.ahead
      = ((bitsOfOctets reader.data).drop (8 * (reader.bitsRead / 8))).drop (reader.bitsRead % 8) := by
    rw [ahead, List.drop_drop, Nat.div_add_mod]
  have hchecked : (inChecked do
      let stop ← checkedAdd 64 reader.bitsRead width.toNat
      require (stop ≤ reader.numBits) : Action BitReader Unit) profile reader = .ok () reader := by
    rcases profile with build | -
    · cases build with
      | checked => rw [inChecked, bind_apply, hstop, Outcome.bind_ok, require_of (hpacket rfl)]
      | unchecked => rfl
    · rfl
  simp only [readBits, bind_apply, getState_apply, Outcome.bind_ok,
    debugAssert_of ((wrapping_pred_lt_iff width).mpr hwidth), hchecked, hshift, hbyte,
    loadWindow_eq profile reader (show reader.bitsRead / 8 + 8 < 2 ^ 64 by omega),
    shiftAmount_of (show reader.bitsRead % 8 < 64 by omega),
    lowMask_of (show width.toNat < 64 by omega), hstop, setState_apply, pure_apply]
  rw [windowAt, field_of_window _ (by omega) hwidth.2, hahead]

/-- **A field is a stretch of the buffer's bits.** The read advances by exactly its width. Only the
checked build minds where the packet ends. -/
theorem readBits_of (profile : Profile) {reader : BitReader} {width : U32}
    (hwidth : 1 ≤ width.toNat ∧ width.toNat ≤ 32)
    (hstop : profile = .checked → reader.bitsRead + width.toNat ≤ reader.numBits)
    (hadd : reader.bitsRead + width.toNat < 2 ^ 64) :
    readBits width profile reader
      = .ok (BitVec.ofNat 32 (ofBits (reader.ahead.take width.toNat)))
          { reader with bitsRead := reader.bitsRead + width.toNat } :=
  readBits_to profile hwidth (by omega) hstop (checkedAdd_of hadd profile)

theorem readBits_eq (profile : Profile) {reader : BitReader} {width : U32}
    (hwidth : 1 ≤ width.toNat ∧ width.toNat ≤ 32)
    (hstop : reader.bitsRead + width.toNat ≤ reader.numBits) (hnumBits : reader.numBits < 2 ^ 64) :
    readBits width profile reader
      = .ok (BitVec.ofNat 32 (ofBits (reader.ahead.take width.toNat)))
          { reader with bitsRead := reader.bitsRead + width.toNat } :=
  readBits_of profile hwidth (fun _ => hstop) (hstop.trans_lt hnumBits)

end BitReader

end Serialize
