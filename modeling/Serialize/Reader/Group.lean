import Serialize.Reader.Window

/-!
# A group of fields

A group is read field by field, or out of one span of 40 bytes when it is short and the buffer
reaches far enough. The span holds the windows of all its fields, so either way the fields are the
same stretches of the buffer's bits.
-/

namespace Serialize

open Machine BitString

/-- The widths of a group put end to end. -/
def totalWidth (widths : List U32) : Nat := (widths.map (·.toNat)).sum

/-- Every width of the group is one a field may have. -/
def FieldWidths (widths : List U32) : Prop :=
  ∀ width ∈ widths, 1 ≤ width.toNat ∧ width.toNat ≤ 32

/-- The fields a bit string holds, one behind the other. -/
def fieldsOf : List Bool → List U32 → List U32
  | _, [] => []
  | bits, width :: widths =>
      BitVec.ofNat 32 (ofBits (bits.take width.toNat)) :: fieldsOf (bits.drop width.toNat) widths

theorem length_fieldsOf (bits : List Bool) (widths : List U32) :
    (fieldsOf bits widths).length = widths.length := by
  induction widths generalizing bits with
  | nil => rfl
  | cons width widths ih => rw [fieldsOf, List.length_cons, ih, List.length_cons]

section Widths

variable {width : U32} {widths : List U32}

@[simp]
theorem totalWidth_nil : totalWidth [] = 0 := rfl

@[simp]
theorem totalWidth_cons : totalWidth (width :: widths) = width.toNat + totalWidth widths := rfl

theorem totalWidth_append (first second : List U32) :
    totalWidth (first ++ second) = totalWidth first + totalWidth second := by
  rw [totalWidth, List.map_append, List.sum_append]
  rfl

theorem FieldWidths.head (h : FieldWidths (width :: widths)) :
    1 ≤ width.toNat ∧ width.toNat ≤ 32 :=
  h width (List.mem_cons_self ..)

theorem FieldWidths.tail (h : FieldWidths (width :: widths)) : FieldWidths widths :=
  fun width' hwidth' => h width' (List.mem_cons_of_mem _ hwidth')

end Widths

namespace BitReader

variable {reader : BitReader} {widths : List U32}

theorem ahead_advance (reader : BitReader) (n : Nat) :
    ahead { reader with bitsRead := reader.bitsRead + n } = reader.ahead.drop n := by
  rw [ahead, ahead, List.drop_drop]

theorem readEach_eq (profile : Profile) (hwidths : FieldWidths widths)
    (hstop : reader.bitsRead + totalWidth widths ≤ reader.numBits)
    (hnumBits : reader.numBits < 2 ^ 64) : readEach widths profile reader
      = .ok (fieldsOf reader.ahead widths)
          { reader with bitsRead := reader.bitsRead + totalWidth widths } := by
  induction widths generalizing reader with
  | nil => rfl
  | cons width widths ih =>
      rw [totalWidth_cons] at hstop
      have hread := readBits_eq profile hwidths.head (show reader.bitsRead + width.toNat ≤ _ by omega)
        hnumBits
      have hrest := @ih { reader with bitsRead := reader.bitsRead + width.toNat } hwidths.tail
        (by dsimp only; omega) hnumBits
      rw [readEach, bind_apply, hread, Outcome.bind_ok, bind_apply, hrest, Outcome.bind_ok,
        pure_apply, ahead_advance, fieldsOf, totalWidth_cons]
      dsimp only
      rw [Nat.add_assoc]

theorem surveyWidths_eq (profile : Profile) (hwidths : FieldWidths widths) {worst : U32} {total : Nat}
    (hworst : worst < 32) (htotal : total + totalWidth widths < 2 ^ 64) :
    ∃ worst' < 32, surveyWidths widths worst total profile reader
      = .ok (worst', total + totalWidth widths) reader := by
  induction widths generalizing worst total with
  | nil => exact ⟨worst, hworst, rfl⟩
  | cons width widths ih =>
      rw [totalWidth_cons, ← Nat.add_assoc] at htotal
      have hnext : (if worst < width - 1 then width - 1 else worst) < 32 := by
        split
        · exact (wrapping_pred_lt_iff width).mpr hwidths.head
        · exact hworst
      obtain ⟨worst', hworst', hsurvey⟩ := ih hwidths.tail hnext htotal
      refine ⟨worst', hworst', ?_⟩
      rw [surveyWidths, bind_apply, checkedAdd_of (by omega), Outcome.bind_ok, hsurvey,
        totalWidth_cons, Nat.add_assoc]

/-! ### The span -/

/-- On the offsets of a group of at most 248 bits the mask does nothing. -/
theorem and_mask_offset {position : Nat} (h : position < 256) :
    position >>> 3 &&& 31 = position >>> 3 := by
  have hoffset : position >>> 3 = position / 8 := Nat.shiftRight_eq_div_pow _ 3
  rw [hoffset, Nat.and_two_pow_sub_one_eq_mod _ 5, Nat.mod_eq_of_lt]
  omega

theorem window_of_span (data : List U8) {base off : Nat} (hoff : off + 8 ≤ 40) :
    fromLeBytes ((((data.drop base).take 40).drop off).take 8) = windowAt data (base + off) := by
  rw [windowAt_eq, List.drop_take, List.take_take, List.drop_drop, Nat.min_eq_left (by omega)]

/-- Out of the span, the fields are the stretches ahead. -/
theorem readSpan_eq (profile : Profile) {data : List U8} {base position : Nat}
    (hspan : ((data.drop base).take 40).length = 40) (hwidths : FieldWidths widths)
    (hposition : position + totalWidth widths < 256) :
    readSpan ((data.drop base).take 40) widths position profile reader
      = .ok (fieldsOf ((bitsOfOctets data).drop (8 * base + position)) widths) reader := by
  induction widths generalizing position with
  | nil => rfl
  | cons width widths ih =>
      rw [totalWidth_cons] at hposition
      obtain ⟨hpos, hle⟩ := hwidths.head
      have hoffset : position >>> 3 = position / 8 := Nat.shiftRight_eq_div_pow _ 3
      have hmask := @and_mask_offset position (by omega)
      rw [hoffset] at hmask
      have hshift : position &&& 7 = position % 8 := Nat.and_two_pow_sub_one_eq_mod position 3
      have hrest := @ih (position + width.toNat) hwidths.tail (by omega)
      have hahead : (bitsOfOctets data).drop (8 * base + position)
          = ((bitsOfOctets data).drop (8 * (base + position / 8))).drop (position % 8) := by
        rw [List.drop_drop]
        congr 1
        omega
      rw [readSpan]
      simp only [bind_apply, hoffset, hmask, hshift,
        checkedAdd_of (show position / 8 + 8 < 2 ^ 64 by omega), Outcome.bind_ok, hspan,
        require_of (show position / 8 ≤ position / 8 + 8 ∧ position / 8 + 8 ≤ 40 by omega),
        window_of_span data (show position / 8 + 8 ≤ 40 by omega),
        shiftAmount_of (show position % 8 < 64 by omega),
        lowMask_of (show width.toNat < 64 by omega),
        checkedAdd_of (show position + width.toNat < 2 ^ 32 by omega), hrest, pure_apply]
      rw [windowAt, field_of_window _ (by omega) hle, ← hahead, fieldsOf, List.drop_drop,
        Nat.add_assoc]

/-- Either way the group is read, the fields are the stretches ahead. -/
theorem readBitsGroup_eq (profile : Profile) (hwidths : FieldWidths widths)
    (hstop : reader.bitsRead + totalWidth widths ≤ reader.numBits)
    (hnumBits : reader.numBits < 2 ^ 64) : readBitsGroup widths profile reader
      = .ok (fieldsOf reader.ahead widths)
          { reader with bitsRead := reader.bitsRead + totalWidth widths } := by
  have heach := readEach_eq profile hwidths hstop hnumBits
  have htotal : reader.bitsRead + totalWidth widths < 2 ^ 64 := hstop.trans_lt hnumBits
  obtain ⟨worst, hworst, hsurvey⟩ :=
    @surveyWidths_eq reader widths profile hwidths 0 0 (by decide) (by omega)
  rw [Nat.zero_add] at hsurvey
  have hchecked : (inChecked do
      let stop ← checkedAdd 64 reader.bitsRead (totalWidth widths)
      require (stop ≤ reader.numBits) : Action BitReader Unit) profile reader = .ok () reader := by
    apply inChecked_of_ok
    rw [bind_apply, checkedAdd_of htotal, Outcome.bind_ok, require_of hstop]
  have hbase : reader.bitsRead >>> 3 = reader.bitsRead / 8 := Nat.shiftRight_eq_div_pow _ 3
  have hshift : reader.bitsRead &&& 7 = reader.bitsRead % 8 :=
    Nat.and_two_pow_sub_one_eq_mod reader.bitsRead 3
  simp only [readBitsGroup, bind_apply, getState_apply, Outcome.bind_ok, hsurvey,
    debugAssert_of hworst, hchecked, hbase, hshift, ite_comp_apply,
    checkedAdd_of (show reader.bitsRead / 8 + 40 < 2 ^ 64 by omega)]
  split
  · next hshort =>
    split
    · next hreaches =>
      have hspan : ((reader.data.drop (reader.bitsRead / 8)).take 40).length = 40 := by
        rw [List.length_take, List.length_drop]
        omega
      have hfields := @readSpan_eq reader widths profile reader.data (reader.bitsRead / 8)
        (reader.bitsRead % 8) hspan hwidths (by omega)
      rw [Nat.div_add_mod] at hfields
      simp only [require_of hspan, Outcome.bind_ok, hfields, checkedAdd_of htotal, setState_apply,
        pure_apply]
      rfl
    · exact heach
  · exact heach

end BitReader

end Serialize
