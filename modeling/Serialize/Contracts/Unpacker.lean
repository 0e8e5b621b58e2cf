import Serialize.Contracts.Packer
import Serialize.Reader.Group
import Serialize.Reader.Primitives

/-!
# The unpacker reads back a bit list

Whatever fields, groups, aligns and byte runs are read from a bit reader, and at whatever offsets,
their answers are the stretches of the packet's bits, and a checked build panics exactly where a
read would pass the packet. So what a bit writer packed, the calls of the same shapes unpack.
-/

namespace Serialize

open Machine BitString

namespace BitReader

/-- A call of the reader. -/
inductive Call where
  | bits (width : U32)
  | group (widths : List U32)
  | align
  | bytes (count : Nat)
  | byteSlice (count : Nat)
  deriving DecidableEq, Repr

/-- What a call comes back with. -/
inductive Answer where
  | value (value : U32)
  | values (values : List U32)
  | zeros (zeros : Bool)
  | bytes (data : List U8)
  deriving DecidableEq, Repr

namespace Call

def run : Call → Action BitReader Answer
  | .bits width => do
      let value ← readBits width
      pure (.value value)
  | .group widths => do
      let values ← readBitsGroup widths
      pure (.values values)
  | .align => do
      let zeros ← readAlign
      pure (.zeros zeros)
  | .bytes count => do
      let data ← readBytes count
      pure (.bytes data)
  | .byteSlice count => do
      let data ← readByteSlice count
      pure (.bytes data)

/-- What the caller owes a call at a position. -/
def Legal (position : Nat) : Call → Prop
  | .bits width => 1 ≤ width.toNat ∧ width.toNat ≤ 32
  | .group widths => FieldWidths widths
  | .align => True
  | .bytes _ => position % 8 = 0
  | .byteSlice _ => position % 8 = 0

/-- How many bits a call reads at a position. -/
def width (position : Nat) : Call → Nat
  | .bits width => width.toNat
  | .group widths => totalWidth widths
  | .align => (8 - position % 8) % 8
  | .bytes count => 8 * count
  | .byteSlice count => 8 * count

/-- The answer of a call that has these bits ahead of it at a position. -/
def answer (ahead : List Bool) (position : Nat) : Call → Answer
  | .bits width => .value (BitVec.ofNat 32 (ofBits (ahead.take width.toNat)))
  | .group widths => .values (fieldsOf ahead widths)
  | .align => .zeros (decide (true ∉ ahead.take ((8 - position % 8) % 8)))
  | .bytes count => .bytes (octetsOfBits count ahead)
  | .byteSlice count => .bytes (octetsOfBits count ahead)

end Call

def runAll : List Call → Action BitReader (List Answer)
  | [] => pure []
  | call :: calls => do
      let answer ← call.run
      let answers ← runAll calls
      pure (answer :: answers)

def AllLegal : Nat → List Call → Prop
  | _, [] => True
  | position, call :: calls => call.Legal position ∧ AllLegal (position + call.width position) calls

/-- Where the calls end that start at a position. -/
def endOf : Nat → List Call → Nat
  | position, [] => position
  | position, call :: calls => endOf (position + call.width position) calls

/-- The answers of calls that start at a position of a bit list. -/
def answerAll (bits : List Bool) : Nat → List Call → List Answer
  | _, [] => []
  | position, call :: calls =>
      call.answer (bits.drop position) position :: answerAll bits (position + call.width position) calls

theorem le_endOf (position : Nat) (calls : List Call) : position ≤ endOf position calls := by
  induction calls generalizing position with
  | nil => exact Nat.le_refl _
  | cons call calls ih => exact (Nat.le_add_right _ _).trans (ih _)

/-! ### One call -/

section Reader

variable {profile : Profile} {reader : BitReader}

/-- The reader after it read `n` bits. -/
def advance (reader : BitReader) (n : Nat) : BitReader := { reader with bitsRead := reader.bitsRead + n }

theorem readAlign_eq (hnumBits : reader.numBits < 2 ^ 64)
    (hstop : reader.bitsRead + (8 - reader.bitsRead % 8) % 8 ≤ reader.numBits) :
    readAlign profile reader
      = .ok (decide (true ∉ reader.ahead.take ((8 - reader.bitsRead % 8) % 8)))
          (reader.advance ((8 - reader.bitsRead % 8) % 8)) := by
  by_cases hremainder : reader.bitsRead % 8 = 0
  · have hzero : (8 - reader.bitsRead % 8) % 8 = 0 := by omega
    simp only [readAlign, bind_apply, getState_apply, Outcome.bind_ok, hremainder, ne_eq,
      not_true_eq_false, if_false, pure_apply]
    rfl
  · have hpadding : (8 - reader.bitsRead % 8) % 8 = 8 - reader.bitsRead % 8 := by omega
    have hwidth : (BitVec.ofNat 32 (8 - reader.bitsRead % 8)).toNat = 8 - reader.bitsRead % 8 := by
      rw [BitVec.toNat_ofNat]
      omega
    have hread := @readBits_eq profile reader (BitVec.ofNat 32 (8 - reader.bitsRead % 8))
      (by rw [hwidth]; omega) (by rw [hwidth]; omega) hnumBits
    have haligned : (reader.bitsRead + (8 - reader.bitsRead % 8)) % 8 = 0 := by omega
    have hlength : (reader.ahead.take (8 - reader.bitsRead % 8)).length ≤ 32 := by
      rw [List.length_take]
      omega
    have hvalue : BitVec.ofNat 32 (ofBits (reader.ahead.take (8 - reader.bitsRead % 8))) = 0
        ↔ true ∉ reader.ahead.take (8 - reader.bitsRead % 8) := by
      rw [ofNat_ofBits_eq_zero_iff hlength, ← not_iff_not, not_not]
      exact ofBits_ne_zero_iff _
    rw [hwidth] at hread
    simp only [readAlign, bind_apply, getState_apply, Outcome.bind_ok, hremainder, ne_eq,
      not_false_eq_true, if_true, hread, debugAssert_of haligned, pure_apply, hpadding, hvalue]
    rfl

theorem readByteSlice_eq {count : Nat} (hnumBits : reader.numBits < 2 ^ 64)
    (hdata : reader.numBits ≤ 8 * reader.data.length) (haligned : reader.bitsRead % 8 = 0)
    (hstop : reader.bitsRead + 8 * count ≤ reader.numBits) :
    readByteSlice count profile reader
      = .ok (octetsOfBits count reader.ahead) (reader.advance (8 * count)) := by
  have hstart : reader.bitsRead >>> 3 = reader.bitsRead / 8 := Nat.shiftRight_eq_div_pow _ 3
  have hslice : (reader.data.drop (reader.bitsRead / 8)).take count
      = octetsOfBits count reader.ahead := by
    have hahead : 8 * count ≤ reader.ahead.length := by
      rw [ahead, List.length_drop, length_bitsOfOctets]
      omega
    apply bitsOfOctets_injective
    rw [bitsOfOctets_octetsOfBits hahead, bitsOfOctets_take, bitsOfOctets_drop, ahead,
      Nat.mul_div_cancel' (Nat.dvd_of_mod_eq_zero haligned)]
  have hboundary : reader.alignBits = 0 := by
    rw [BitReader.alignBits, haligned]
  have hmul : count * 8 < 2 ^ 64 := by omega
  have hadd : reader.bitsRead + count * 8 < 2 ^ 64 := by omega
  have hchecked : (inChecked do
      let payload ← checkedMul 64 count 8
      let stop ← checkedAdd 64 reader.bitsRead payload
      require (stop ≤ reader.numBits) : Action BitReader Unit) profile reader = .ok () reader := by
    refine inChecked_of_ok ?_
    rw [bind_apply, checkedMul_of hmul, Outcome.bind_ok, bind_apply, checkedAdd_of hadd,
      Outcome.bind_ok, require_of (by omega)]
  simp only [readByteSlice, bind_apply, getState_apply, Outcome.bind_ok, debugAssert_of hboundary,
    hchecked, checkedMul_of hmul, checkedAdd_of hadd, setState_apply, hstart,
    checkedAdd_of (show reader.bitsRead / 8 + count < 2 ^ 64 by omega),
    require_of (show reader.bitsRead / 8 ≤ reader.bitsRead / 8 + count
      ∧ reader.bitsRead / 8 + count ≤ reader.data.length by omega), pure_apply, hslice]
  rw [Nat.mul_comm count 8]
  rfl

theorem readBytes_eq {count : Nat} (hnumBits : reader.numBits < 2 ^ 64)
    (hdata : reader.numBits ≤ 8 * reader.data.length) (haligned : reader.bitsRead % 8 = 0)
    (hstop : reader.bitsRead + 8 * count ≤ reader.numBits) :
    readBytes count profile reader
      = .ok (octetsOfBits count reader.ahead) (reader.advance (8 * count)) := by
  rw [readBytes, bind_apply, readByteSlice_eq hnumBits hdata haligned hstop, Outcome.bind_ok, bind_apply,
    require_of (length_octetsOfBits _ _)]
  rfl

/-- A reader whose packet lies in its buffer. -/
structure Inside (reader : BitReader) : Prop where
  numBits_lt : reader.numBits < 2 ^ 64
  numBits_le : reader.numBits ≤ 8 * reader.data.length

theorem Inside.advance (h : reader.Inside) (n : Nat) : (reader.advance n).Inside :=
  ⟨h.numBits_lt, h.numBits_le⟩

/-- A call that stays in the packet gives the bits ahead of it, under whichever profile. -/
theorem Call.run_eq (hinside : reader.Inside) {call : Call} (hlegal : call.Legal reader.bitsRead)
    (hstop : reader.bitsRead + call.width reader.bitsRead ≤ reader.numBits) :
    call.run profile reader = .ok (call.answer reader.ahead reader.bitsRead)
      (reader.advance (call.width reader.bitsRead)) := by
  obtain ⟨hnumBits, hdata⟩ := hinside
  cases call with
  | bits width => rw [run, bind_apply, readBits_eq profile hlegal hstop hnumBits]; rfl
  | group widths => rw [run, bind_apply, readBitsGroup_eq profile hlegal hstop hnumBits]; rfl
  | align => rw [run, bind_apply, readAlign_eq hnumBits hstop]; rfl
  | bytes count => rw [run, bind_apply, readBytes_eq hnumBits hdata hlegal hstop]; rfl
  | byteSlice count => rw [run, bind_apply, readByteSlice_eq hnumBits hdata hlegal hstop]; rfl

/-! ### Past the packet -/

/-- The checked build does not get past a stop beyond the packet. -/
theorem stop_past {position width numBits : Nat} (h : numBits < position + width) :
    ¬((do
      let stop ← checkedAdd 64 position width
      require (stop ≤ numBits) : Action BitReader Unit) .checked reader).Returned := by
  by_cases hadd : position + width < 2 ^ 64
  · rw [bind_apply, checkedAdd_of hadd, Outcome.bind_ok, require_of_not (by omega)]
    exact not_false
  · rw [bind_apply, checkedAdd_of_not hadd]
    exact not_false

theorem readBits_past {width : U32} (h : reader.numBits < reader.bitsRead + width.toNat)
    (hwidth : 1 ≤ width.toNat ∧ width.toNat ≤ 32) :
    ¬(readBits width .checked reader).Returned := by
  rw [readBits, bind_apply, getState_apply, Outcome.bind_ok, bind_apply,
    debugAssert_of ((wrapping_pred_lt_iff width).mpr hwidth), Outcome.bind_ok, bind_apply]
  exact Outcome.not_returned_bind (stop_past h) _

theorem surveyWidths_returned {widths : List U32} {worst : U32} {total : Nat}
    (h : (surveyWidths widths worst total .checked reader).Returned) :
    ∃ worst', surveyWidths widths worst total .checked reader
      = .ok (worst', total + totalWidth widths) reader := by
  induction widths generalizing worst total with
  | nil => exact ⟨worst, rfl⟩
  | cons width widths ih =>
      by_cases hadd : total + width.toNat < 2 ^ 64
      · rw [surveyWidths, bind_apply, checkedAdd_of hadd, Outcome.bind_ok] at h ⊢
        obtain ⟨worst', hsurvey⟩ := ih h
        exact ⟨worst', by rw [hsurvey, totalWidth_cons, Nat.add_assoc]⟩
      · rw [surveyWidths, bind_apply, checkedAdd_of_not hadd] at h
        exact h.elim

theorem readBitsGroup_past {widths : List U32}
    (h : reader.numBits < reader.bitsRead + totalWidth widths) :
    ¬(readBitsGroup widths .checked reader).Returned := by
  rw [readBitsGroup, bind_apply, getState_apply, Outcome.bind_ok, bind_apply]
  by_cases hsurvey : (surveyWidths widths 0 0 .checked reader).Returned
  · obtain ⟨worst, heq⟩ := surveyWidths_returned hsurvey
    rw [heq, Outcome.bind_ok, Nat.zero_add]
    dsimp only
    by_cases hworst : worst < 32
    · rw [bind_apply, debugAssert_of hworst, Outcome.bind_ok, bind_apply]
      exact Outcome.not_returned_bind (stop_past h) _
    · rw [bind_apply, debugAssert_checked_of_not hworst]
      exact not_false
  · exact Outcome.not_returned_bind hsurvey _

theorem readByteSlice_past {count : Nat} (haligned : reader.bitsRead % 8 = 0)
    (h : reader.numBits < reader.bitsRead + 8 * count) :
    ¬(readByteSlice count .checked reader).Returned := by
  have hboundary : reader.alignBits = 0 := by
    rw [BitReader.alignBits, haligned]
  rw [readByteSlice, bind_apply, getState_apply, Outcome.bind_ok, bind_apply, debugAssert_of hboundary,
    Outcome.bind_ok, bind_apply]
  refine Outcome.not_returned_bind ?_ _
  rw [inChecked, bind_apply]
  by_cases hmul : count * 8 < 2 ^ 64
  · rw [checkedMul_of hmul, Outcome.bind_ok]
    exact stop_past (by omega)
  · rw [checkedMul_of_not hmul]
    exact not_false

theorem Call.run_past (hwhole : reader.numBits % 8 = 0) (hle : reader.bitsRead ≤ reader.numBits)
    {call : Call} (hlegal : call.Legal reader.bitsRead)
    (hpast : reader.numBits < reader.bitsRead + call.width reader.bitsRead) :
    ¬(call.run .checked reader).Returned := by
  cases call with
  | bits width => exact Outcome.not_returned_bind (readBits_past hpast hlegal) _
  | group widths => exact Outcome.not_returned_bind (readBitsGroup_past hpast) _
  | align =>
      rw [width] at hpast
      omega
  | bytes count =>
      exact Outcome.not_returned_bind (Outcome.not_returned_bind (readByteSlice_past hlegal hpast) _) _
  | byteSlice count => exact Outcome.not_returned_bind (readByteSlice_past hlegal hpast) _

/-! ### A run of calls -/

theorem runAll_eq (hinside : reader.Inside) {calls : List Call}
    (hlegal : AllLegal reader.bitsRead calls) (hstop : endOf reader.bitsRead calls ≤ reader.numBits) :
    runAll calls profile reader = .ok (answerAll (bitsOfOctets reader.data) reader.bitsRead calls)
      { reader with bitsRead := endOf reader.bitsRead calls } := by
  induction calls generalizing reader with
  | nil => rfl
  | cons call calls ih =>
      have hfits := (le_endOf (reader.bitsRead + call.width reader.bitsRead) calls).trans hstop
      rw [runAll, bind_apply, call.run_eq hinside hlegal.1 hfits, Outcome.bind_ok, bind_apply,
        ih (hinside.advance _) hlegal.2 hstop, Outcome.bind_ok]
      rfl

theorem runAll_returned_iff (hinside : reader.Inside) (hwhole : reader.numBits % 8 = 0)
    (hle : reader.bitsRead ≤ reader.numBits) {calls : List Call}
    (hlegal : AllLegal reader.bitsRead calls) :
    (runAll calls .checked reader).Returned ↔ endOf reader.bitsRead calls ≤ reader.numBits := by
  induction calls generalizing reader with
  | nil => exact ⟨fun _ => hle, fun _ => trivial⟩
  | cons call calls ih =>
      by_cases hfits : reader.bitsRead + call.width reader.bitsRead ≤ reader.numBits
      · rw [runAll, bind_apply, call.run_eq hinside hlegal.1 hfits, Outcome.bind_ok, bind_apply]
        refine Iff.trans ?_ (ih (hinside.advance _) hwhole hfits hlegal.2)
        cases runAll calls .checked (reader.advance (call.width reader.bitsRead)) with
        | ok answers reader' => exact Iff.rfl
        | err error reader' => exact Iff.rfl
        | trap reader' => exact Iff.rfl
      · have hpast := call.run_past hwhole hle hlegal.1 (Nat.lt_of_not_le hfits)
        constructor
        · intro h
          exact (Outcome.not_returned_bind hpast _ h).elim
        · intro h
          exact (hfits ((le_endOf _ calls).trans h)).elim

end Reader

/-! ### The packet's own bits -/

theorem fieldsOf_take {bits : List Bool} {widths : List U32} {n : Nat} (h : totalWidth widths ≤ n) :
    fieldsOf (bits.take n) widths = fieldsOf bits widths := by
  induction widths generalizing bits n with
  | nil => rfl
  | cons width widths ih =>
      rw [totalWidth_cons] at h
      rw [fieldsOf, fieldsOf, List.take_take, Nat.min_eq_left (by omega), List.drop_take,
        ih (by omega)]

/-- A call looks no further than its own bits. -/
theorem Call.answer_take {ahead : List Bool} {position n : Nat} {call : Call}
    (h : call.width position ≤ n) : call.answer (ahead.take n) position = call.answer ahead position := by
  have hoctets : ∀ count, 8 * count ≤ n →
      octetsOfBits count (ahead.take n) = octetsOfBits count ahead := by
    intro count hcount
    rw [← octetsOfBits_take, List.take_take, Nat.min_eq_left hcount, octetsOfBits_take]
  cases call with
  | bits width =>
      rw [Call.width] at h
      rw [answer, answer, List.take_take, Nat.min_eq_left h]
  | group widths => rw [answer, answer, fieldsOf_take h]
  | align =>
      rw [Call.width] at h
      rw [answer, answer, List.take_take, Nat.min_eq_left h]
  | bytes count => rw [answer, answer, hoctets count h]
  | byteSlice count => rw [answer, answer, hoctets count h]

theorem answerAll_take {bits : List Bool} {position limit : Nat} {calls : List Call}
    (h : endOf position calls ≤ limit) :
    answerAll (bits.take limit) position calls = answerAll bits position calls := by
  induction calls generalizing position with
  | nil => rfl
  | cons call calls ih =>
      have hfits := (le_endOf (position + call.width position) calls).trans h
      rw [answerAll, answerAll, ih h, List.drop_take, Call.answer_take (by omega)]

section Packet

variable {buffer : List U8} {bytes : Nat} {build : Build} {reader : BitReader}

theorem new_eq_ok (hbytes : bytes ≤ buffer.length) (hnew : BitReader.new buffer bytes build () = .ok reader ()) :
    bytes * 8 < 2 ^ 64 ∧ reader = { data := buffer, numBits := bytes * 8, bitsRead := 0 } := by
  by_cases hnumBits : bytes * 8 < 2 ^ 64
  · rw [BitReader.new, bind_apply, debugAssert_of hbytes, Outcome.bind_ok, bind_apply,
      checkedMul_of hnumBits] at hnew
    cases hnew
    exact ⟨hnumBits, rfl⟩
  · rw [BitReader.new, bind_apply, debugAssert_of hbytes, Outcome.bind_ok, bind_apply,
      checkedMul_of_not hnumBits] at hnew
    cases hnew

/-- **The reader gives the packet's bits back.** Calls that stay in the packet answer with its bits,
whatever lies behind it and under every profile, and a checked build comes back from no others. -/
theorem reads_bit_list {calls : List Call} (hbytes : bytes ≤ buffer.length)
    (hnew : BitReader.new buffer bytes build () = .ok reader ()) (hlegal : AllLegal 0 calls)
    (profile : Profile) :
    (endOf 0 calls ≤ 8 * bytes → runAll calls profile reader
        = .ok (answerAll (bitsOfOctets (buffer.take bytes)) 0 calls)
            { reader with bitsRead := endOf 0 calls })
      ∧ ((runAll calls .checked reader).Returned ↔ endOf 0 calls ≤ 8 * bytes) := by
  obtain ⟨hnumBits, rfl⟩ := new_eq_ok hbytes hnew
  set reader : BitReader := { data := buffer, numBits := bytes * 8, bitsRead := 0 } with hreader
  have hinside : reader.Inside := by
    refine ⟨hnumBits, ?_⟩
    show bytes * 8 ≤ 8 * buffer.length
    omega
  have hwhole : reader.numBits % 8 = 0 := Nat.mul_mod_left bytes 8
  have hlimit : reader.numBits = 8 * bytes := Nat.mul_comm bytes 8
  constructor
  · intro hstop
    rw [bitsOfOctets_take, answerAll_take hstop]
    exact runAll_eq hinside hlegal (hstop.trans_eq hlimit.symm)
  · rw [← hlimit]
    exact runAll_returned_iff hinside hwhole (Nat.zero_le _) hlegal

/-- A field, an align, a byte and a group of two on a packet of three bytes, with a byte behind. -/
theorem reads_bit_list_three_bytes :
    (endOf 0 [.bits 3, .align, .bytes 1, .group [4, 4]] ≤ 8 * 3 →
      runAll [.bits 3, .align, .bytes 1, .group [4, 4]] .checked ⟨[0x05, 0xA5, 0x5A, 0xFF], 24, 0⟩
        = .ok (answerAll (bitsOfOctets ([0x05, 0xA5, 0x5A, 0xFF].take 3)) 0
            [.bits 3, .align, .bytes 1, .group [4, 4]])
            ⟨[0x05, 0xA5, 0x5A, 0xFF], 24, endOf 0 [.bits 3, .align, .bytes 1, .group [4, 4]]⟩)
      ∧ ((runAll [.bits 3, .align, .bytes 1, .group [4, 4]] .checked
            ⟨[0x05, 0xA5, 0x5A, 0xFF], 24, 0⟩).Returned
          ↔ endOf 0 [.bits 3, .align, .bytes 1, .group [4, 4]] ≤ 8 * 3) :=
  have hwidth : 1 ≤ (3 : U32).toNat ∧ (3 : U32).toNat ≤ 32 := by decide
  have hwidths : FieldWidths [4, 4] := by simp [FieldWidths]
  have hlegal : AllLegal 0 [.bits 3, .align, .bytes 1, .group [4, 4]] :=
    ⟨hwidth, trivial, rfl, hwidths, trivial⟩
  @reads_bit_list [0x05, 0xA5, 0x5A, 0xFF] 3 .checked ⟨[0x05, 0xA5, 0x5A, 0xFF], 24, 0⟩ _ (by decide)
    rfl hlegal .checked

end Packet

end BitReader

/-! ### Packed and unpacked -/

namespace BitWriter.Call

/-- The call that reads what a call wrote. -/
def mirror : BitWriter.Call → BitReader.Call
  | .bits _ width => .bits width
  | .align => .align
  | .bytes data => .bytes data.length

/-- The answer that is what a call wrote. -/
def answer : BitWriter.Call → BitReader.Answer
  | .bits value _ => .value value
  | .align => .zeros true
  | .bytes data => .bytes data

theorem length_code (position : Nat) (call : BitWriter.Call) :
    (call.code position).length = call.mirror.width position := by
  cases call with
  | bits value width => exact length_toBits _ _
  | align => exact List.length_replicate
  | bytes data => exact length_bitsOfOctets _

theorem mirror_legal {position : Nat} {call : BitWriter.Call} (h : call.Legal position) :
    call.mirror.Legal position := by
  cases call with
  | bits value width => exact h.1
  | align => trivial
  | bytes data => exact h

/-- The mirrored call reads what the call wrote, whatever follows it. -/
theorem answer_mirror {position : Nat} {call : BitWriter.Call} (h : call.Legal position)
    (rest : List Bool) :
    call.mirror.answer (call.code position ++ rest) position = call.answer := by
  cases call with
  | bits value width =>
      rw [mirror, BitReader.Call.answer, code, List.take_left' (length_toBits _ _),
        ofBits_toBits_of_lt h.2, BitVec.ofNat_toNat, BitVec.setWidth_eq]
      rfl
  | align =>
      rw [mirror, BitReader.Call.answer, code, List.take_left' List.length_replicate]
      simp [List.mem_replicate, answer]
  | bytes data =>
      rw [mirror, BitReader.Call.answer, code, octetsOfBits_bitsOfOctets]
      rfl

end BitWriter.Call

namespace BitWriter

theorem endOf_mirror (position : Nat) (calls : List Call) :
    BitReader.endOf position (calls.map Call.mirror) = position + (codeAll position calls).length := by
  induction calls generalizing position with
  | nil => rfl
  | cons call calls ih =>
      rw [List.map_cons, BitReader.endOf, ih, codeAll, List.length_append, Call.length_code,
        Nat.add_assoc]

theorem mirror_allLegal {position : Nat} {calls : List Call} (h : AllLegal position calls) :
    BitReader.AllLegal position (calls.map Call.mirror) := by
  induction calls generalizing position with
  | nil => trivial
  | cons call calls ih =>
      refine ⟨call.mirror_legal h.1, ?_⟩
      rw [← Call.length_code]
      exact ih h.2

theorem answerAll_mirror {bits rest : List Bool} {calls : List Call}
    (h : AllLegal bits.length calls) :
    BitReader.answerAll (bits ++ codeAll bits.length calls ++ rest) bits.length
      (calls.map Call.mirror) = calls.map Call.answer := by
  induction calls generalizing bits with
  | nil => rfl
  | cons call calls ih =>
      have hlength : (bits ++ call.code bits.length).length
          = bits.length + call.mirror.width bits.length := by
        rw [List.length_append, Call.length_code]
      have hrest := @ih (bits ++ call.code bits.length) (by
        rw [List.length_append]
        exact h.2)
      rw [hlength, List.append_assoc bits] at hrest
      rw [List.map_cons, BitReader.answerAll, List.map_cons, codeAll, Call.length_code, hrest]
      rw [List.append_assoc bits, List.drop_left' rfl, List.append_assoc, Call.answer_mirror h.1]

/-- **What the writer packs the reader unpacks**: the calls of the same shapes, on the flushed bytes
and whatever lies behind them, come back with what was written and stop where the writer stopped. -/
theorem packed_unpacked {buffer : List U8} {build : Build} {writer : BitWriter} {calls : List Call}
    (hwhole : buffer.length % 8 = 0) (hnew : BitWriter.new buffer build () = .ok writer ())
    (hlegal : AllLegal 0 calls) (hroom : (codeAll 0 calls).length ≤ 8 * buffer.length)
    (profile : Profile) :
    ∃ written flushed, runAll calls profile writer = .ok () written
      ∧ flushBits profile written = .ok () flushed
      ∧ ∀ (slack : List U8) (profile' : Profile), ∃ reader,
          BitReader.new (flushed.written ++ slack) flushed.bytesWritten profile' () = .ok reader ()
            ∧ BitReader.runAll (calls.map Call.mirror) profile' reader
              = .ok (calls.map Call.answer) { reader with bitsRead := flushed.bitsWritten } := by
  obtain ⟨hbuffer, rfl⟩ := new_eq_ok hwhole hnew
  have hnumBits := hbuffer.numBits_lt
  have hbits : (codeAll 0 calls).length ≤ buffer.length * 8 := by omega
  have hrun := @runAll_holding buffer [] hbuffer profile calls hlegal (by
    rw [List.length_nil]
    omega)
  refine ⟨holding buffer (codeAll 0 calls), flushed buffer (codeAll 0 calls), hrun,
    flushBits_holding hbuffer profile hbits, fun slack profile' => ?_⟩
  set packet := packed (codeAll 0 calls) with hpacket
  have hbytes : (flushed buffer (codeAll 0 calls)).bytesWritten = packet.length :=
    (length_octetsOfBits _ _).symm
  have hlength : packet.length = ((codeAll 0 calls).length + 7) / 8 := length_octetsOfBits _ _
  have hle : packet.length ≤ (packet ++ slack).length := by
    rw [List.length_append]
    omega
  have hread : BitReader.new (packet ++ slack) packet.length profile' ()
      = .ok { data := packet ++ slack, numBits := packet.length * 8, bitsRead := 0 } () := by
    rw [BitReader.new, bind_apply, debugAssert_of hle, Outcome.bind_ok, bind_apply,
      checkedMul_of (by omega)]
    rfl
  have hend : BitReader.endOf 0 (calls.map Call.mirror) = (codeAll 0 calls).length := by
    rw [endOf_mirror, Nat.zero_add]
  have hinside : BitReader.Inside
      { data := packet ++ slack, numBits := packet.length * 8, bitsRead := 0 } := by
    refine ⟨?_, ?_⟩
    · show packet.length * 8 < 2 ^ 64
      omega
    · show packet.length * 8 ≤ 8 * (packet ++ slack).length
      omega
  have hanswers := @answerAll_mirror []
    (List.replicate ((8 - (codeAll 0 calls).length % 8) % 8) false ++ bitsOfOctets slack) calls hlegal
  rw [List.length_nil, List.nil_append, ← List.append_assoc, ← bitsOfOctets_packed,
    ← bitsOfOctets_append] at hanswers
  have hstop : BitReader.endOf 0 (calls.map Call.mirror) ≤ packet.length * 8 := by omega
  refine ⟨⟨packet ++ slack, packet.length * 8, 0⟩, ?_, ?_⟩
  · rw [written_flushed, hbytes]
    exact hread
  · rw [BitReader.runAll_eq hinside (mirror_allLegal hlegal) hstop]
    dsimp only
    rw [hanswers, hend]
    rfl

/-- Three bits, an align and two bytes. -/
theorem packed_unpacked_one_word : ∃ written flushed,
    runAll [.bits 5 3, .align, .bytes [0xA5, 0x5A]] .checked (holding (List.replicate 8 0xFF) [])
      = .ok () written
      ∧ flushBits .checked written = .ok () flushed
      ∧ ∀ (slack : List U8) (profile' : Profile), ∃ reader,
          BitReader.new (flushed.written ++ slack) flushed.bytesWritten profile' () = .ok reader ()
            ∧ BitReader.runAll [.bits 3, .align, .bytes 2] profile' reader
              = .ok [.value 5, .zeros true, .bytes [0xA5, 0x5A]]
                  { reader with bitsRead := flushed.bitsWritten } :=
  have hwhole : (List.replicate 8 (0xFF : U8)).length % 8 = 0 := by decide
  have hnew : BitWriter.new (List.replicate 8 0xFF) .checked ()
      = .ok (holding (List.replicate 8 0xFF) []) () := rfl
  have hlegal : AllLegal 0 [.bits 5 3, .align, .bytes [0xA5, 0x5A]] :=
    ⟨⟨by decide, by decide⟩, trivial, rfl, trivial⟩
  packed_unpacked hwhole hnew hlegal (by decide) .checked

end BitWriter

end Serialize
