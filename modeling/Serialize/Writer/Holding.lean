import Serialize.Bits.Wrapping
import Serialize.Model.BitPacker

/-!
# The writer that holds a bit string

The buffer a writer was built on and the bits written to it determine the writer: the whole words
are in the buffer, the bits past them in the scratch, and the counters are the length of the string.
Every step of the packer takes the writer that holds a string to the one that holds a longer string,
whatever the offset it starts at, and a flush leaves the string in the buffer.
-/

namespace Serialize

open Machine BitString Wrapping

namespace BitWriter

/-- The whole words a string fills. -/
def wholeWords (bits : List Bool) : Nat := bits.length / 64

/-- The bits of a string past its last whole word. -/
def pendingBits (bits : List Bool) : List Bool := bits.drop (64 * wholeWords bits)

/-- The buffer after the first `n` octets of the string went over its own. -/
def overwrite (buffer : List U8) (n : Nat) (bits : List Bool) : List U8 :=
  octetsOfBits n bits ++ buffer.drop n

/-- The writer on `buffer` to which `bits` were written. -/
def holding (buffer : List U8) (bits : List Bool) : BitWriter where
  data := overwrite buffer (8 * wholeWords bits) bits
  scratch := BitVec.ofNat 64 (ofBits (pendingBits bits))
  numBits := buffer.length * 8
  bitsWritten := bits.length
  wordIndex := wholeWords bits
  scratchBits := bits.length % 64

/-- What a writer asks of its buffer: whole words, counted in 64 bits. -/
structure Writable (buffer : List U8) : Prop where
  whole : buffer.length % 8 = 0
  numBits_lt : buffer.length * 8 < 2 ^ 64

variable {buffer : List U8} {bits : List Bool}

theorem new_holding (h : Writable buffer) (profile : Profile) :
    BitWriter.new buffer profile () = .ok (holding buffer []) () := by
  rw [BitWriter.new, bind_apply, debugAssert_of h.whole, Outcome.bind_ok, bind_apply,
    checkedMul_of h.numBits_lt, Outcome.bind_ok]
  rfl

theorem new_eq_ok {build : Build} {writer : BitWriter} (hwhole : buffer.length % 8 = 0)
    (hnew : BitWriter.new buffer build () = .ok writer ()) :
    Writable buffer ∧ writer = holding buffer [] := by
  by_cases hnumBits : buffer.length * 8 < 2 ^ 64
  · rw [new_holding ⟨hwhole, hnumBits⟩] at hnew
    cases hnew
    exact ⟨⟨hwhole, hnumBits⟩, rfl⟩
  · rw [BitWriter.new, bind_apply, debugAssert_of hwhole, Outcome.bind_ok, bind_apply,
      checkedMul_of_not hnumBits] at hnew
    cases hnew

/-! ### Words -/

theorem length_pendingBits (bits : List Bool) : (pendingBits bits).length = bits.length % 64 := by
  rw [pendingBits, List.length_drop, wholeWords]
  omega

theorem length_overwrite {n : Nat} (h : n ≤ buffer.length) :
    (overwrite buffer n bits).length = buffer.length := by
  rw [overwrite, List.length_append, length_octetsOfBits, List.length_drop, Nat.add_sub_cancel' h]

theorem copyFromSlice_overwrite (n count : Nat) :
    copyFromSlice (overwrite buffer n bits) n (octetsOfBits count (bits.drop (8 * n)))
      = overwrite buffer (n + count) bits := by
  have hlength : (octetsOfBits n bits).length = n := length_octetsOfBits n bits
  rw [copyFromSlice, overwrite, overwrite, List.take_left' hlength, length_octetsOfBits,
    octetsOfBits_add, ← List.drop_drop, List.drop_left' hlength, List.drop_drop]

theorem overwrite_append {n : Nat} (h : 8 * n ≤ bits.length) (more : List Bool) :
    overwrite buffer n (bits ++ more) = overwrite buffer n bits := by
  rw [overwrite, overwrite, octetsOfBits_append h]

theorem toLeBytes_ofBits (bits : List Bool) :
    toLeBytes (BitVec.ofNat 64 (ofBits bits)) = octetsOfBits 8 bits := by
  apply bitsOfOctets_injective
  rw [toLeBytes, octetsOfBits, bitsOfOctets_leOctets, bitsOfOctets_leOctets, BitVec.toNat_ofNat,
    toBits_mod]

theorem copyToData_eq (profile : Profile) {writer : BitWriter} {start : Nat} {bytes : List U8}
    (h : start + bytes.length ≤ writer.data.length) (hlength : writer.data.length < 2 ^ 64) :
    copyToData start bytes profile writer
      = .ok () { writer with data := copyFromSlice writer.data start bytes } := by
  rw [copyToData, bind_apply, checkedAdd_of (h.trans_lt hlength), Outcome.bind_ok, bind_apply,
    getState_apply, Outcome.bind_ok, bind_apply,
    require_of ⟨Nat.le_add_right _ _, h⟩, Outcome.bind_ok, setState_apply]

/-! ### Bits -/

section WriteBits

variable {value width : U32}

theorem scratch_or (bits : List Bool) (h : value.toNat < 2 ^ width.toNat) :
    (BitVec.ofNat 64 (ofBits (pendingBits bits))
        ||| value.setWidth 64 <<< (bits.length % 64) : U64)
      = BitVec.ofNat 64 (ofBits (pendingBits bits ++ toBits width.toNat value.toNat)) := by
  have hlow := ofBits_lt (pendingBits bits)
  have hvalue : (value.setWidth 64 : U64) = BitVec.ofNat 64 value.toNat := by
    rw [BitVec.ofNat_toNat]
  rw [length_pendingBits] at hlow
  rw [ofBits_append, ofBits_toBits_of_lt h, length_pendingBits, hvalue, ofNat_shiftLeft,
    BitVec.or_comm, ofNat_or hlow]

theorem setWidth_ushiftRight (value : U32) (k : Nat) :
    (value.setWidth 64 >>> k : U64) = BitVec.ofNat 64 (value.toNat / 2 ^ k) := by
  apply BitVec.eq_of_toNat_eq
  have hlt := value.isLt
  have hle := Nat.div_le_self value.toNat (2 ^ k)
  rw [BitVec.toNat_ushiftRight, BitVec.toNat_setWidth, BitVec.toNat_ofNat,
    Nat.shiftRight_eq_div_pow, Nat.mod_eq_of_lt (by omega), Nat.mod_eq_of_lt (by omega)]

theorem wholeWords_of_le (hwidth : width.toNat ≤ 32)
    (hspill : 64 ≤ bits.length % 64 + width.toNat) :
    wholeWords (bits ++ toBits width.toNat value.toNat) = wholeWords bits + 1 := by
  rw [wholeWords, wholeWords, List.length_append, length_toBits]
  omega

theorem spill_eq (hvalue : value.toNat < 2 ^ width.toNat) (hwidth : width.toNat ≤ 32)
    (hspill : 64 ≤ bits.length % 64 + width.toNat) :
    (value.setWidth 64 >>> (64 - bits.length % 64) : U64)
      = BitVec.ofNat 64 (ofBits (pendingBits (bits ++ toBits width.toNat value.toNat))) := by
  have hwhole : 64 * wholeWords (bits ++ toBits width.toNat value.toNat)
      = bits.length + (64 - bits.length % 64) := by
    rw [wholeWords_of_le hwidth hspill, wholeWords]
    omega
  rw [setWidth_ushiftRight, pendingBits, hwhole, ← List.drop_drop, List.drop_left, ofBits_drop,
    ofBits_toBits_of_lt hvalue]

theorem wholeWords_of_lt {more : List Bool} (h : bits.length % 64 + more.length < 64) :
    wholeWords (bits ++ more) = wholeWords bits := by
  rw [wholeWords, wholeWords, List.length_append]
  omega

theorem pendingBits_of_lt {more : List Bool} (h : bits.length % 64 + more.length < 64) :
    pendingBits (bits ++ more) = pendingBits bits ++ more := by
  rw [pendingBits, wholeWords_of_lt h, List.drop_append_of_le_length (by rw [wholeWords]; omega)]
  rfl

/-- The scratch has room for the field: the buffer stays as it is. -/
theorem holding_append_of_lt (hvalue : value.toNat < 2 ^ width.toNat)
    (h : bits.length % 64 + width.toNat < 64) :
    holding buffer (bits ++ toBits width.toNat value.toNat)
      = { holding buffer bits with
          scratch := (holding buffer bits).scratch ||| value.setWidth 64 <<< (bits.length % 64)
          scratchBits := bits.length % 64 + width.toNat
          bitsWritten := bits.length + width.toNat } := by
  have hmore : bits.length % 64 + (toBits width.toNat value.toNat).length < 64 := by
    rw [length_toBits]
    exact h
  have hscratchBits : (bits.length + width.toNat) % 64 = bits.length % 64 + width.toNat := by omega
  have hwords : 8 * (8 * wholeWords bits) ≤ bits.length := by
    rw [wholeWords]
    omega
  simp only [holding]
  rw [scratch_or bits hvalue, wholeWords_of_lt hmore, pendingBits_of_lt hmore,
    overwrite_append hwords, List.length_append, length_toBits, hscratchBits]

/-- The field fills the scratch: the word goes to the buffer, the bits past it start the next. -/
theorem holding_append_of_le (hvalue : value.toNat < 2 ^ width.toNat) (hwidth : width.toNat ≤ 32)
    (h : 64 ≤ bits.length % 64 + width.toNat) :
    holding buffer (bits ++ toBits width.toNat value.toNat)
      = { holding buffer bits with
          data := copyFromSlice (holding buffer bits).data (wholeWords bits * 8) (toLeBytes
            ((holding buffer bits).scratch ||| value.setWidth 64 <<< (bits.length % 64)))
          wordIndex := wholeWords bits + 1
          scratch := value.setWidth 64 >>> (64 - bits.length % 64)
          scratchBits := bits.length % 64 + width.toNat - 64
          bitsWritten := bits.length + width.toNat } := by
  have hwords : 8 * (8 * wholeWords bits) ≤ bits.length := by
    rw [wholeWords]
    omega
  have hpending : pendingBits bits ++ toBits width.toNat value.toNat
      = (bits ++ toBits width.toNat value.toNat).drop (8 * (8 * wholeWords bits)) := by
    rw [List.drop_append_of_le_length hwords, pendingBits, ← Nat.mul_assoc]
  have hscratchBits : (bits.length + width.toNat) % 64 = bits.length % 64 + width.toNat - 64 := by
    omega
  simp only [holding]
  rw [scratch_or bits hvalue, spill_eq hvalue hwidth h, toLeBytes_ofBits, hpending,
    wholeWords_of_le hwidth h, List.length_append, length_toBits, hscratchBits,
    Nat.mul_comm (wholeWords bits) 8,
    ← overwrite_append hwords (toBits width.toNat value.toNat), copyFromSlice_overwrite]
  rfl

theorem length_holding_data (h : bits.length ≤ buffer.length * 8) :
    (holding buffer bits).data.length = buffer.length := by
  apply length_overwrite
  rw [wholeWords]
  omega

theorem spillScratch_eq (profile : Profile) {writer : BitWriter} {newScratchBits : Nat}
    (hroom : writer.wordIndex * 8 + 8 ≤ writer.data.length) (hlength : writer.data.length < 2 ^ 64)
    (hpos : 0 < writer.scratchBits) (hscratch : writer.scratchBits ≤ 64)
    (hfull : 64 ≤ newScratchBits) :
    spillScratch value newScratchBits profile writer = .ok () { writer with
      data := copyFromSlice writer.data (writer.wordIndex * 8) (toLeBytes writer.scratch)
      wordIndex := writer.wordIndex + 1
      scratch := value.setWidth 64 >>> (64 - writer.scratchBits)
      scratchBits := newScratchBits - 64 } := by
  have hword : writer.wordIndex * 8 + (toLeBytes writer.scratch).length ≤ writer.data.length := hroom
  unfold spillScratch
  simp only [bind_apply, getState_apply, Outcome.bind_ok, modifyState_apply,
    checkedMul_of (show writer.wordIndex * 8 < 2 ^ 64 by omega), copyToData_eq profile hword hlength,
    checkedAdd_of (show writer.wordIndex + 1 < 2 ^ 64 by omega), checkedSub_of hscratch,
    shiftAmount_of (show 64 - writer.scratchBits < 64 by omega), checkedSub_of hfull]

/-- **A field is appended to the string**, whichever word it starts and ends in. -/
theorem writeBits_holding (hbuffer : Writable buffer) (profile : Profile)
    (hwidth : 1 ≤ width.toNat ∧ width.toNat ≤ 32) (hvalue : value.toNat < 2 ^ width.toNat)
    (hroom : bits.length + width.toNat ≤ buffer.length * 8) :
    writeBits value width profile (holding buffer bits)
      = .ok () (holding buffer (bits ++ toBits width.toNat value.toNat)) := by
  have hwhole := hbuffer.whole
  have hnumBits := hbuffer.numBits_lt
  have hlength : (holding buffer bits).bitsWritten + width.toNat < 2 ^ 64 :=
    show bits.length + width.toNat < 2 ^ 64 by omega
  have hcapacity : (inChecked do
      let needed ← checkedAdd 64 (holding buffer bits).bitsWritten width.toNat
      require (needed ≤ (holding buffer bits).numBits) : Action BitWriter Unit) profile
        (holding buffer bits) = .ok () (holding buffer bits) := by
    apply inChecked_of_ok
    rw [bind_apply, checkedAdd_of hlength, Outcome.bind_ok]
    exact require_of hroom profile _
  have hrange : (inChecked do
      noOverflow (width.toNat < 64)
      require (value.toNat < 2 ^ width.toNat) : Action BitWriter Unit) profile (holding buffer bits)
        = .ok () (holding buffer bits) := by
    apply inChecked_of_ok
    rw [bind_apply, noOverflow_of (by omega), Outcome.bind_ok, require_of hvalue]
  have hscratch : (holding buffer bits).scratchBits < 64 := Nat.mod_lt _ (by decide)
  have hdata : (holding buffer bits).data.length = buffer.length :=
    length_holding_data (by omega)
  unfold writeBits
  simp only [bind_apply, getState_apply, Outcome.bind_ok,
    debugAssert_of ((wrapping_pred_lt_iff width).mpr hwidth), hcapacity, hrange,
    shiftAmount_of hscratch, modifyState_apply, ite_comp_apply, checkedAdd_of hlength,
    checkedAdd_of (show (holding buffer bits).scratchBits + width.toNat < 2 ^ 32 by omega)]
  by_cases hfull : 64 ≤ (holding buffer bits).scratchBits + width.toNat
  · have hword : (holding buffer bits).wordIndex * 8 + 8 ≤ (holding buffer bits).data.length := by
      have hfull' : 64 ≤ bits.length % 64 + width.toNat := hfull
      rw [hdata]
      show wholeWords bits * 8 + 8 ≤ buffer.length
      rw [wholeWords]
      omega
    have hdataLt : (holding buffer bits).data.length < 2 ^ 64 := by omega
    have hpos : 0 < (holding buffer bits).scratchBits := by omega
    rw [if_pos hfull, spillScratch_eq profile, Outcome.bind_ok,
      holding_append_of_le hvalue hwidth.2 hfull]
    · rfl
    · exact hword
    · exact hdataLt
    · exact hpos
    · exact Nat.le_of_lt hscratch
    · exact hfull
  · rw [if_neg hfull, Outcome.bind_ok, holding_append_of_lt hvalue (Nat.not_le.mp hfull)]
    rfl

end WriteBits

/-! ### Bytes -/

theorem writeAlign_holding (hbuffer : Writable buffer) (profile : Profile)
    (hroom : bits.length + (8 - bits.length % 8) % 8 ≤ buffer.length * 8) :
    writeAlign profile (holding buffer bits)
      = .ok () (holding buffer (bits ++ List.replicate ((8 - bits.length % 8) % 8) false)) := by
  have hwritten : ∀ bits, (holding buffer bits).bitsWritten = bits.length := fun _ => rfl
  rw [writeAlign, bind_apply, getState_apply, Outcome.bind_ok, onlyIf, ite_comp_apply, hwritten]
  by_cases hremainder : bits.length % 8 = 0
  · rw [if_neg (not_not.mpr hremainder), hremainder, List.replicate_zero, List.append_nil, pure_apply]
  · have hwidth : (BitVec.ofNat 32 (8 - bits.length % 8)).toNat = (8 - bits.length % 8) % 8 := by
      rw [BitVec.toNat_ofNat]
      omega
    have hwrite := @writeBits_holding buffer bits 0 (BitVec.ofNat 32 (8 - bits.length % 8)) hbuffer
      profile (by omega) (Nat.two_pow_pos _) (by rw [hwidth]; exact hroom)
    have hbyte : (bits ++ List.replicate ((8 - bits.length % 8) % 8) false).length % 8 = 0 := by
      rw [List.length_append, List.length_replicate]
      omega
    have hzero : (0 : U32).toNat = 0 := rfl
    rw [if_pos hremainder, bind_apply, hwrite, Outcome.bind_ok, hwidth, hzero, toBits_zero,
      bind_apply, getState_apply, Outcome.bind_ok]
    exact debugAssert_of hbyte profile _

theorem writeEach_holding (hbuffer : Writable buffer) (profile : Profile) (bytes : List U8)
    (hroom : bits.length + 8 * bytes.length ≤ buffer.length * 8) :
    writeEach bytes profile (holding buffer bits)
      = .ok () (holding buffer (bits ++ bitsOfOctets bytes)) := by
  induction bytes generalizing bits with
  | nil => rw [writeEach, pure_apply, bitsOfOctets_nil, List.append_nil]
  | cons byte bytes ih =>
      have hbyte : (byte.setWidth 32 : U32).toNat = byte.toNat := by
        have hlt := byte.isLt
        rw [BitVec.toNat_setWidth, Nat.mod_eq_of_lt (by omega)]
      have height : (8 : U32).toNat = 8 := rfl
      have hrest : (bits ++ toBits 8 byte.toNat).length + 8 * bytes.length ≤ buffer.length * 8 := by
        rw [List.length_append, length_toBits]
        rw [List.length_cons] at hroom
        omega
      have hfirst : bits.length + (8 : U32).toNat ≤ buffer.length * 8 := by
        rw [List.length_cons] at hroom
        omega
      rw [writeEach, bind_apply, writeBits_holding hbuffer profile (by decide)
        (by rw [hbyte]; exact byte.isLt) hfirst, Outcome.bind_ok, hbyte, height, ih hrest,
        bitsOfOctets_cons, List.append_assoc]

/-- Whole words at a word boundary go to the buffer as they are. -/
theorem holding_append_words {words : List U8} {numWords : Nat} (hwords : words.length = numWords * 8)
    (hwhole : bits.length % 64 = 0) : holding buffer (bits ++ bitsOfOctets words)
      = { holding buffer bits with
          data := copyFromSlice (holding buffer bits).data (wholeWords bits * 8) words
          bitsWritten := bits.length + numWords * 64
          wordIndex := wholeWords bits + numWords
          scratch := 0 } := by
  have hlength : (bits ++ bitsOfOctets words).length = bits.length + numWords * 64 := by
    rw [List.length_append, length_bitsOfOctets, hwords]
    omega
  have hindex : wholeWords (bits ++ bitsOfOctets words) = wholeWords bits + numWords := by
    rw [wholeWords, wholeWords, hlength]
    omega
  have hstart : 8 * (8 * wholeWords bits) = bits.length := by
    rw [wholeWords]
    omega
  have hpending : pendingBits (bits ++ bitsOfOctets words) = [] := by
    apply List.drop_eq_nil_of_le
    rw [hlength, hindex, wholeWords]
    omega
  have hcopied : words = octetsOfBits (8 * numWords)
      ((bits ++ bitsOfOctets words).drop (8 * (8 * wholeWords bits))) := by
    have hoctets := octetsOfBits_bitsOfOctets words []
    rw [List.append_nil, hwords, Nat.mul_comm] at hoctets
    rw [hstart, List.drop_left, hoctets]
  have hscratchBits : (bits.length + numWords * 64) % 64 = bits.length % 64 := by omega
  simp only [holding]
  conv_rhs => rw [hcopied]
  rw [hpending, ofBits_nil, hindex, hlength, hscratchBits, Nat.mul_comm (wholeWords bits) 8,
    ← overwrite_append (Nat.le_of_eq hstart) (bitsOfOctets words), copyFromSlice_overwrite,
    Nat.mul_add]
  rfl

theorem copyWords_holding (hbuffer : Writable buffer) (profile : Profile) {words : List U8}
    {numWords : Nat} (hwords : words.length = numWords * 8) (hwhole : bits.length % 64 = 0)
    (hroom : bits.length + 8 * words.length ≤ buffer.length * 8) :
    copyWords words numWords profile (holding buffer bits)
      = .ok () (holding buffer (bits ++ bitsOfOctets words)) := by
  have hnumBits := hbuffer.numBits_lt
  have hdata : (holding buffer bits).data.length = buffer.length :=
    length_holding_data (by omega)
  have hindex : (holding buffer bits).wordIndex = wholeWords bits := rfl
  have hstart : wholeWords bits * 8 + words.length ≤ (holding buffer bits).data.length := by
    rw [hdata, wholeWords]
    omega
  have hwritten : (holding buffer bits).bitsWritten + numWords * 64 < 2 ^ 64 := by
    show bits.length + numWords * 64 < 2 ^ 64
    omega
  unfold copyWords
  simp only [bind_apply, getState_apply, Outcome.bind_ok, modifyState_apply, hindex,
    checkedMul_of (show wholeWords bits * 8 < 2 ^ 64 by omega),
    copyToData_eq profile hstart (by omega), checkedMul_of (show numWords * 64 < 2 ^ 64 by omega),
    checkedAdd_of hwritten, checkedAdd_of (show wholeWords bits + numWords < 2 ^ 64 by omega)]
  rw [holding_append_words hwords hwhole]
  rfl

theorem writeWords_holding (hbuffer : Writable buffer) (profile : Profile) (bytes : List U8)
    (hwhole : bits.length % 64 = 0) (hroom : bits.length + 8 * bytes.length ≤ buffer.length * 8) :
    (do
      onlyIf (0 < bytes.length / 8)
        (copyWords (bytes.take (bytes.length / 8 * 8)) (bytes.length / 8))
      writeEach (bytes.drop (bytes.length / 8 * 8)) : Action BitWriter Unit) profile
        (holding buffer bits) = .ok () (holding buffer (bits ++ bitsOfOctets bytes)) := by
  set words := bytes.take (bytes.length / 8 * 8) with hwords
  set tail := bytes.drop (bytes.length / 8 * 8) with htail
  have hlength : words.length = bytes.length / 8 * 8 := by
    rw [hwords, List.length_take]
    omega
  have htailLength : tail.length = bytes.length - bytes.length / 8 * 8 := List.length_drop ..
  have hbytes : bitsOfOctets bytes = bitsOfOctets words ++ bitsOfOctets tail := by
    rw [← bitsOfOctets_append, List.take_append_drop]
  have hcopy : onlyIf (0 < bytes.length / 8) (copyWords words (bytes.length / 8)) profile
      (holding buffer bits) = .ok () (holding buffer (bits ++ bitsOfOctets words)) := by
    rw [onlyIf, ite_comp_apply]
    by_cases hsome : 0 < bytes.length / 8
    · rw [if_pos hsome]
      exact copyWords_holding hbuffer profile hlength hwhole (by omega)
    · have hnone : words = [] := List.length_eq_zero_iff.mp (by omega)
      rw [if_neg hsome, hnone, bitsOfOctets_nil, List.append_nil, pure_apply]
  have hroom' : (bits ++ bitsOfOctets words).length + 8 * tail.length ≤ buffer.length * 8 := by
    rw [List.length_append, length_bitsOfOctets, hlength, htailLength]
    omega
  rw [bind_apply, hcopy, Outcome.bind_ok, writeEach_holding hbuffer profile tail hroom', hbytes,
    List.append_assoc]

/-- **A byte run is appended to the string**, whichever of its bytes are copied as words. -/
theorem writeBytes_holding (hbuffer : Writable buffer) (profile : Profile) (bytes : List U8)
    (haligned : bits.length % 8 = 0) (hroom : bits.length + 8 * bytes.length ≤ buffer.length * 8) :
    writeBytes bytes profile (holding buffer bits)
      = .ok () (holding buffer (bits ++ bitsOfOctets bytes)) := by
  have hnumBits := hbuffer.numBits_lt
  have halign : ∀ bits : List Bool, bits.length % 8 = 0 → (holding buffer bits).alignBits = 0 := by
    intro bits h
    show (8 - bits.length % 8) % 8 = 0
    omega
  have hcapacity : (inChecked do
      let payload ← checkedMul 64 bytes.length 8
      let needed ← checkedAdd 64 (holding buffer bits).bitsWritten payload
      require (needed ≤ (holding buffer bits).numBits) : Action BitWriter Unit) profile
        (holding buffer bits) = .ok () (holding buffer bits) := by
    have hneeded : (holding buffer bits).bitsWritten + bytes.length * 8 < 2 ^ 64 := by
      show bits.length + bytes.length * 8 < 2 ^ 64
      omega
    have hfits : (holding buffer bits).bitsWritten + bytes.length * 8
        ≤ (holding buffer bits).numBits := by
      show bits.length + bytes.length * 8 ≤ buffer.length * 8
      omega
    apply inChecked_of_ok
    rw [bind_apply, checkedMul_of (by omega), Outcome.bind_ok, bind_apply, checkedAdd_of hneeded,
      Outcome.bind_ok, require_of hfits]
  unfold writeBytes
  simp only [bind_apply, getState_apply, Outcome.bind_ok, debugAssert_of (halign bits haligned),
    hcapacity, debugAssert_of (show (holding buffer bits).bitsWritten % 8 = 0 from haligned)]
  generalize hheadBytes : min ((8 - (holding buffer bits).bitsWritten % 64 / 8) % 8) bytes.length
    = headBytes
  have hwritten : (holding buffer bits).bitsWritten = bits.length := rfl
  rw [hwritten] at hheadBytes
  set head := bytes.take headBytes with hhead
  have hheadLength : head.length = headBytes := by
    rw [hhead, List.length_take]
    omega
  rw [writeEach_holding hbuffer profile head (by omega), Outcome.bind_ok, ite_comp_apply]
  by_cases hshort : headBytes = bytes.length
  · rw [if_pos hshort, pure_apply, hhead, hshort, List.take_length]
  · set rest := bytes.drop headBytes with hrest
    have hrestLength : rest.length = bytes.length - headBytes := List.length_drop ..
    have hbytes : bitsOfOctets bytes = bitsOfOctets head ++ bitsOfOctets rest := by
      rw [← bitsOfOctets_append, List.take_append_drop]
    have hlength : (bits ++ bitsOfOctets head).length = bits.length + 8 * headBytes := by
      rw [List.length_append, length_bitsOfOctets, hheadLength]
    have hwhole : (bits ++ bitsOfOctets head).length % 64 = 0 := by omega
    have hwords := writeWords_holding hbuffer profile rest hwhole (by omega)
    rw [bind_apply] at hwords
    obtain ⟨_, writer, hcopy, htail⟩ := Outcome.bind_eq_ok.mp hwords
    have hend : (bits ++ bitsOfOctets bytes).length % 8 = 0 := by
      rw [List.length_append, length_bitsOfOctets]
      omega
    rw [if_neg hshort, bind_apply, getState_apply, Outcome.bind_ok, bind_apply,
      debugAssert_of ⟨hwhole, hwhole⟩, Outcome.bind_ok, bind_apply, ← List.drop_drop, ← hrest,
      ← hrestLength, hcopy, Outcome.bind_ok, bind_apply, htail, Outcome.bind_ok, bind_apply,
      getState_apply, Outcome.bind_ok, List.append_assoc, ← hbytes,
      debugAssert_of (halign _ hend)]

/-! ### The flush -/

/-- The bytes a string fills, the last one padded with zeros. -/
def packed (bits : List Bool) : List U8 := octetsOfBits ((bits.length + 7) / 8) bits

/-- The words a string reaches into. -/
def wordsReached (bits : List Bool) : Nat := (bits.length + 63) / 64

/-- The writer on `buffer` to which `bits` were written, once it is flushed. -/
def flushed (buffer : List U8) (bits : List Bool) : BitWriter where
  data := overwrite buffer (8 * wordsReached bits) bits
  scratch := 0
  numBits := buffer.length * 8
  bitsWritten := bits.length
  wordIndex := wordsReached bits
  scratchBits := 0

/-- **The flush leaves the string in the buffer**, padded to a whole word with zeros. -/
theorem flushBits_holding (hbuffer : Writable buffer) (profile : Profile)
    (hroom : bits.length ≤ buffer.length * 8) :
    flushBits profile (holding buffer bits) = .ok () (flushed buffer bits) := by
  have hwhole := hbuffer.whole
  have hnumBits := hbuffer.numBits_lt
  rw [flushBits, bind_apply, getState_apply, Outcome.bind_ok, onlyIf, ite_comp_apply]
  by_cases hpending : (holding buffer bits).scratchBits = 0
  · have hlength : bits.length % 64 = 0 := hpending
    have hempty : pendingBits bits = [] := by
      apply List.length_eq_zero_iff.mp
      rw [length_pendingBits, hlength]
    have hreached : wordsReached bits = wholeWords bits := by
      rw [wordsReached, wholeWords]
      omega
    rw [if_neg (not_not.mpr hpending), pure_apply, holding, flushed, hreached, hempty, hlength]
    rfl
  · have hlength : bits.length % 64 ≠ 0 := hpending
    have hindex : (holding buffer bits).wordIndex = wholeWords bits := rfl
    have hdata : (holding buffer bits).data.length = buffer.length := length_holding_data hroom
    have hreached : wordsReached bits = wholeWords bits + 1 := by
      rw [wordsReached, wholeWords]
      omega
    have hword : wholeWords bits * 8 + 8 ≤ (holding buffer bits).data.length := by
      rw [hdata, wholeWords]
      omega
    have hstored : copyFromSlice (holding buffer bits).data (wholeWords bits * 8)
        (toLeBytes (holding buffer bits).scratch) = overwrite buffer (8 * wordsReached bits) bits := by
      simp only [holding]
      rw [toLeBytes_ofBits, pendingBits, show 64 * wholeWords bits = 8 * (8 * wholeWords bits) by ring,
        Nat.mul_comm (wholeWords bits) 8, copyFromSlice_overwrite, hreached, Nat.mul_add]
    have hstart : wholeWords bits * 8 < 2 ^ 64 := by omega
    have hscratch : (holding buffer bits).scratchBits < 64 := Nat.mod_lt _ (by decide)
    rw [if_pos hpending]
    simp only [bind_apply, Outcome.bind_ok, debugAssert_of hscratch, hindex, checkedMul_of hstart,
      copyToData_eq profile (show wholeWords bits * 8 + (toLeBytes _).length ≤ _ from hword)
        (by omega), hstored, checkedAdd_of (show wholeWords bits + 1 < 2 ^ 64 by omega),
      modifyState_apply]
    rw [flushed, hreached]
    rfl

theorem flushBits_flushed (profile : Profile) (buffer : List U8) (bits : List Bool) :
    flushBits profile (flushed buffer bits) = .ok () (flushed buffer bits) := rfl

theorem written_flushed (buffer : List U8) (bits : List Bool) :
    (flushed buffer bits).written = packed bits := by
  have hbytes : (bits.length + 7) / 8 ≤ 8 * wordsReached bits := by
    rw [wordsReached]
    omega
  obtain ⟨count, hcount⟩ := Nat.exists_eq_add_of_le hbytes
  show (overwrite buffer (8 * wordsReached bits) bits).take ((bits.length + 7) / 8) = packed bits
  rw [hcount, overwrite, octetsOfBits_add, List.append_assoc,
    List.take_left' (length_octetsOfBits _ _), packed]

/-- The bytes a string fills hold the string, then zeros. -/
theorem bitsOfOctets_packed (bits : List Bool) :
    bitsOfOctets (packed bits) = bits ++ List.replicate ((8 - bits.length % 8) % 8) false := by
  have hpadding : 8 * ((bits.length + 7) / 8) - bits.length = (8 - bits.length % 8) % 8 := by omega
  rw [packed, bitsOfOctets_octetsOfBits_of_le (by omega), hpadding]

end BitWriter

end Serialize
