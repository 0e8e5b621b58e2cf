import Serialize.Reader.Session

/-!
# Reads where 64 bits run out

The default release profile checks no sum. A field of up to 32 bits that starts within 32 bits of
`2 ^ 64` ends, by its wrapped sum, at the front of the packet: the read is not refused, gives the bits
behind its start whether they are packet or not, and goes on from the front.
-/

namespace Serialize

open Machine BitString Decode
open ReadStream

variable {profile : Profile} {stream : ReadStream}

namespace ReadStream

/-! ### A stream under every profile -/

/-- A stream over the first `numBits` bits of a buffer. -/
def atStart (buffer : List U8) (numBits : Nat) : ReadStream where
  reader := { data := buffer, numBits, bitsRead := 0 }
  failed := none

theorem new_to {buffer : List U8} {bytes numBits : Nat} (hfits : bytes ≤ buffer.length)
    (hmul : (checkedMul 64 bytes 8 : Action Unit Nat) profile () = .ok numBits ()) :
    ReadStream.new buffer bytes profile () = .ok (atStart buffer numBits) () := by
  simp only [ReadStream.new, BitReader.new, bind_apply, decide_eq_true hfits, if_true,
    debugAssert_of hfits, Outcome.bind_ok, hmul, pure_apply]
  rfl

theorem new_of_trap {buffer : List U8} {bytes : Nat} (hfits : bytes ≤ buffer.length)
    (htrap : (checkedMul 64 bytes 8 : Action Unit Nat) profile () = .trap ()) :
    ReadStream.new buffer bytes profile () = .trap () := by
  simp only [ReadStream.new, BitReader.new, bind_apply, decide_eq_true hfits, if_true,
    debugAssert_of hfits, Outcome.bind_ok, htrap, Outcome.bind_trap]

theorem new_wrapping {buffer : List U8} {bytes : Nat} (hfits : bytes ≤ buffer.length) :
    ReadStream.new buffer bytes .wrapping () = .ok (atStart buffer (bytes * 8 % 2 ^ 64)) () :=
  new_to hfits (checkedMul_wrapping 64 bytes 8 ())

theorem atStart_valid {buffer : List U8} {numBits : Nat} (hwhole : numBits % 8 = 0)
    (hle : numBits ≤ 8 * buffer.length) (hlt : numBits < 2 ^ 64) : (atStart buffer numBits).Valid where
  whole := hwhole
  numBits_le := hle
  bitsRead_le := Nat.zero_le _
  numBits_lt := hlt

theorem over_atStart {packet buffer : List U8} (h : packet <+: buffer) :
    (atStart buffer (packet.length * 8 % 2 ^ 64)).Over packet .wrapping := by
  obtain ⟨slack, rfl⟩ := h
  exact ⟨slack, new_wrapping (by rw [List.length_append]; exact Nat.le_add_right _ _)⟩

/-! ### Bytes -/

theorem readAlign_of_aligned (profile : Profile) (h : stream.Valid) (hlive : stream.failed = none)
    (haligned : stream.reader.bitsRead % 8 = 0) : readAlign profile stream = .ok () stream := by
  have hboundary : byteBoundary stream.reader.bitsRead = 0 := by
    rw [byteBoundary]
    omega
  rw [readAlign_eq profile h, hlive, hboundary, List.take_zero, ofBits_nil, if_pos rfl,
    if_neg (show ¬(none : Option Error).isSome = true from Bool.false_ne_true)]
  rfl

theorem length_slice (h : stream.Valid) {n : Nat}
    (hle : stream.reader.bitsRead + 8 * n ≤ stream.reader.numBits) :
    ((stream.reader.data.drop (stream.reader.bitsRead / 8)).take n).length = n := by
  have hdata := h.numBits_le
  rw [List.length_take, List.length_drop]
  omega

/-- A run of bytes that the packet holds. -/
theorem serializeBytes_of_le (profile : Profile) (h : stream.Valid) (hlive : stream.failed = none)
    (haligned : stream.reader.bitsRead % 8 = 0) {n : Nat}
    (hle : stream.reader.bitsRead + 8 * n ≤ stream.reader.numBits) (value : List.Vector U8 n) :
    serializeBytes profile (stream, value)
      = .ok () (stream.moveTo (stream.reader.bitsRead + 8 * n), ⟨_, length_slice h hle⟩) := by
  have hlong : ¬(stream.reader.numBits - stream.reader.bitsRead) / 8 < n := by omega
  unfold serializeBytes instStream
  dsimp only
  rw [bind_apply, onState_apply, readAlign_of_aligned profile h hlive haligned, Outcome.mapState_ok,
    Outcome.bind_ok, bind_apply, onState_apply, readPayload_eq profile h, if_neg hlong,
    onReader_readByteSlice profile h (fun _ => haligned) hle, Outcome.mapState_ok, Outcome.bind_ok,
    copyInto, dif_pos (length_slice h hle)]
  rfl

/-- A run of bytes that is longer than what is left of the packet. -/
theorem serializeBytes_of_short (profile : Profile) (h : stream.Valid) (hlive : stream.failed = none)
    (haligned : stream.reader.bitsRead % 8 = 0) {n : Nat}
    (hshort : stream.reader.numBits < stream.reader.bitsRead + 8 * n) (value : List.Vector U8 n) :
    serializeBytes profile (stream, value)
      = .err .pastEnd ({ stream with failed := some .pastEnd }, value) := by
  have hbits := h.bitsRead_le
  have hwhole := h.whole
  have hlong : (stream.reader.numBits - stream.reader.bitsRead) / 8 < n := by omega
  unfold serializeBytes instStream
  dsimp only
  rw [bind_apply, onState_apply, readAlign_of_aligned profile h hlive haligned, Outcome.mapState_ok,
    Outcome.bind_ok, bind_apply, onState_apply, readPayload_eq profile h, if_pos hlong, latch_eq, hlive]
  rfl

/-! ### The end -/

theorem serializeEnd_at_end {stream : ReadStream} (hvalid : stream.Valid) (hlive : stream.failed = none)
    (profile : Profile) : serializeEnd profile (stream.moveTo stream.reader.numBits)
      = .ok () (stream.moveTo stream.reader.numBits) := by
  have hmoved := hvalid.moved (le_refl stream.reader.numBits)
  have hlength : (stream.moveTo stream.reader.numBits).cursor.remaining.length = 0 :=
    hmoved.length_remaining.trans (Nat.sub_self _)
  refine (readEnd_eq profile hmoved).trans ?_
  rw [show (stream.moveTo stream.reader.numBits).failed = none from hlive, if_neg (by simp),
    List.length_eq_zero_iff.mp hlength, ofBits_nil, if_neg (by simp), if_pos rfl]
  rfl

/-! ### A field over the end of 64 bits -/

/-- The number in the four bytes from a byte of the buffer on, low byte first, those past the buffer
counting as zero. -/
def wordAt (data : List U8) (byteIndex : Nat) : U32 :=
  BitVec.ofNat 32 (leNat ((data.drop byteIndex).take 4))

theorem leNat_lt (data : List U8) : leNat (data.take 4) < 2 ^ 32 := by
  have hlength : (bitsOfOctets (data.take 4)).length ≤ 32 := by
    rw [length_bitsOfOctets, List.length_take]
    omega
  rw [leNat_eq_ofBits]
  exact (ofBits_lt _).trans_le (Nat.pow_le_pow_right (by decide) hlength)

theorem wordAt_eq (data : List U8) (byteIndex : Nat) : wordAt data byteIndex
    = BitVec.ofNat 32 (ofBits (((bitsOfOctets data).drop (8 * byteIndex)).take 32)) := by
  rw [wordAt, leNat_eq_ofBits, bitsOfOctets_take, bitsOfOctets_drop]

theorem toNat_wordAt (data : List U8) (byteIndex : Nat) : (wordAt data byteIndex).toNat
    = ofBits (((bitsOfOctets data).drop (8 * byteIndex)).take 32) := by
  have hlt := leNat_lt (data.drop byteIndex)
  rw [wordAt, BitVec.toNat_ofNat, Nat.mod_eq_of_lt hlt, leNat_eq_ofBits, bitsOfOctets_take,
    bitsOfOctets_drop]

/-- **A field of 32 bits whose end wraps** gives the word behind its start and goes on from the front
of the packet. -/
theorem serializeBits_wraps (h : stream.Valid) (hlive : stream.failed = none)
    (haligned : stream.reader.bitsRead % 8 = 0) (hover : 2 ^ 64 ≤ stream.reader.bitsRead + 32)
    (value : U32) : serializeBits 32 .wrapping (stream, value)
      = .ok () (stream.moveTo (stream.reader.bitsRead + 32 - 2 ^ 64),
          wordAt stream.reader.data (stream.reader.bitsRead / 8)) := by
  have hbits := h.bitsRead_le
  have hlt := h.numBits_lt
  have hwidth : (32 : U32).toNat = 32 := rfl
  have hsum : (stream.reader.bitsRead + (32 : U32).toNat) % 2 ^ 64
      = stream.reader.bitsRead + 32 - 2 ^ 64 := by omega
  have hstop : ∀ reader, (checkedAdd 64 stream.reader.bitsRead (32 : U32).toNat :
      Action BitReader Nat) .wrapping reader
        = .ok (stream.reader.bitsRead + 32 - 2 ^ 64) reader := fun reader => by
    rw [checkedAdd_wrapping, hsum]
  rw [serializeBits_to .wrapping h hstop, if_neg, hwidth, wordAt_eq,
    Nat.mul_div_cancel' (Nat.dvd_of_mod_eq_zero haligned)]
  · rfl
  · rw [hlive, hwidth]
    simp
    omega

theorem leNat_append (low : List U8) (octet : U8) :
    leNat (low ++ [octet]) = leNat low + 2 ^ (8 * low.length) * octet.toNat := by
  rw [leNat_eq_ofBits, leNat_eq_ofBits, bitsOfOctets_append, ofBits_append, length_bitsOfOctets,
    ← leNat_eq_ofBits [octet], leNat, leNat, Nat.mul_zero, Nat.add_zero]

/-- A byte behind the buffer shows in a word that reaches over the end of it. -/
theorem wordAt_append_ne {data : List U8} {byteIndex : Nat} (hle : byteIndex ≤ data.length)
    (hshort : data.length < byteIndex + 4) {octet : U8} (hoctet : octet ≠ 0) :
    wordAt (data ++ [octet]) byteIndex ≠ wordAt data byteIndex := by
  have htail : (data.drop byteIndex).length = data.length - byteIndex := List.length_drop
  have hpositive : 0 < 2 ^ (8 * (data.drop byteIndex).length) * octet.toNat :=
    Nat.mul_pos (Nat.two_pow_pos _) (Nat.pos_of_ne_zero fun hzero => hoctet (BitVec.eq_of_toNat_eq hzero))
  have hshown := leNat_lt (data.drop byteIndex ++ [octet])
  have hlonger : (data.drop byteIndex ++ [octet]).take 4 = data.drop byteIndex ++ [octet] :=
    List.take_of_length_le (by rw [List.length_append, List.length_singleton]; omega)
  rw [hlonger, leNat_append] at hshown
  intro heq
  have hnat := congrArg BitVec.toNat heq
  rw [wordAt, wordAt, List.drop_append_of_le_length hle, hlonger, leNat_append,
    List.take_of_length_le (by omega), BitVec.toNat_ofNat, BitVec.toNat_ofNat,
    Nat.mod_eq_of_lt hshown, Nat.mod_eq_of_lt (by omega)] at hnat
  omega

end ReadStream

end Serialize
