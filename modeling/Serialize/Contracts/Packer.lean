import Serialize.Writer.Holding

/-!
# The packer realises a bit list

Whatever fields, aligns and byte runs are written to a bit writer, and at whatever offsets, the
writer's counters, scratch and buffer stay those of the bit list they spell, and a flush stores that
list.
-/

namespace Serialize

open Machine BitString

namespace BitWriter

/-- A call of the writer. -/
inductive Call where
  | bits (value width : U32)
  | align
  | bytes (data : List U8)
  deriving DecidableEq, Repr

namespace Call

def run : Call → Action BitWriter Unit
  | .bits value width => writeBits value width
  | .align => writeAlign
  | .bytes data => writeBytes data

/-- What the caller owes a call at a position. -/
def Legal (position : Nat) : Call → Prop
  | .bits value width => (1 ≤ width.toNat ∧ width.toNat ≤ 32) ∧ value.toNat < 2 ^ width.toNat
  | .align => True
  | .bytes _ => position % 8 = 0

/-- The bits a call appends at a position. -/
def code (position : Nat) : Call → List Bool
  | .bits value width => toBits width.toNat value.toNat
  | .align => List.replicate ((8 - position % 8) % 8) false
  | .bytes data => bitsOfOctets data

end Call

def runAll : List Call → Action BitWriter Unit
  | [] => pure ()
  | call :: calls => do
      call.run
      runAll calls

def AllLegal : Nat → List Call → Prop
  | _, [] => True
  | position, call :: calls =>
      call.Legal position ∧ AllLegal (position + (call.code position).length) calls

def codeAll : Nat → List Call → List Bool
  | _, [] => []
  | position, call :: calls =>
      call.code position ++ codeAll (position + (call.code position).length) calls

/-- The counters agree, and the scratch holds no bit above its own. -/
structure Counted (writer : BitWriter) : Prop where
  bitsWritten : writer.bitsWritten = 64 * writer.wordIndex + writer.scratchBits
  scratchBits_lt : writer.scratchBits < 64
  scratch_lt : writer.scratch.toNat < 2 ^ writer.scratchBits

variable {buffer : List U8} {bits : List Bool}

theorem holding_counted (buffer : List U8) (bits : List Bool) : (holding buffer bits).Counted where
  bitsWritten := (Nat.div_add_mod bits.length 64).symm
  scratchBits_lt := Nat.mod_lt _ (by decide)
  scratch_lt := by
    have hlt := ofBits_lt (pendingBits bits)
    rw [length_pendingBits] at hlt
    show (BitVec.ofNat 64 (ofBits (pendingBits bits))).toNat < 2 ^ (bits.length % 64)
    rw [BitVec.toNat_ofNat]
    exact (Nat.mod_le _ _).trans_lt hlt

theorem Call.run_holding (hbuffer : Writable buffer) (profile : Profile) {call : Call}
    (hlegal : call.Legal bits.length)
    (hroom : bits.length + (call.code bits.length).length ≤ buffer.length * 8) :
    call.run profile (holding buffer bits)
      = .ok () (holding buffer (bits ++ call.code bits.length)) := by
  cases call with
  | bits value width =>
      rw [code, length_toBits] at hroom
      exact writeBits_holding hbuffer profile hlegal.1 hlegal.2 hroom
  | align =>
      rw [code, List.length_replicate] at hroom
      exact writeAlign_holding hbuffer profile hroom
  | bytes data =>
      rw [code, length_bitsOfOctets] at hroom
      exact writeBytes_holding hbuffer profile data hlegal hroom

theorem runAll_holding (hbuffer : Writable buffer) (profile : Profile) {calls : List Call}
    (hlegal : AllLegal bits.length calls)
    (hroom : bits.length + (codeAll bits.length calls).length ≤ buffer.length * 8) :
    runAll calls profile (holding buffer bits)
      = .ok () (holding buffer (bits ++ codeAll bits.length calls)) := by
  induction calls generalizing bits with
  | nil => rw [runAll, codeAll, List.append_nil, pure_apply]
  | cons call calls ih =>
      rw [codeAll, List.length_append] at hroom
      have hcall := call.run_holding hbuffer profile hlegal.1 (by omega)
      have hlength : (bits ++ call.code bits.length).length
          = bits.length + (call.code bits.length).length := List.length_append
      have hrest := @ih (bits ++ call.code bits.length) (by rw [hlength]; exact hlegal.2)
        (by rw [hlength]; omega)
      rw [runAll, bind_apply, hcall, Outcome.bind_ok, hrest, codeAll, hlength, List.append_assoc]

theorem AllLegal.left {position : Nat} {first second : List Call}
    (h : AllLegal position (first ++ second)) : AllLegal position first := by
  induction first generalizing position with
  | nil => trivial
  | cons call first ih => exact ⟨h.1, ih h.2⟩

theorem codeAll_append (position : Nat) (first second : List Call) :
    codeAll position (first ++ second) = codeAll position first
      ++ codeAll (position + (codeAll position first).length) second := by
  induction first generalizing position with
  | nil => rfl
  | cons call first ih =>
      rw [List.cons_append, codeAll, codeAll, ih, List.append_assoc, List.length_append,
        Nat.add_assoc]

theorem writeBytes_eq_writeEach (hbuffer : Writable buffer) (profile : Profile) {data : List U8}
    (haligned : bits.length % 8 = 0) (hroom : bits.length + 8 * data.length ≤ buffer.length * 8) :
    writeBytes data profile (holding buffer bits) = writeEach data profile (holding buffer bits) := by
  rw [writeBytes_holding hbuffer profile data haligned hroom,
    writeEach_holding hbuffer profile data hroom]

/-- The flushed buffer, bit by bit: the list, zeros up to a word, and what the buffer held before. -/
theorem bitsOfOctets_flushed (buffer : List U8) (bits : List Bool) :
    bitsOfOctets (flushed buffer bits).data = bits
      ++ List.replicate ((64 - bits.length % 64) % 64) false
      ++ bitsOfOctets (buffer.drop (8 * ((bits.length + 63) / 64))) := by
  have hpadding : 8 * (8 * wordsReached bits) - bits.length = (64 - bits.length % 64) % 64 := by
    rw [wordsReached]
    omega
  show bitsOfOctets (overwrite buffer (8 * wordsReached bits) bits) = _
  rw [overwrite, bitsOfOctets_append, bitsOfOctets_octetsOfBits_of_le (by rw [wordsReached]; omega),
    hpadding]
  rfl

/-- **The packer realises a bit list.** -/
theorem realises_bit_list {build : Build} {writer : BitWriter} {calls : List Call}
    (hwhole : buffer.length % 8 = 0) (hnew : BitWriter.new buffer build () = .ok writer ())
    (hlegal : AllLegal 0 calls) (hroom : (codeAll 0 calls).length ≤ 8 * buffer.length)
    (profile : Profile) :
    (∀ first second, calls = first ++ second →
      ∃ reached, runAll first profile writer = .ok () reached ∧ reached.Counted
        ∧ reached.bitsWritten = (codeAll 0 first).length
        ∧ ∀ data, reached.bitsWritten % 8 = 0 →
            reached.bitsWritten + 8 * data.length ≤ 8 * buffer.length →
            writeBytes data profile reached = writeEach data profile reached) ∧
    ∃ written flushed, runAll calls profile writer = .ok () written
      ∧ flushBits profile written = .ok () flushed
      ∧ flushed.bitsWritten = (codeAll 0 calls).length
      ∧ bitsOfOctets flushed.data = codeAll 0 calls
          ++ List.replicate ((64 - (codeAll 0 calls).length % 64) % 64) false
          ++ bitsOfOctets (buffer.drop (8 * (((codeAll 0 calls).length + 63) / 64)))
      ∧ flushBits profile flushed = .ok () flushed := by
  obtain ⟨hbuffer, rfl⟩ := new_eq_ok hwhole hnew
  have hwritten : ∀ bits, (holding buffer bits).bitsWritten = bits.length := fun _ => rfl
  have hempty : ([] : List Bool).length = 0 := rfl
  constructor
  · rintro first second rfl
    rw [codeAll_append, List.length_append] at hroom
    have hrun := @runAll_holding buffer [] hbuffer profile first hlegal.left (by
      rw [hempty]
      omega)
    refine ⟨holding buffer (codeAll 0 first), hrun, holding_counted _ _, rfl,
      fun data haligned hfits => ?_⟩
    rw [hwritten] at haligned hfits
    exact writeBytes_eq_writeEach hbuffer profile haligned (by omega)
  · have hrun := @runAll_holding buffer [] hbuffer profile calls hlegal (by
      rw [hempty]
      omega)
    exact ⟨holding buffer (codeAll 0 calls), flushed buffer (codeAll 0 calls), hrun,
      flushBits_holding hbuffer profile (by omega), rfl, bitsOfOctets_flushed _ _,
      flushBits_flushed profile _ _⟩

/-- Three bits, an align and two bytes in a dirty buffer of one word. -/
theorem realises_bit_list_one_word : ∃ written flushed,
    runAll [.bits 5 3, .align, .bytes [0xA5, 0x5A]] .checked (holding (List.replicate 8 0xFF) [])
      = .ok () written
      ∧ flushBits .checked written = .ok () flushed
      ∧ flushed.bitsWritten = 24
      ∧ bitsOfOctets flushed.data
        = toBits 3 5 ++ (List.replicate 5 false ++ (bitsOfOctets [0xA5, 0x5A] ++ []))
          ++ List.replicate 40 false ++ bitsOfOctets ((List.replicate 8 0xFF).drop 8)
      ∧ flushBits .checked flushed = .ok () flushed :=
  have hwhole : (List.replicate 8 (0xFF : U8)).length % 8 = 0 := by decide
  have hnew : BitWriter.new (List.replicate 8 0xFF) .checked ()
      = .ok (holding (List.replicate 8 0xFF) []) () := rfl
  have hlegal : AllLegal 0 [.bits 5 3, .align, .bytes [0xA5, 0x5A]] :=
    ⟨⟨by decide, by decide⟩, trivial, rfl, trivial⟩
  (realises_bit_list hwhole hnew hlegal (by decide) .checked).2

end BitWriter

end Serialize
