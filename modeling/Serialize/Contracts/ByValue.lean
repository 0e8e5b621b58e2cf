import Serialize.Contracts.Writes

/-!
# By-value writes

A by-value write is the unified operation on a copy of the value, in every state and under every
profile, so a packet may be written by value and read back through the interface.
-/

namespace Serialize

open Machine
open Binary32 (Arithmetic)
open ReadStream (exists_over)

namespace WriteStream

variable {κ δ : Type} {profile : Profile} {stream : WriteStream}

/-- Of an operation that does not refuse, dropping the result drops nothing. -/
theorem dropResult_eq (value : κ) (m : Action (WriteStream × κ) Unit) [hm : Infallible m] :
    dropResult value m profile stream = (m profile (stream, value)).mapState Prod.fst := by
  rw [dropResult]
  rcases hrun : m profile (stream, value) with ⟨⟨⟩, p⟩ | ⟨error, p⟩ | p
  · rfl
  · exact (hm.ne_err profile _ error p hrun).elim
  · rfl

theorem serializeBits_eq (value bits : U32) :
    (serializeBits bits : Action (WriteStream × U32) Unit) profile (stream, value)
      = (writeBits value bits profile stream).mapState fun stream' => (stream', value) := rfl

theorem writeBits_eq (value bits : U32) : writeBits value bits profile stream
    = ((serializeBits bits : Action (WriteStream × U32) Unit) profile (stream, value)).mapState
      Prod.fst := by
  rw [serializeBits_eq]
  cases writeBits value bits profile stream with
  | ok result stream' => rfl
  | err error stream' => rfl
  | trap stream' => rfl

/-- A value written through a local variable, which is not looked at after. -/
theorem writeBits_eq_inLocal (value : δ) (field : δ → U32) (bits : U32)
    (next : U32 → Action (WriteStream × δ) Unit) : writeBits (field value) bits profile stream
      = ((do
          let given ← load
          let written ← inLocal (field given) (serializeBits bits)
          whenReading (next written) : Action (WriteStream × δ) Unit) profile (stream, value)).mapState
            Prod.fst := by
  have hbits := @serializeBits_eq profile stream (field value) bits
  rw [bind_apply, load_apply, Outcome.bind_ok, bind_apply]
  rcases hrun : writeBits (field value) bits profile stream with ⟨⟨⟩, stream'⟩ | ⟨error, stream'⟩ |
    stream'
  · rw [hrun] at hbits
    rw [inLocal_of_ok hbits]
    rfl
  · rw [hrun] at hbits
    rw [inLocal_of_err hbits]
    rfl
  · rw [hrun] at hbits
    rw [inLocal_of_trap hbits]
    rfl

/-- A step on the stream alone, as an operation on a value sees it. -/
theorem mapState_onState (m : Action WriteStream Unit) (value : δ) :
    ((onState m : Action (WriteStream × δ) Unit) profile (stream, value)).mapState Prod.fst
      = m profile stream := by
  rw [onState_apply]
  cases m profile stream with
  | ok result stream' => rfl
  | err error stream' => rfl
  | trap stream' => rfl

theorem writeBytes_eq {n : Nat} (data : List.Vector U8 n) : writeBytes data.toList profile stream
    = ((serializeBytes : Action (WriteStream × List.Vector U8 n) Unit) profile (stream, data)).mapState
      Prod.fst := by
  rw [← mapState_onState (writeBytes data.toList) data, writeBytes]
  simp only [onState_seq]
  rfl

end WriteStream

namespace Write

section Twins

variable [Arithmetic] {profile : Profile} {stream : WriteStream}

/-- **A by-value write is its twin**, on any stream and under every profile. -/
theorem run_eq_twin (write : Write) : write.run profile stream
    = (write.twin.1.run profile (stream, write.twin.2)).mapState Prod.fst := by
  cases write with
  | bits value width => exact WriteStream.writeBits_eq value width
  | bits64 value width => exact WriteStream.dropResult_eq value (serializeBits64 width)
  | int value min max => exact WriteStream.dropResult_eq value (serializeInt min max)
  | int64 value min max => exact WriteStream.dropResult_eq value (serializeInt64 min max)
  | bool value =>
      exact WriteStream.writeBits_eq_inLocal value (fun value => if value then 1 else 0) 1
        fun written => store (decide (written ≠ 0))
  | u8 value =>
      exact WriteStream.writeBits_eq_inLocal value (BitVec.setWidth 32) 8
        fun written => store (written.setWidth 8)
  | u16 value =>
      exact WriteStream.writeBits_eq_inLocal value (BitVec.setWidth 32) 16
        fun written => store (written.setWidth 16)
  | u32 value => exact WriteStream.writeBits_eq value 32
  | u64 value => exact WriteStream.dropResult_eq value (serializeBits64 64)
  | f32 value => exact WriteStream.dropResult_eq value serializeF32
  | f64 value => exact WriteStream.dropResult_eq value serializeF64
  | bytes data => exact WriteStream.writeBytes_eq ⟨data, rfl⟩

/-- Writing by value leaves what the program of the twins leaves, whose variables hold the values
from the next one on. -/
theorem runAll_eq_run (writes : List Write) {memory : Memory} {log : List Carried}
    (hholds : ∀ i write, writes[i]? = some write →
      memory (log.length + i) write.twin.1 = write.twin.2) :
    runAll writes profile stream
      = ((Program.calls (operations writes)).run memory profile (stream, log)).mapState Prod.fst := by
  induction writes generalizing stream log with
  | nil => rfl
  | cons write writes ih =>
      have hvalue : memory log.length write.twin.1 = write.twin.2 := hholds 0 write rfl
      have hrest : ∀ value i write', writes[i]? = some write' →
          memory ((log ++ [(⟨write.twin.1, value⟩ : Carried)]).length + i) write'.twin.1
            = write'.twin.2 := by
        intro value i write' hwrite
        rw [List.length_append, List.length_singleton, Nat.add_assoc, Nat.add_comm 1 i]
        exact hholds (i + 1) write' hwrite
      rw [runAll, bind_apply, run_eq_twin, operations, List.map_cons, Program.calls, Program.run,
        bind_apply, load_apply, Outcome.bind_ok, bind_apply, hvalue]
      rcases hrun : write.twin.1.run profile (stream, write.twin.2) with ⟨⟨⟩, stream', value⟩ |
        ⟨error, p⟩ | ⟨stream', value⟩
      · rw [inLocal_of_ok hrun]
        exact ih (hrest value)
      · exact (Infallible.ne_err profile (stream, write.twin.2) error p hrun).elim
      · rw [inLocal_of_trap hrun]
        rfl

/-- The program of the twins, on variables that hold the values. -/
theorem runAll_eq_calls (writes : List Write) {memory : Memory}
    (hholds : memory.Holds (writes.map twin)) : runAll writes profile stream
      = ((Program.calls (operations writes)).run memory profile (stream, [])).mapState Prod.fst := by
  refine runAll_eq_run writes fun i write hwrite => hholds _ write.twin ?_
  rw [List.length_nil, Nat.zero_add, List.getElem?_map, hwrite]
  rfl

end Twins

theorem calls_open (operations : List Operation) : (Program.calls operations).Open := by
  induction operations with
  | nil => trivial
  | cons operation operations ih => exact fun _ => ih

theorem calls_carries (writes : List Write) {memory : Memory} {n : Nat}
    (hholds : ∀ i write, writes[i]? = some write → memory (n + i) write.twin.1 = write.twin.2) :
    (Program.calls (operations writes)).carries memory n = writes.map twin := by
  induction writes generalizing n with
  | nil => rfl
  | cons write writes ih =>
      have hvalue : memory n write.twin.1 = write.twin.2 := hholds 0 write rfl
      have hrest : ∀ i write', writes[i]? = some write' →
          memory (n + 1 + i) write'.twin.1 = write'.twin.2 := by
        intro i write' hwrite
        rw [Nat.add_assoc, Nat.add_comm 1 i]
        exact hholds (i + 1) write' hwrite
      have htail : (Program.calls (operations (write :: writes))).carries memory n
          = ⟨write.twin.1, memory n write.twin.1⟩
            :: (Program.calls (operations writes)).carries memory (n + 1) := rfl
      rw [htail, hvalue, ih hrest, List.map_cons]

/-- The variables that hold the values of the writes. -/
theorem ofLog_twin {writes : List Write} {i : Nat} {write : Write} (h : writes[i]? = some write) :
    Memory.ofLog (writes.map twin) (0 + i) write.twin.1 = write.twin.2 := by
  refine Memory.ofLog_holds (writes.map twin) (0 + i) write.twin ?_
  rw [Nat.zero_add, List.getElem?_map, h]
  rfl

theorem twin_exact (write : Write) : write.twin.1.Exact := by
  cases write <;> trivial

end Write

section ByValue

variable [Arithmetic]

/-- **A by-value write is its unified twin**: any writes, on any stream and under every profile,
end as the program of their twins does and leave the same stream. -/
theorem by_value_twins (writes : List Write) (profile : Profile) (stream : WriteStream)
    {memory : Memory} (hholds : memory.Holds (writes.map Write.twin)) :
    Write.runAll writes profile stream
      = ((Program.calls (Write.operations writes)).run memory profile (stream, [])).mapState Prod.fst :=
  Write.runAll_eq_calls writes hholds

/-- **What is written by value is read back**, whatever lies behind the packet, in exactly the bits
it was written in, and the end of the packet is accepted there. -/
theorem by_value_round_trip {buffer : List U8} {build : Build} {stream : WriteStream}
    {writes : List Write} (hwhole : buffer.length % 8 = 0)
    (hnew : WriteStream.new buffer build () = .ok stream ())
    (hconforming : Conforming (writes.map Write.twin))
    (hroom : (wireBits (writes.map Write.twin)).length ≤ 8 * buffer.length) (profile : Profile) :
    ∃ written flushed, Write.runAll writes profile stream = .ok () written
      ∧ WriteStream.flush profile written = .ok () flushed
      ∧ ∀ (slack : List U8) (profile' : Profile) (memory' : Memory), ∃ reader final,
          ReadStream.new (flushed.data ++ slack) flushed.bytesProcessed profile' () = .ok reader ()
            ∧ (Program.calls (Write.operations writes)).run memory' profile' (reader, [])
              = .ok () (final, writes.map Write.twin)
            ∧ bitsProcessed final = bitsProcessed flushed
            ∧ ∃ ended, serializeEnd profile' final = .ok () ended := by
  obtain ⟨hbuffer, rfl⟩ := WriteStream.new_eq_ok hwhole hnew
  have hnumBits := hbuffer.numBits_lt
  set memory := Memory.ofLog (writes.map Write.twin)
  set program := Program.calls (Write.operations writes)
  have hcarries : program.carries memory 0 = writes.map Write.twin :=
    Write.calls_carries writes fun i write => Write.ofLog_twin
  have hopen : program.Open := Write.calls_open _
  have hexact : ∀ entry ∈ program.carries memory 0, entry.1.Exact := by
    rw [hcarries]
    intro entry hentry
    obtain ⟨write, -, rfl⟩ := List.mem_map.mp hentry
    exact write.twin_exact
  rw [← hcarries] at hconforming hroom
  have hwritten : Write.runAll writes profile (WriteStream.holding buffer [])
      = .ok () (WriteStream.holding buffer (wireBits (program.carries memory 0))) := by
    rw [Write.runAll_eq_calls writes (Memory.ofLog_holds _), Program.run_fresh hbuffer hconforming hroom]
    rfl
  refine ⟨_, _, hwritten, WriteStream.flush_holding hbuffer profile (by omega),
    fun slack profile' memory' => ?_⟩
  have hlength : (wirePacket (program.carries memory 0)).length * 8 < 2 ^ 64 := by
    rw [length_wirePacket]
    omega
  have hread := read_back hopen hconforming hexact hlength slack profile' memory'
  rw [hcarries, length_wirePacket] at hread
  rw [hcarries, WriteStream.data_flushed]
  exact hread

end ByValue

/-- A field, a flag and a byte, by value. -/
def fieldFlagByte : List Write := [.bits 5 3, .bool true, .bytes [0xA5]]

/-- `fieldFlagByte` on a stream with room for one word. -/
theorem by_value_twins_field_flag_byte :
    Write.runAll fieldFlagByte .checked (WriteStream.holding (List.replicate 8 0) [])
      = ((Program.calls (Write.operations fieldFlagByte)).run
          (Memory.ofLog (fieldFlagByte.map Write.twin)) .checked
          (WriteStream.holding (List.replicate 8 0) [], [])).mapState Prod.fst :=
  by_value_twins fieldFlagByte .checked _ (Memory.ofLog_holds _)

/-- `fieldFlagByte` takes two bytes. -/
theorem by_value_round_trip_field_flag_byte : ∃ written flushed,
    Write.runAll fieldFlagByte .checked (WriteStream.holding (List.replicate 8 0) [])
      = .ok () written
      ∧ WriteStream.flush .checked written = .ok () flushed
      ∧ ∀ (slack : List U8) (profile' : Profile) (memory' : Memory), ∃ reader final,
          ReadStream.new (flushed.data ++ slack) flushed.bytesProcessed profile' () = .ok reader ()
            ∧ (Program.calls (Write.operations fieldFlagByte)).run memory' profile' (reader, [])
              = .ok () (final, fieldFlagByte.map Write.twin)
            ∧ bitsProcessed final = bitsProcessed flushed
            ∧ ∃ ended, serializeEnd profile' final = .ok () ended := by
  have hwhole : (List.replicate 8 (0 : U8)).length % 8 = 0 := by decide
  have hnew : WriteStream.new (List.replicate 8 0) .checked ()
      = .ok (WriteStream.holding (List.replicate 8 0) []) () := rfl
  have hroom : (wireBits (fieldFlagByte.map Write.twin)).length
      ≤ 8 * (List.replicate 8 (0 : U8)).length := by decide
  have hwidth : 1 ≤ (3 : U32).toNat ∧ (3 : U32).toNat ≤ 32 := by decide
  have hvalue : (5 : U32).toNat < 2 ^ (3 : U32).toNat := by decide
  have hconforming : Conforming (fieldFlagByte.map Write.twin) := by
    intro entry hentry
    rcases List.mem_cons.mp hentry with rfl | hentry
    · exact ⟨hwidth, hvalue, trivial⟩
    · rcases List.mem_cons.mp hentry with rfl | hentry
      · exact ⟨trivial, trivial, trivial⟩
      · rw [List.mem_singleton.mp hentry]
        exact ⟨trivial, trivial, trivial⟩
  exact by_value_round_trip hwhole hnew hconforming hroom .checked

end Serialize
