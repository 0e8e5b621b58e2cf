import Serialize.Contracts.WireFormat
import Serialize.Reader.Programs

/-!
# Round trips

Reading undoes writing, and writing undoes reading on every packet a program accepts: a packet a
program accepts to the end is the one packet that carries its values.
-/

namespace Serialize

open Machine BitString Decode
open Binary32 (Arithmetic)
open ReadStream

section RoundTrip

variable [Arithmetic] {program : Program} {memory : Memory} {buffer : List U8} {build : Build}

/-- The packet of the values a program carries is read back to its end. -/
theorem read_wirePacket {reader : ReadStream} (hopen : program.Open)
    (hconforming : Conforming (program.carries memory 0))
    (hexact : ∀ entry ∈ program.carries memory 0, entry.1.Exact)
    (hover : reader.Over (wirePacket (program.carries memory 0)) build) (memory' : Memory) :
    ∃ final, program.run memory' build (reader, []) = .ok () (final, program.carries memory 0)
      ∧ bitsProcessed final = (wireBits (program.carries memory 0)).length
      ∧ ∃ ended, serializeEnd build final = .ok () ended := by
  set carried := program.carries memory 0 with hcarried
  obtain ⟨hvalid, hstart⟩ := hover.cursor
  have hlimit : (startOf (wirePacket carried)).limit < 2 ^ 64 := by
    rw [← hstart]
    exact hvalid.limit_lt
  have hlive : (startOf (wirePacket carried)).Live := rfl
  set behind : Cursor Error :=
    { remaining := List.replicate (byteBoundary (wireBits carried).length) false
      position := (wireBits carried).length
      failed := none }
  have htakes : Program.Takes (startOf (wirePacket carried)) behind carried :=
    ⟨hconforming, bitsOfOctets_wirePacket carried, (Nat.zero_add _).symm, rfl⟩
  have htrace : program.trace build (startOf (wirePacket carried), []) = .ok () (behind, carried) :=
    Program.trace_of_takes hopen hlive hlimit hexact htakes
  have hmatch := Program.run_over hover program memory' build
  rw [htrace] at hmatch
  obtain ⟨_, _, -, hescape⟩ | ⟨⟨final, _⟩, hrun, ⟨⟨hvalid', hcursor⟩, rfl⟩⟩ := hmatch.ok_right
  · exact hescape.elim
  · have hfinish : finishAt final.cursor = .ok () (final.cursor.advance _) :=
      finishAt_eq_ok_iff.mpr (by
        rw [hcursor]
        refine ⟨rfl, ?_, ofBits_replicate_false _, rfl⟩
        rw [List.length_replicate, byteBoundary]
        omega)
    have hend := readEnd_sim build final final.cursor ⟨hvalid', rfl⟩
    dsimp only at hend
    rw [hfinish] at hend
    obtain ⟨_, _, -, hescape⟩ | ⟨ended, hended, -⟩ := hend.ok_right
    · exact hescape.elim
    · exact ⟨final, hrun, congrArg Cursor.position hcursor, ended, hended⟩

/-- The packet is read back under every profile, whatever lies behind it. -/
theorem read_back (hopen : program.Open) (hconforming : Conforming (program.carries memory 0))
    (hexact : ∀ entry ∈ program.carries memory 0, entry.1.Exact)
    (hlength : (wirePacket (program.carries memory 0)).length * 8 < 2 ^ 64) (slack : List U8)
    (profile : Profile) (memory' : Memory) :
    ∃ reader final,
      ReadStream.new (wirePacket (program.carries memory 0) ++ slack)
          (wirePacket (program.carries memory 0)).length profile () = .ok reader ()
        ∧ program.run memory' profile (reader, []) = .ok () (final, program.carries memory 0)
        ∧ bitsProcessed final = (wireBits (program.carries memory 0)).length
        ∧ ∃ ended, serializeEnd profile final = .ok () ended := by
  obtain ⟨reader, hread, hover⟩ := exists_over slack .checked hlength
  obtain ⟨final, hrun, hposition, ended, hend⟩ :=
    read_wirePacket hopen hconforming hexact hover memory'
  exact ⟨reader, final, ProfilesAgree.of_checked inferInstance hread profile,
    (program.run_agrees memory').of_checked hrun profile, hposition, ended,
    StreamAgrees.serializeEnd.of_checked hend profile⟩

/-- **Decode undoes encode.** What a program writes it reads back, whatever lies behind the packet,
in exactly the bits it wrote, and the end of the packet is accepted there. -/
theorem round_trip {stream : WriteStream} (hopen : program.Open) (hwhole : buffer.length % 8 = 0)
    (hnew : WriteStream.new buffer build () = .ok stream ())
    (hconforming : Conforming (program.carries memory 0))
    (hexact : ∀ entry ∈ program.carries memory 0, entry.1.Exact)
    (hroom : (wireBits (program.carries memory 0)).length ≤ 8 * buffer.length) (profile : Profile) :
    ∃ written flushed,
      program.run memory profile (stream, []) = .ok () (written, program.carries memory 0)
        ∧ WriteStream.flush profile written = .ok () flushed
        ∧ ∀ (slack : List U8) (profile' : Profile) (memory' : Memory), ∃ reader final,
            ReadStream.new (flushed.data ++ slack) flushed.bytesProcessed profile' () = .ok reader ()
              ∧ program.run memory' profile' (reader, []) = .ok () (final, program.carries memory 0)
              ∧ bitsProcessed final = bitsProcessed flushed
              ∧ ∃ ended, serializeEnd profile' final = .ok () ended := by
  obtain ⟨hbuffer, rfl⟩ := WriteStream.new_eq_ok hwhole hnew
  have hnumBits := hbuffer.numBits_lt
  have hfits : (wireBits (program.carries memory 0)).length ≤ buffer.length * 8 := by omega
  refine ⟨_, _, Program.run_fresh hbuffer hconforming hroom,
    WriteStream.flush_holding hbuffer profile hfits, fun slack profile' memory' => ?_⟩
  set carried := program.carries memory 0 with hcarried
  have hdata : (WriteStream.flushed buffer (wireBits carried)).data = wirePacket carried :=
    WriteStream.data_flushed _ _
  have hbytes : (WriteStream.flushed buffer (wireBits carried)).bytesProcessed
      = (wirePacket carried).length := (length_wirePacket carried).symm
  have hlength : (wirePacket carried).length * 8 < 2 ^ 64 := by
    rw [length_wirePacket]
    omega
  rw [hdata, hbytes]
  exact read_back hopen hconforming hexact hlength slack profile' memory'

/-- A packet that a program accepts to the end is the packet its values are written as. -/
theorem packet_of_accepted {packet : List U8} {stream final : ReadStream} {log : List Carried}
    (hopen : program.Open) (hover : stream.Over packet build)
    (haccepted : program.runToEnd memory build (stream, []) = .ok () (final, log))
    (hexact : ∀ entry ∈ log, entry.1.Exact) :
    Conforming log ∧ packet = wirePacket log
      ∧ ∀ memory' : Memory, memory'.Holds log → program.carries memory' 0 = log := by
  obtain ⟨c, htrace, hshort, hzero⟩ := Program.runToEnd_eq_ok hover haccepted
  have hlive : (startOf packet).Live := rfl
  obtain ⟨_, rfl, ⟨hconforming, hremaining, -, -⟩, hcarries⟩ :=
    Program.takes_of_trace hopen hlive htrace hexact
  have hpadding : c.remaining = List.replicate c.remaining.length false :=
    (ofBits_eq_zero_iff _).mp hzero
  refine ⟨hconforming, bitsOfOctets_injective ?_, hcarries⟩
  have hbits : bitsOfOctets packet = wireBits log ++ c.remaining := hremaining
  have hlength := congrArg List.length hbits
  have hboundary : c.remaining.length = byteBoundary (wireBits log).length := by
    rw [length_bitsOfOctets, List.length_append] at hlength
    rw [byteBoundary]
    omega
  rw [bitsOfOctets_wirePacket, ← hboundary, ← hpadding]
  exact hbits

/-- **Every value has exactly one encoding.** What a program accepted to the end it writes again as
the same packet, and no other packet carries the same values. -/
theorem one_encoding {packet : List U8} {stream final : ReadStream} {log : List Carried}
    (hopen : program.Open) (hover : stream.Over packet build)
    (haccepted : program.runToEnd memory build (stream, []) = .ok () (final, log))
    (hexact : ∀ entry ∈ log, entry.1.Exact) :
    (∀ (buffer : List U8) (build' : Build) (memory' : Memory) (stream' : WriteStream),
      memory'.Holds log → buffer.length % 8 = 0 → packet.length ≤ buffer.length →
      WriteStream.new buffer build' () = .ok stream' () →
      ∃ written flushed, program.run memory' build' (stream', []) = .ok () (written, log)
        ∧ WriteStream.flush build' written = .ok () flushed
        ∧ flushed.bytesProcessed = packet.length ∧ flushed.data = packet) ∧
    ∀ (packet' : List U8) (build' : Build) (memory' : Memory) (stream' final' : ReadStream),
      stream'.Over packet' build' →
      program.runToEnd memory' build' (stream', []) = .ok () (final', log) → packet' = packet := by
  obtain ⟨hconforming, hpacket, hcarries⟩ := packet_of_accepted hopen hover haccepted hexact
  constructor
  · intro buffer build' memory' stream' hholds hwhole hlength hnew
    obtain ⟨hbuffer, rfl⟩ := WriteStream.new_eq_ok hwhole hnew
    have hcarried := hcarries memory' hholds
    have hbytes := length_wirePacket log
    rw [hpacket, hbytes] at hlength
    have hrun := @Program.run_fresh _ program memory' buffer build' hbuffer
      (by rw [hcarried]; exact hconforming) (by rw [hcarried]; omega)
    rw [hcarried] at hrun
    refine ⟨_, _, hrun, WriteStream.flush_holding hbuffer build' (by omega), ?_, ?_⟩
    · rw [hpacket]
      exact hbytes.symm
    · rw [hpacket]
      exact WriteStream.data_flushed _ _
  · intro packet' build' memory' stream' final' hover' haccepted'
    rw [hpacket]
    exact (packet_of_accepted hopen hover' haccepted' hexact).2.1

end RoundTrip

/-- `fieldAndBytes` written and read back. -/
theorem round_trip_three_bytes : ∃ written flushed,
    fieldAndBytes.run fieldAndBytesMemory .checked
        (WriteStream.holding (List.replicate 8 0) [], [])
      = .ok () (written, fieldAndBytes.carries fieldAndBytesMemory 0)
      ∧ WriteStream.flush .checked written = .ok () flushed
      ∧ ∀ (slack : List U8) (profile' : Profile) (memory' : Memory), ∃ reader final,
          ReadStream.new (flushed.data ++ slack) flushed.bytesProcessed profile' () = .ok reader ()
            ∧ fieldAndBytes.run memory' profile' (reader, [])
              = .ok () (final, fieldAndBytes.carries fieldAndBytesMemory 0)
            ∧ bitsProcessed final = bitsProcessed flushed
            ∧ ∃ ended, serializeEnd profile' final = .ok () ended :=
  have hopen : fieldAndBytes.Open := fun _ => ⟨fun _ => trivial, fun _ => trivial⟩
  have hwhole : (List.replicate 8 (0 : U8)).length % 8 = 0 := by decide
  have hnew : WriteStream.new (List.replicate 8 0) .checked ()
      = .ok (WriteStream.holding (List.replicate 8 0) []) () := rfl
  have hexact : ∀ entry ∈ fieldAndBytes.carries fieldAndBytesMemory 0, entry.1.Exact := by
    intro entry hentry
    rcases List.mem_cons.mp hentry with rfl | hentry
    · trivial
    · rw [List.mem_singleton.mp hentry]
      trivial
  have hroom : (wireBits (fieldAndBytes.carries fieldAndBytesMemory 0)).length
      ≤ 8 * (List.replicate 8 (0 : U8)).length := by decide
  round_trip hopen hwhole hnew fieldAndBytes_conforming hexact hroom .checked

/-- One integer of three bits. -/
def oneInt : Program := .step (.int 0 5) fun _ => .done

theorem oneInt_open : oneInt.Open := fun _ => trivial

theorem oneInt_over : (fresh [3] 1).Over [3] .checked := ⟨[], rfl⟩

theorem oneInt_accepted : oneInt.runToEnd (fun _ operation => operation.blank) .checked (fresh [3] 1, [])
    = .ok () ({ reader := { data := [3], numBits := 8, bitsRead := 8 }, failed := none },
        [⟨.int 0 5, 3⟩]) := rfl

/-- The one packet that carries 3 in three bits. -/
theorem one_encoding_one_int :
    (∀ (buffer : List U8) (build' : Build) (memory' : Memory) (stream' : WriteStream),
      memory'.Holds [⟨.int 0 5, 3⟩] → buffer.length % 8 = 0 → [(3 : U8)].length ≤ buffer.length →
      WriteStream.new buffer build' () = .ok stream' () →
      ∃ written flushed,
        oneInt.run memory' build' (stream', []) = .ok () (written, [⟨.int 0 5, 3⟩])
          ∧ WriteStream.flush build' written = .ok () flushed
          ∧ flushed.bytesProcessed = 1 ∧ flushed.data = [3]) ∧
    ∀ (packet' : List U8) (build' : Build) (memory' : Memory) (stream' final' : ReadStream),
      stream'.Over packet' build' →
      oneInt.runToEnd memory' build' (stream', []) = .ok () (final', [⟨.int 0 5, 3⟩]) →
      packet' = [3] :=
  one_encoding oneInt_open oneInt_over oneInt_accepted
    (fun entry hentry => by rw [List.mem_singleton.mp hentry]; trivial)

end Serialize
