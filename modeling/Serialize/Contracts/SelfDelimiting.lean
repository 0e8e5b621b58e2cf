import Serialize.Contracts.RoundTrip
import Serialize.Reader.Unwrapped

/-!
# Packets are self-delimiting

A program that accepts a packet to the end reads the same values from any longer one and refuses
only its end, and is refused by every shorter one before the end, as past the end and with the
values before the cut unchanged.
-/

namespace Serialize

open Machine BitString Decode
open Binary32 (Arithmetic)
open ReadStream

theorem finishAt_trailing {c : Cursor Error} (hlive : c.Live) (h : 8 ≤ c.remaining.length) :
    finishAt c = .err .trailingData { c with failed := some .trailingData } := by
  rw [finishAt, show c.failed = none from hlive]
  dsimp only
  rw [if_pos h, Cursor.latch_of_live hlive]

section SelfDelimiting

variable [Arithmetic] {program : Program} {memory : Memory} {build : Build} {packet : List U8}
  {stream final : ReadStream} {log : List Carried} {c : Cursor Error}

/-- More bytes behind an accepted packet: the program carries the same values and stops in front of
a byte too many. -/
theorem run_of_longer (hopen : program.Open) {extra : List U8} (hextra : extra ≠ [])
    (htrace : program.trace build (startOf packet, []) = .ok () (c, log))
    (hover : stream.Over (packet ++ extra) build) :
    ∃ final, program.run memory build (stream, []) = .ok () (final, log)
      ∧ ∃ refused, serializeEnd build final = .err .trailingData refused := by
  have hlive : (startOf packet).Live := rfl
  have hcut := @Program.trace_cutShort _ build _ _ hopen hlive (bitsOfOctets extra) []
  have hleaves := Program.trace_leaves program build hlive []
  have hmatch := Program.run_over hover program memory build
  rw [htrace] at hcut hleaves
  obtain ⟨_, hlonger, rfl⟩ := hcut.ok_left
  rw [startOf_append, hlonger] at hmatch
  obtain ⟨_, _, -, hescape⟩ | ⟨⟨final, _⟩, hrun, ⟨⟨hvalid, hcursor⟩, rfl⟩⟩ :=
    hmatch.ok_right
  · exact hescape.elim
  · refine ⟨final, hrun, ?_⟩
    have hlong : 8 ≤ (c.extend (bitsOfOctets extra)).remaining.length := by
      have hbytes := List.length_pos_iff.mpr hextra
      show 8 ≤ (c.remaining ++ bitsOfOctets extra).length
      rw [List.length_append, length_bitsOfOctets]
      omega
    have hend := readEnd_sim build final final.cursor ⟨hvalid, rfl⟩
    dsimp only at hend hcursor
    rw [hcursor, finishAt_trailing (show (c.extend (bitsOfOctets extra)).Live from hleaves.1) hlong]
      at hend
    rcases hread : readEnd build final with ⟨_, ended⟩ | ⟨error, ended⟩ | ended
    · rw [hread] at hend
      obtain ⟨_, herr, -⟩ := hend.ok_left
      cases herr
    · rw [hread] at hend
      obtain hescape | ⟨_, herr, -⟩ := hend.err_left
      · exact hescape.elim
      · cases herr
        exact ⟨ended, hread⟩
    · rw [hread] at hend
      obtain ⟨_, herr, -⟩ := hend.trap_left
      cases herr

/-- Bytes cut off an accepted packet: the program runs past the end. -/
theorem run_of_shorter (hopen : program.Open) {short extra : List U8} (hextra : extra ≠ [])
    (htrace : program.trace build (startOf (short ++ extra), []) = .ok () (c, log))
    (hfinish : c.remaining.length < 8) (hover : stream.Over short build) :
    ∃ refused log', program.run memory build (stream, []) = .err .pastEnd (refused, log')
      ∧ log' <+: log ∧ log'.length < log.length := by
  have hlive : (startOf short).Live := rfl
  have hcut := @Program.trace_cutShort _ build _ _ hopen hlive (bitsOfOctets extra) []
  have hmatch := Program.run_over hover program memory build
  rw [← startOf_append, htrace] at hcut
  rcases hrun : program.trace build (startOf short, []) with ⟨_, p⟩ | ⟨error, p⟩ | p
  · -- the whole program fits the short packet, so the long one has bytes to spare
    rw [hrun] at hcut
    obtain ⟨_, heq, hp⟩ := hcut.ok_left
    cases heq
    have hbytes := List.length_pos_iff.mpr hextra
    have hremaining : c.remaining = p.1.remaining ++ bitsOfOctets extra :=
      congrArg (fun q => q.1.remaining) hp
    rw [hremaining, List.length_append, length_bitsOfOctets] at hfinish
    omega
  · rw [hrun] at hcut hmatch
    obtain ⟨rfl, -, hgrown, hlonger⟩ | ⟨_, heq, -⟩ := hcut.err_left
    · rcases hread : program.run memory build (stream, []) with ⟨_, q⟩ | ⟨error, q⟩ | q
      · rw [hread] at hmatch
        obtain ⟨_, herr, -⟩ := hmatch.ok_left
        cases herr
      · rw [hread] at hmatch
        obtain hescape | ⟨_, herr, -, hlog⟩ := hmatch.err_left
        · exact hescape.elim
        · cases herr
          refine ⟨q.1, q.2, rfl, ?_, ?_⟩
          · rw [hlog]
            exact hgrown
          · rw [hlog]
            exact hlonger _ rfl
      · rw [hread] at hmatch
        obtain ⟨_, herr, -⟩ := hmatch.trap_left
        cases herr
    · cases heq
  · rw [hrun] at hcut
    obtain ⟨_, heq, -⟩ := hcut.trap_left
    cases heq

end SelfDelimiting

/-! ### Where no field wraps -/

section Profiles

variable [Arithmetic] {packet : List U8}

/-- On a longer packet, the program carries the values it carries on this one, and the end is refused
for what follows. -/
def ReadsLonger (profile : Profile) (packet : List U8) (program : Program) (log : List Carried) :
    Prop :=
  ∀ (extra : List U8) (memory : Memory) (stream : ReadStream), extra ≠ [] →
    (packet ++ extra).length < 2 ^ 61 → stream.Over (packet ++ extra) profile →
    ∃ final, program.run memory profile (stream, []) = .ok () (final, log)
      ∧ ∃ refused, serializeEnd profile final = .err .trailingData refused

/-- On a packet cut short, the program is refused as past the end before it ends, with the values in
front of the cut. -/
def RefusesShorter (profile : Profile) (packet : List U8) (program : Program) (log : List Carried) :
    Prop :=
  ∀ (short : List U8) (memory : Memory) (stream : ReadStream), short <+: packet → short ≠ packet →
    short.length < 2 ^ 61 → stream.Over short profile →
    ∃ refused log', program.run memory profile (stream, []) = .err .pastEnd (refused, log')
      ∧ log' <+: log ∧ log'.length < log.length

/-- Under every program that accepts it to the end, the packet ends where the program does: neither a
longer nor a shorter one is accepted. -/
def SelfDelimits (profile : Profile) (packet : List U8) : Prop :=
  ∀ (program : Program) (memory : Memory) (stream final : ReadStream) (log : List Carried),
    program.Open → stream.Over packet profile →
    program.runToEnd memory profile (stream, []) = .ok () (final, log) →
    ReadsLonger profile packet program log ∧ RefusesShorter profile packet program log

theorem selfDelimits_of_build (build : Build) (packet : List U8) : SelfDelimits build packet := by
  intro program memory stream final log hopen hover haccepted
  obtain ⟨c, htrace, hshort, -⟩ := Program.runToEnd_eq_ok hover haccepted
  constructor
  · intro extra memory' stream' hextra _ hover'
    exact run_of_longer hopen hextra htrace hover'
  · rintro short memory' stream' ⟨extra, rfl⟩ hproper _ hover'
    have hextra : extra ≠ [] := by
      rintro rfl
      exact hproper (List.append_nil _).symm
    exact run_of_shorter hopen hextra htrace hshort hover'

/-- What a build with overflow checks does without a panic, the default release profile does. -/
theorem run_wrapping_of_unchecked {program : Program} {memory : Memory} {stream : ReadStream}
    {outcome : Outcome Error (ReadStream × List Carried) Unit}
    (h : program.run memory .unchecked (stream, []) = outcome) (hreturned : outcome.Returned) :
    program.run memory .wrapping (stream, []) = outcome := by
  have hlax : Profile.wrapping.Relaxes .unchecked := trivial
  rw [(program.run_agrees memory).agree hlax (stream, []) (by rw [h]; exact hreturned), h]

theorem selfDelimits_of_roomy (hroom : packet.length < 2 ^ 61 - 4) : SelfDelimits .wrapping packet := by
  intro program memory stream final log hopen hover haccepted
  have hover' := Over.of_wrapping hover (by omega)
  obtain ⟨hvalid, hcursor⟩ := hover'.cursor
  have hroomy : Roomy stream := by
    refine ⟨hvalid, ?_⟩
    rw [← hvalid.limit_cursor, hcursor, Cursor.limit, startOf]
    dsimp only
    rw [length_bitsOfOctets]
    omega
  obtain ⟨haccepted', -⟩ := program.runToEnd_unwraps memory _ _ _ hroomy haccepted
  obtain ⟨hlonger, hshorter⟩ :=
    selfDelimits_of_build .unchecked packet program memory stream final log hopen hover' haccepted'
  constructor
  · intro extra memory' stream' hextra hlength hover''
    obtain ⟨final', hrun, refused, hend⟩ :=
      hlonger extra memory' stream' hextra hlength (Over.of_wrapping hover'' hlength)
    have hlax : Profile.wrapping.Relaxes .unchecked := trivial
    have hagree : ProfilesAgree (serializeEnd : Action ReadStream Unit) := StreamAgrees.serializeEnd
    refine ⟨final', run_wrapping_of_unchecked hrun trivial, refused, ?_⟩
    rw [hagree.agree hlax final' (by rw [hend]; trivial), hend]
  · intro short memory' stream' hprefix hproper hlength hover''
    obtain ⟨refused, log', hrun, hlog⟩ :=
      hshorter short memory' stream' hprefix hproper hlength (Over.of_wrapping hover'' hlength)
    exact ⟨refused, log', run_wrapping_of_unchecked hrun trivial, hlog⟩

/-! ### Where a field wraps -/

/-- Read a run of bytes. -/
def octets (count : Nat) : Program := .step (.bytes count) fun _ => .done

/-- Read up to a byte, a word from there on, and a run of bytes behind it. -/
def peekThrough (start count : Nat) : Program :=
  .step (.bytes start) fun _ => .step (.bits 32) fun _ => octets count

variable {buffer : List U8} {bytes start count : Nat}

theorem octets_run_of_le {stream : ReadStream} (hvalid : stream.Valid) (hlive : stream.failed = none)
    (hle : 8 * count ≤ stream.reader.numBits) (memory : Memory) (profile : Profile)
    (log : List Carried) : ∃ value,
      (octets count).run memory profile (stream.moveTo 0, log)
        = .ok () (stream.moveTo (0 + 8 * count), log ++ [⟨.bytes count, value⟩]) :=
  ⟨_, Program.run_step_of_ok (serializeBytes_of_le profile (hvalid.moved (Nat.zero_le _)) hlive
    (Nat.zero_mod 8) (show 0 + 8 * count ≤ stream.reader.numBits by omega)
    (memory log.length (.bytes count)))⟩

theorem octets_run_of_short {stream : ReadStream} (hvalid : stream.Valid) (hlive : stream.failed = none)
    (hshort : stream.reader.numBits < 8 * count) (memory : Memory) (profile : Profile)
    (log : List Carried) : ∃ refused, (octets count).run memory profile (stream.moveTo 0, log)
      = .err .pastEnd (refused, log) :=
  ⟨_, Program.run_step_of_err (serializeBytes_of_short profile (hvalid.moved (Nat.zero_le _)) hlive
    (Nat.zero_mod 8) (show stream.reader.numBits < 0 + 8 * count by omega)
    (memory log.length (.bytes count)))⟩

/-- From 32 bits below `2 ^ 64` the word is whatever the buffer holds there, and the program goes on at
the front. -/
theorem peekThrough_run (hle : bytes ≤ buffer.length) (hstart : start = 2 ^ 61 - 4)
    (hlarge : start ≤ bytes) (hfits : bytes < 2 ^ 61) (memory : Memory) (count : Nat) : ∃ value,
      (peekThrough start count).run memory .wrapping (atStart buffer (bytes * 8), [])
        = (octets count).run memory .wrapping ((atStart buffer (bytes * 8)).moveTo 0,
          [⟨.bytes start, value⟩, ⟨.bits 32, wordAt buffer start⟩]) := by
  set stream := atStart buffer (bytes * 8) with hstream
  have hvalid : stream.Valid := atStart_valid (Nat.mul_mod_left _ _) (by omega) (by omega)
  have hstop : 0 + 8 * start ≤ bytes * 8 := by omega
  have hbytes := serializeBytes_of_le .wrapping hvalid rfl (Nat.zero_mod _) hstop
    (memory 0 (.bytes start))
  have hword : serializeBits 32 .wrapping (stream.moveTo (0 + 8 * start), memory 1 (.bits 32))
      = .ok () (stream.moveTo (0 + 8 * start + 32 - 2 ^ 64), wordAt buffer ((0 + 8 * start) / 8)) :=
    serializeBits_wraps (hvalid.moved hstop) rfl (show (0 + 8 * start) % 8 = 0 by omega)
      (show 2 ^ 64 ≤ 0 + 8 * start + 32 by omega) (memory 1 (.bits 32))
  rw [show 0 + 8 * start + 32 - 2 ^ 64 = 0 by omega, show (0 + 8 * start) / 8 = start by omega] at hword
  obtain ⟨value, hfirst⟩ : ∃ value, (peekThrough start count).run memory .wrapping (stream, [])
      = (Program.step (.bits 32) fun _ => octets count).run memory .wrapping
        (stream.moveTo (0 + 8 * start), [⟨.bytes start, value⟩]) :=
    ⟨_, Program.run_step_of_ok hbytes⟩
  exact ⟨value, hfirst.trans (Program.run_step_of_ok hword)⟩

theorem octets_accepts {stream : ReadStream} (hvalid : stream.Valid) (hlive : stream.failed = none)
    (hall : stream.reader.numBits = 8 * count) (memory : Memory) (profile : Profile)
    (log : List Carried) : ∃ value, (octets count).runToEnd memory profile (stream.moveTo 0, log)
      = .ok () (stream.moveTo stream.reader.numBits, log ++ [⟨.bytes count, value⟩]) := by
  obtain ⟨value, hrun⟩ := octets_run_of_le hvalid hlive (le_of_eq hall.symm) memory profile log
  rw [Nat.zero_add, ← hall] at hrun
  refine ⟨value, ?_⟩
  rw [Program.runToEnd, bind_apply, hrun, Outcome.bind_ok, onState_apply,
    serializeEnd_at_end hvalid hlive]
  rfl

/-- A packet that long is accepted with what the buffer holds behind it. -/
theorem peekThrough_accepts (hle : bytes ≤ buffer.length) (hstart : start = 2 ^ 61 - 4)
    (hlarge : start ≤ bytes) (hfits : bytes < 2 ^ 61) (memory : Memory) : ∃ value value' final,
      (peekThrough start bytes).runToEnd memory .wrapping (atStart buffer (bytes * 8), [])
        = .ok () (final, [⟨.bytes start, value⟩, ⟨.bits 32, wordAt buffer start⟩,
          ⟨.bytes bytes, value'⟩]) := by
  have hvalid : (atStart buffer (bytes * 8)).Valid :=
    atStart_valid (Nat.mul_mod_left _ _) (by omega) (by omega)
  obtain ⟨value, hrun⟩ := peekThrough_run hle hstart hlarge hfits memory bytes
  obtain ⟨value', haccepts⟩ := octets_accepts hvalid rfl (Nat.mul_comm bytes 8) memory .wrapping
    [⟨.bytes start, value⟩, ⟨.bits 32, wordAt buffer start⟩]
  refine ⟨value, value', (atStart buffer (bytes * 8)).moveTo (bytes * 8), ?_⟩
  rw [Program.runToEnd, bind_apply, hrun]
  exact haccepts

/-- Where the bit count of a packet wraps, the stream sees the front of it alone and accepts that as
the whole. -/
theorem not_selfDelimits_of_long (hlong : 2 ^ 61 ≤ packet.length) :
    ¬SelfDelimits .wrapping packet := by
  intro hdelimits
  let memory : Memory := fun _ operation => operation.blank
  let count := packet.length * 8 % 2 ^ 64 / 8
  have hcount : packet.length * 8 % 2 ^ 64 = 8 * count := by omega
  have hvalid : (atStart packet (packet.length * 8 % 2 ^ 64)).Valid :=
    atStart_valid (by omega) (by omega) (by omega)
  obtain ⟨value, haccepts⟩ := octets_accepts hvalid rfl hcount memory .wrapping []
  obtain ⟨-, hshorter⟩ := hdelimits (octets count) memory _ _ _ (fun _ => trivial)
    (over_atStart List.prefix_rfl) haccepts
  have hlength : (packet.take (2 ^ 61 - 1)).length = 2 ^ 61 - 1 := List.length_take_of_le (by omega)
  have hproper : packet.take (2 ^ 61 - 1) ≠ packet := by
    intro heq
    have hsame := congrArg List.length heq
    omega
  obtain ⟨refused, log', hrefused, -⟩ := hshorter _ memory _ (List.take_prefix _ packet) hproper
    (by omega) (over_atStart List.prefix_rfl)
  have hvalid' : (atStart (packet.take (2 ^ 61 - 1))
      ((packet.take (2 ^ 61 - 1)).length * 8 % 2 ^ 64)).Valid :=
    atStart_valid (by omega) (by omega) (by omega)
  obtain ⟨value', hrun⟩ := octets_run_of_le hvalid' rfl
    (show 8 * count ≤ (packet.take (2 ^ 61 - 1)).length * 8 % 2 ^ 64 by omega) memory .wrapping []
  cases hrun.symm.trans hrefused

section Peek

variable {first third : Carried} {log : List Carried}

omit [Arithmetic] in
/-- The word a log of the program holds. -/
theorem word_eq {word word' : U32} {other : Carried} {rest rest' : List Carried}
    (h : other :: ⟨.bits 32, word'⟩ :: rest = first :: ⟨.bits 32, word⟩ :: rest') : word' = word := by
  obtain ⟨-, htail⟩ := List.cons.inj h
  exact eq_of_heq (Sigma.mk.inj (List.cons.inj htail).1).2

/-- On a packet with one byte more, the word shows that byte. -/
theorem not_readsLonger (hstart : start = 2 ^ 61 - 4) (hlarge : start ≤ packet.length)
    (hroom : packet.length + 1 < 2 ^ 61) :
    ¬ReadsLonger .wrapping packet (peekThrough start packet.length)
      [first, ⟨.bits 32, wordAt packet start⟩, third] := by
  intro hlonger
  let memory : Memory := fun _ operation => operation.blank
  let longer : List U8 := packet ++ [0xFF]
  have hlength : longer.length = packet.length + 1 := List.length_append
  have hover := over_atStart (List.prefix_rfl : longer <+: longer)
  rw [Nat.mod_eq_of_lt (by omega)] at hover
  have hvalid : (atStart longer (longer.length * 8)).Valid :=
    atStart_valid (Nat.mul_mod_left _ _) (by omega) (by omega)
  obtain ⟨final, hrun, -⟩ := hlonger [0xFF] memory _ (by simp)
    (show longer.length < 2 ^ 61 by omega) hover
  obtain ⟨other, hpeek⟩ := peekThrough_run (le_refl longer.length) hstart (by omega) (by omega) memory
    packet.length
  obtain ⟨other', hrest⟩ := octets_run_of_le hvalid rfl
    (show 8 * packet.length ≤ longer.length * 8 by omega) memory .wrapping
    [⟨.bytes start, other⟩, ⟨.bits 32, wordAt longer start⟩]
  have houtcome := (hpeek.trans hrest).symm.trans hrun
  exact wordAt_append_ne hlarge (by omega) (by decide)
    (word_eq (congrArg (fun outcome => outcome.state.2) houtcome))

/-- On a packet with one byte less, the word shows what the buffer holds in place of that byte and
behind it. -/
theorem not_refusesShorter (hstart : start = 2 ^ 61 - 4) (hfull : packet.length = 2 ^ 61 - 1) :
    ¬RefusesShorter .wrapping packet (peekThrough start packet.length)
      [first, ⟨.bits 32, wordAt packet start⟩, third] := by
  intro hshorter
  let memory : Memory := fun _ operation => operation.blank
  let short : List U8 := packet.take (2 ^ 61 - 2)
  let buffer : List U8 := packet ++ [0xFF]
  have hlength : short.length = 2 ^ 61 - 2 := List.length_take_of_le (by omega)
  have hbuffer : buffer.length = packet.length + 1 := List.length_append
  have hproper : short ≠ packet := by
    intro heq
    have hsame := congrArg List.length heq
    omega
  have hprefix : short <+: buffer := (List.take_prefix _ packet).trans (List.prefix_append packet _)
  have hover := over_atStart hprefix
  rw [Nat.mod_eq_of_lt (show short.length * 8 < 2 ^ 64 by omega)] at hover
  have hvalid : (atStart buffer (short.length * 8)).Valid :=
    atStart_valid (Nat.mul_mod_left _ _) (by omega) (by omega)
  obtain ⟨refused, log', hrun, ⟨rest, hlog⟩, -⟩ :=
    hshorter short memory _ (List.take_prefix _ packet) hproper
      (show short.length < 2 ^ 61 by omega) hover
  obtain ⟨other, hpeek⟩ := peekThrough_run (show short.length ≤ buffer.length by omega) hstart
    (show start ≤ short.length by omega) (show short.length < 2 ^ 61 by omega) memory packet.length
  obtain ⟨refused', hrest⟩ := octets_run_of_short hvalid rfl
    (show short.length * 8 < 8 * packet.length by omega) memory .wrapping
    [⟨.bytes start, other⟩, ⟨.bits 32, wordAt buffer start⟩]
  have houtcome := (hpeek.trans hrest).symm.trans hrun
  obtain rfl : _ = log' := congrArg (fun outcome => outcome.state.2) houtcome
  exact wordAt_append_ne (by omega) (by omega) (by decide) (word_eq hlog)

end Peek

/-- Where a field wraps over the end of a packet, it gives what lies behind the packet. -/
theorem not_selfDelimits_of_fits (hlarge : 2 ^ 61 - 4 ≤ packet.length)
    (hfits : packet.length < 2 ^ 61) : ¬SelfDelimits .wrapping packet := by
  intro hdelimits
  let memory : Memory := fun _ operation => operation.blank
  obtain ⟨start, hstart⟩ : ∃ start, start = 2 ^ 61 - 4 := ⟨_, rfl⟩
  obtain ⟨value, value', final, haccepts⟩ :=
    peekThrough_accepts (le_refl packet.length) hstart (by omega) hfits memory
  have hover := over_atStart (List.prefix_rfl : packet <+: packet)
  rw [Nat.mod_eq_of_lt (by omega)] at hover
  obtain ⟨hlonger, hshorter⟩ := hdelimits (peekThrough start packet.length) memory _ _ _
    (fun _ _ _ => trivial) hover haccepts
  rcases Nat.lt_or_ge (packet.length + 1) (2 ^ 61) with hroom | hfull
  · exact not_readsLonger hstart (by omega) hroom hlonger
  · exact not_refusesShorter hstart (by omega) hshorter

theorem not_selfDelimits (hlarge : 2 ^ 61 - 4 ≤ packet.length) : ¬SelfDelimits .wrapping packet := by
  rcases Nat.lt_or_ge packet.length (2 ^ 61) with hfits | hlong
  · exact not_selfDelimits_of_fits hlarge hfits
  · exact not_selfDelimits_of_long hlong

/-- **Packets are self-delimiting under their program,** but for those within 32 bits of `2 ^ 64` in
the default release profile, and for all of those. -/
theorem self_delimiting_iff (profile : Profile) (packet : List U8) :
    SelfDelimits profile packet ↔ (profile = .wrapping → packet.length < 2 ^ 61 - 4) := by
  constructor
  · rintro hdelimits rfl
    by_contra hlarge
    exact not_selfDelimits (Nat.not_lt.mp hlarge) hdelimits
  · intro hroom
    cases profile with
    | trapping build => exact selfDelimits_of_build build packet
    | wrapping => exact selfDelimits_of_roomy (hroom rfl)

end Profiles

/-- A packet of `2 ^ 61 - 2` zero bytes accepts a field that lies behind it. -/
theorem zeros_not_self_delimiting : ¬SelfDelimits .wrapping (List.replicate (2 ^ 61 - 2) 0) := by
  refine not_selfDelimits ?_
  rw [List.length_replicate]
  exact Nat.sub_le_sub_left (by decide) _

end Serialize
