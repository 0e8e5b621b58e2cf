import Serialize.Float.Binary32
import Serialize.Reader.Reachable

/-!
# Refusal is terminal, and a reader does not trap

Both contracts of the read stream hold over whole runs up to one defect: asking whether a field of
`bits` bits would pass the end adds `bits` to the position in 64 bits unchecked, so on a packet
within 2^29 bytes of the largest one a stream can be given, a hostile bit count overflows. The two
results here say exactly which streams are free of it.
-/

namespace Serialize

open Machine BitString Decode
open Binary32 (Arithmetic)
open ReadStream

/-- No field's end overflows on a stream over these bytes: the stream was born refused, or every
position leaves room for a 32 bit width. -/
def FieldsFit (buffer : List U8) (bytes : Nat) : Prop :=
  buffer.length < bytes ∨ bytes ≤ 2 ^ 61 - 2 ^ 29

/-! ### Where fields fit, nothing is stuck -/

theorem accepted_of_fieldsFit {buffer : List U8} {bytes : Nat} (h : FieldsFit buffer bytes) :
    accepted buffer bytes ≤ 2 ^ 61 - 2 ^ 29 := by
  rw [accepted]
  rcases h with hborn | hsmall
  · rw [if_neg (Nat.not_le.mpr hborn)]
    exact Nat.zero_le _
  · split
    · exact hsmall
    · exact Nat.zero_le _

theorem not_stuck_of_limit {c : Cursor Error} (h : c.limit ≤ 8 * (2 ^ 61 - 2 ^ 29)) : ¬Stuck c := by
  rintro ⟨width, hover⟩
  have hposition : c.position ≤ c.limit := Nat.le_add_right _ _
  have hwidth := width.isLt
  rw [Cursor.Overflows] at hover
  omega

/-! ### Where they do not, a client runs into it -/

/-- Ask for the widest field there is. -/
def widest : Client Unit := .call (.bits 0xFFFFFFFF) 0 fun result _ => .done result ()

/-- Read `count` bytes, refuse, and then ask for the widest field. -/
def overrun (count : Nat) : Client Unit :=
  .call (.bytes count) (List.Vector.replicate count 0) fun _ _ => .fail .rejected fun _ => widest

section Overrun

variable {ω δ : Type}

variable [Arithmetic]

theorem run_call_of_decoder {operation : Operation} {prior value : operation.Value}
    {next : Result → operation.Value → Client ω} {c c' : Cursor Error}
    (h : operation.decoder.run c = .ok value c') (build : Build) (log : Log ω) :
    ∃ log', (Client.call operation prior next).run build (c, log)
      = (next (.ok ()) value).run build (c', log') := by
  refine Client.run_call_of_ok ?_ log
  show storing operation.decoder.run build (c, prior) = _
  rw [storing, h]

theorem run_call_of_trap {operation : Operation} {prior : operation.Value}
    {next : Result → operation.Value → Client ω} {c c' : Cursor Error}
    (h : operation.decoder.run c = .trap c') (build : Build) (log : Log ω) :
    (Client.call operation prior next).run build (c, log)
      = .trap (c', log.notice (Reader.observation c)) := by
  have hcall : Client.handing prior (Client.quietly (Reader.operation operation)) build
      (c, log.notice (Reader.observation c)) = .trap (c', log.notice (Reader.observation c)) := by
    refine (Client.handing_storing _ _ _ _).trans ?_
    rw [h]
  rw [Client.run, bind_apply, Client.logged_of_trap _ hcall, Outcome.bind_trap]

theorem run_fail_of_live {error : Error} {next : Result → Client ω} {c : Cursor Error} (h : c.Live)
    (build : Build) (log : Log ω) : ∃ log', (Client.fail error next).run build (c, log)
      = (next (.error error)).run build ({ c with failed := some error }, log') := by
  have hfail : (Reader.fail error : Action (Cursor Error) Unit) build c
      = .err error { c with failed := some error } := Cursor.latch_of_live h error
  have hcall : Client.handing () (Client.quietly (onState (Reader.fail error))) build
      (c, log.notice (Reader.observation c))
        = .ok (.error error, ()) ({ c with failed := some error }, log.notice (Reader.observation c)) := by
    rw [Client.handing, Client.quietly, focus_apply, onState_apply, hfail]
    rfl
  obtain ⟨log', hlogged⟩ := Client.logged_of_ok (fun _ => .fail error) hcall
  exact ⟨log', by rw [Client.run, bind_apply, hlogged, Outcome.bind_ok]⟩

/-- The place behind the first `count` bytes of a packet, nothing refused on the way there. -/
def afterBytes (packet : List U8) (count : Nat) : Cursor Error where
  remaining := bitsOfOctets (packet.drop count)
  position := 8 * count
  failed := none

theorem run_bytes {buffer : List U8} {bytes count : Nat} (hle : bytes ≤ buffer.length)
    (hcount : count ≤ bytes) (hnew : accepted buffer bytes * 8 < 2 ^ 64) : ∃ payload,
      (Operation.bytes count).decoder.run (fresh buffer bytes).cursor
        = .ok payload (afterBytes (buffer.take bytes) count) := by
  have hcursor := fresh_cursor buffer bytes
  rw [accepted, if_pos hle, if_pos hle] at hcursor
  have hlive : (fresh buffer bytes).cursor.Live := by rw [hcursor]; rfl
  set packet := buffer.take bytes with hpacket
  have hbytes : packet.length = bytes := List.length_take_of_le hle
  let payload : List.Vector U8 count := ⟨packet.take count, List.length_take_of_le (by omega)⟩
  have hcodes := @Operation.decoder_codes _ (.bytes count) trivial
  have hparse := @Decoder.Codes.parse_code _ _ _ _ _ hcodes payload ⟨trivial, trivial⟩ 0
    (bitsOfOctets (packet.drop count))
  have hcode : Operation.encode byteBoundary 0 (.bytes count) payload
      = bitsOfOctets (packet.take count) := rfl
  have hlength : (bitsOfOctets (packet.take count)).length = 8 * count := by
    rw [length_bitsOfOctets, List.length_take_of_le (by omega)]
  rw [hcode, ← bitsOfOctets_append, List.take_append_drop, hlength, Nat.zero_add] at hparse
  exact ⟨payload, Decoder.run_of_parse hlive (fresh_valid hnew).limit_lt
    (by rw [hcursor]; exact hparse)⟩

/-- Read `count` bytes and stop. -/
def readBytes (count : Nat) : Client Unit :=
  .call (.bytes count) (List.Vector.replicate count 0) fun result _ => .done result ()

theorem reachable_afterBytes {buffer : List U8} {bytes count : Nat} (hle : bytes ≤ buffer.length)
    (hcount : count ≤ bytes) (hnew : accepted buffer bytes * 8 < 2 ^ 64) :
    ∃ stream : ReadStream, stream.Reachable
      ∧ stream.cursor = afterBytes (buffer.take bytes) count := by
  obtain ⟨payload, hread⟩ := run_bytes hle hcount hnew
  obtain ⟨log, hrun⟩ : ∃ log, (readBytes count).run .checked ((fresh buffer bytes).cursor, Log.empty)
      = (Client.done (.ok ()) ()).run .checked (afterBytes (buffer.take bytes) count, log) :=
    run_call_of_decoder hread .checked Log.empty
  have hmatch := (readBytes count).run_sim .checked (fresh buffer bytes, Log.empty)
    ((fresh buffer bytes).cursor, Log.empty) ⟨⟨fresh_valid hnew, rfl⟩, rfl⟩
  rw [hrun] at hmatch
  rcases hmatch.ok_right with ⟨error, p, -, hescape⟩ | ⟨p, hfinal, ⟨-, hcursor⟩, -⟩
  · exact hescape.elim
  · refine ⟨p.1, ⟨buffer, bytes, .checked, _, Unit, readBytes count, new_eq_ok_iff.mpr ⟨hnew, rfl⟩,
      ?_⟩, hcursor⟩
    rw [hfinal]
    rfl

/-- On a stream whose fields do not all fit, the widest field past the last byte panics, and does so
on a stream that has refused. -/
theorem overrun_traps {buffer : List U8} {bytes : Nat} (h : ¬FieldsFit buffer bytes)
    (hnew : accepted buffer bytes * 8 < 2 ^ 64) (build : Build) :
    ∃ p, (overrun bytes).run build (fresh buffer bytes, Log.empty) = .trap p
      ∧ ∃ seen ∈ p.2.trail, seen.failure = some .rejected := by
  have hle : bytes ≤ buffer.length := Nat.not_lt.mp fun hborn => h (.inl hborn)
  have hlarge : 2 ^ 61 - 2 ^ 29 < bytes := Nat.not_le.mp fun hsmall => h (.inr hsmall)
  obtain ⟨payload, hread⟩ := run_bytes hle (le_refl bytes) hnew
  set atEnd := afterBytes (buffer.take bytes) bytes
  have hatEnd : atEnd.Live := rfl
  let refused : Cursor Error := { atEnd with failed := some .rejected }
  have hover : (Operation.bits 0xFFFFFFFF).decoder.run refused = .trap refused := by
    refine if_pos ?_
    show 2 ^ 64 ≤ 8 * bytes + 4294967295
    omega
  obtain ⟨log₁, hfirst⟩ : ∃ log₁, (overrun bytes).run build ((fresh buffer bytes).cursor, Log.empty)
      = (Client.fail .rejected fun _ => widest).run build (atEnd, log₁) :=
    run_call_of_decoder hread build Log.empty
  obtain ⟨log₂, hsecond⟩ : ∃ log₂, (Client.fail .rejected fun _ => widest).run build
      (atEnd, log₁) = widest.run build (refused, log₂) := run_fail_of_live hatEnd build log₁
  have hcursorRun := (hfirst.trans hsecond).trans (run_call_of_trap hover build log₂)
  have hmatch := (overrun bytes).run_sim build (fresh buffer bytes, Log.empty)
    ((fresh buffer bytes).cursor, Log.empty) ⟨⟨fresh_valid hnew, rfl⟩, rfl⟩
  rw [hcursorRun] at hmatch
  rcases hmatch.trap_right with ⟨error, p, -, hescape⟩ | ⟨p, hrun, -, hlog⟩
  · exact hescape.elim
  · refine ⟨p, hrun, Reader.observation refused, ?_, rfl⟩
    rw [hlog]
    exact List.mem_append_right _ (List.mem_singleton_self _)

end Overrun

/-! ### Refusal is terminal -/

variable {ω : Type}

/-- A run on which a refusal is terminal. A call comes back with an error just in case the stream
shows that error afterwards, a refusal once shown is shown for the rest of the run, and a call on a
stream that has refused comes back with the same refusal, having touched nothing. -/
structure RefusalTerminal (outcome : Outcome Error (ReadStream × Log ω) (Result × ω)) : Prop where
  reported : ∀ event ∈ outcome.state.2.events, ∀ error,
    event.result = .error error ↔ event.after.failure = some error
  lasting : outcome.state.2.trail.Pairwise fun earlier later =>
    ∀ reason, earlier.failure = some reason → later.failure = some reason
  echoed : ∀ event ∈ outcome.state.2.events, ∀ reason, event.before.failure = some reason →
    event.result = .error reason ∧ event.after = event.before ∧ event.call.Untouched
  /-- A call that panics is never one on a stream that has refused. -/
  answered : ∀ p, outcome = .trap p → ∀ seen ∈ p.2.trail, seen.failure = none

theorem fits_of_fieldsFit {buffer : List U8} {bytes : Nat} (h : FieldsFit buffer bytes) :
    accepted buffer bytes * 8 < 2 ^ 64 := by
  have haccepted := accepted_of_fieldsFit h
  omega

/-- The largest buffer below 2^61 bytes, all of it packet. -/
def largestBuffer : List U8 := List.replicate (2 ^ 61 - 1) 0

theorem length_largestBuffer : largestBuffer.length = 2 ^ 61 - 1 := List.length_replicate

theorem accepted_largestBuffer : accepted largestBuffer (2 ^ 61 - 1) = 2 ^ 61 - 1 := by
  rw [accepted, largestBuffer, List.length_replicate, if_pos (le_refl _)]

theorem largestBuffer_does_not_fit : ¬FieldsFit largestBuffer (2 ^ 61 - 1) := by
  rw [FieldsFit, largestBuffer, List.length_replicate]
  decide

theorem largestBuffer_short : largestBuffer.length < 2 ^ 61 := by
  rw [largestBuffer, List.length_replicate]
  decide

theorem largestBuffer_fits_64 : accepted largestBuffer (2 ^ 61 - 1) * 8 < 2 ^ 64 := by
  rw [accepted_largestBuffer]
  decide

theorem reachable_largest [Arithmetic] {count : Nat} (hcount : count ≤ 2 ^ 61 - 1) :
    ∃ stream : ReadStream, stream.Reachable ∧ stream.cursor = {
      remaining := bitsOfOctets (List.replicate (2 ^ 61 - 1 - count) 0)
      position := 8 * count
      failed := none } := by
  obtain ⟨stream, hreachable, hcursor⟩ :=
    reachable_afterBytes (le_of_eq length_largestBuffer.symm) hcount largestBuffer_fits_64
  refine ⟨stream, hreachable, ?_⟩
  rw [hcursor, afterBytes, largestBuffer, List.take_replicate, Nat.min_self, List.drop_replicate]

section Runs

variable [Arithmetic]

theorem run_ne_trap {buffer : List U8} {bytes : Nat} (h : FieldsFit buffer bytes)
    (client : Client ω) (build : Build) (p : ReadStream × Log ω) :
    client.run build (fresh buffer bytes, Log.empty) ≠ .trap p := by
  intro htrap
  obtain ⟨hlimit, hstuck⟩ :=
    (client.run_leaves_sound (fresh_valid (fits_of_fieldsFit h)) build).stuck p htrap
  refine not_stuck_of_limit ?_ hstuck
  have haccepted := accepted_of_fieldsFit h
  rw [hlimit]
  show accepted buffer bytes * 8 ≤ _
  omega

/-- On a run that does not panic refusal is terminal. -/
theorem refusalTerminal_of_ne_trap {buffer : List U8} {bytes : Nat}
    (hbits : accepted buffer bytes * 8 < 2 ^ 64) {client : Client ω} {build : Build}
    (h : ∀ p, client.run build (fresh buffer bytes, Log.empty) ≠ .trap p) :
    RefusalTerminal (client.run build (fresh buffer bytes, Log.empty)) := by
  have hkept := (client.run_leaves_sound (fresh_valid hbits) build).kept
  exact {
    reported := fun event hevent => (hkept.sound event hevent).reported
    lasting := hkept.ordered.imp fun hprecedes => hprecedes.failure
    echoed := fun event hevent => (hkept.sound event hevent).echoed
    answered := fun p htrap => (h p htrap).elim }

theorem not_refusal_terminal {buffer : List U8} {bytes : Nat} (hfits : ¬FieldsFit buffer bytes)
    (hbits : accepted buffer bytes * 8 < 2 ^ 64) (build : Build) :
    ¬∀ (ω : Type) (client : Client ω),
      RefusalTerminal (client.run build (fresh buffer bytes, Log.empty)) := by
  intro hterminal
  obtain ⟨p, htrap, seen, hseen, hfailure⟩ := overrun_traps hfits hbits build
  have hnone := (hterminal Unit (overrun bytes)).answered p htrap seen hseen
  rw [hfailure] at hnone
  cases hnone

/-- Refusal is terminal on exactly the streams whose fields fit: on any other, a field asked for
after a refusal panics instead of coming back with it. -/
theorem refusal_terminal_iff {buffer : List U8} {bytes : Nat} {build : Build} {stream : ReadStream}
    (hnew : ReadStream.new buffer bytes build () = .ok stream ()) :
    (∀ (ω : Type) (client : Client ω), RefusalTerminal (client.run build (stream, Log.empty)))
      ↔ FieldsFit buffer bytes := by
  obtain ⟨hbits, rfl⟩ := new_eq_ok_iff.mp hnew
  constructor
  · intro hterminal
    by_contra hfits
    exact not_refusal_terminal hfits hbits build hterminal
  · intro hfits ω client
    exact refusalTerminal_of_ne_trap hbits fun p => run_ne_trap hfits client build p

end Runs

/-- A refusal on a one byte packet, and a field asked for after it. -/
theorem refusal_terminal_one_byte :
    RefusalTerminal ((overrun 1).run .checked (fresh [0xFF] 1, Log.empty)) :=
  have hnew : ReadStream.new [0xFF] 1 .checked () = .ok (fresh [0xFF] 1) () := rfl
  (refusal_terminal_iff hnew).mpr (.inr (by decide)) Unit (overrun 1)

/-- On the largest buffer a refusal is not terminal. -/
theorem refusal_not_terminal :
    ¬∀ (buffer : List U8) (bytes : Nat) (build : Build) (stream : ReadStream),
      ReadStream.new buffer bytes build () = .ok stream () → ∀ (ω : Type) (client : Client ω),
        RefusalTerminal (client.run build (stream, Log.empty)) :=
  fun hterminal => not_refusal_terminal largestBuffer_does_not_fit largestBuffer_fits_64 .checked
    (hterminal largestBuffer _ .checked _ (new_eq_ok_iff.mpr ⟨largestBuffer_fits_64, rfl⟩))

/-! ### A reader does not trap -/

/-- A run that does not panic and stays inside the packet. -/
structure RunsInside (bytes : Nat) (outcome : Outcome Error (ReadStream × Log ω) (Result × ω)) :
    Prop where
  returned : outcome.Returned
  ordered : outcome.state.2.trail.Pairwise fun earlier later =>
    earlier.bitsProcessed ≤ later.bitsProcessed
  inside : ∀ seen ∈ outcome.state.2.trail, seen.bitsProcessed ≤ 8 * bytes
  limit : ∀ seen ∈ outcome.state.2.trail, seen.bitLimit = 8 * bytes ∧ seen.bitLimit % 8 = 0

/-- A run that does not panic stays inside the packet. -/
theorem runsInside_of_ne_trap [Arithmetic] {buffer : List U8} {bytes : Nat}
    (hbits : accepted buffer bytes * 8 < 2 ^ 64) {client : Client ω} {build : Build}
    (h : ∀ p, client.run build (fresh buffer bytes, Log.empty) ≠ .trap p) :
    RunsInside (accepted buffer bytes) (client.run build (fresh buffer bytes, Log.empty)) := by
  obtain ⟨-, hkept, -, hlimit⟩ := client.run_leaves_sound (fresh_valid hbits) build
  have hlimit' : ∀ seen ∈ (client.run build (fresh buffer bytes, Log.empty)).state.2.trail,
      seen.bitLimit = 8 * accepted buffer bytes := fun seen hseen =>
    (hlimit seen hseen).trans (Nat.mul_comm _ _)
  exact {
    returned := Outcome.returned_of_ne_trap h
    ordered := hkept.ordered.imp fun hprecedes => hprecedes.bitsProcessed_le
    inside := fun seen hseen => (hkept.inside seen hseen).trans_eq (hlimit' seen hseen)
    limit := fun seen hseen =>
      ⟨hlimit' seen hseen, by rw [hlimit' seen hseen, Nat.mul_mod_right]⟩ }

theorem not_runs_inside [Arithmetic] {buffer : List U8} {bytes : Nat}
    (hfits : ¬FieldsFit buffer bytes) (hbits : accepted buffer bytes * 8 < 2 ^ 64) :
    ¬∀ build : Build, ∃ stream, ReadStream.new buffer bytes build () = .ok stream () ∧
      ∀ (ω : Type) (client : Client ω),
        RunsInside (accepted buffer bytes) (client.run build (stream, Log.empty)) := by
  intro hsafe
  obtain ⟨stream, hnew, hruns⟩ := hsafe .checked
  obtain ⟨-, rfl⟩ := new_eq_ok_iff.mp hnew
  obtain ⟨p, htrap, -⟩ := overrun_traps hfits hbits .checked
  have hreturned := (hruns Unit (overrun bytes)).returned
  rw [htrap] at hreturned
  exact hreturned

/-- A read stream over a buffer below 2^61 bytes can be built and never panics, whatever its client
does, exactly where its fields fit. -/
theorem never_traps_iff [Arithmetic] {buffer : List U8} (hbuffer : buffer.length < 2 ^ 61)
    (bytes : Nat) :
    (∀ build : Build, ∃ stream, ReadStream.new buffer bytes build () = .ok stream () ∧
      ∀ (ω : Type) (client : Client ω),
        RunsInside (accepted buffer bytes) (client.run build (stream, Log.empty)))
      ↔ FieldsFit buffer bytes := by
  have hle := accepted_le buffer bytes
  have hbits : accepted buffer bytes * 8 < 2 ^ 64 := by omega
  constructor
  · intro hsafe
    by_contra hfits
    exact not_runs_inside hfits hbits hsafe
  · intro hfits build
    exact ⟨fresh buffer bytes, new_eq_ok_iff.mpr ⟨hbits, rfl⟩, fun ω client =>
      runsInside_of_ne_trap hbits fun p => run_ne_trap hfits client build p⟩

/-- Two bytes of packet in front of one of slack, whatever a client reads of them. -/
theorem never_traps_two_bytes : ∃ stream,
    ReadStream.new [0xFF, 0xA5, 0x5A] 2 .checked () = .ok stream () ∧
      ∀ (ω : Type) (client : Client ω), RunsInside (accepted [0xFF, 0xA5, 0x5A] 2)
        (client.run .checked (stream, Log.empty)) :=
  have hshort : [(0xFF : U8), 0xA5, 0x5A].length < 2 ^ 61 := by decide
  (never_traps_iff hshort 2).mpr (.inr (by decide)) .checked

/-- On the largest buffer a reader traps. -/
theorem reader_traps :
    ¬∀ (buffer : List U8) (bytes : Nat), buffer.length < 2 ^ 61 → ∀ build : Build, ∃ stream,
      ReadStream.new buffer bytes build () = .ok stream () ∧ ∀ (ω : Type) (client : Client ω),
        RunsInside (accepted buffer bytes) (client.run build (stream, Log.empty)) :=
  fun hsafe => not_runs_inside largestBuffer_does_not_fit largestBuffer_fits_64
    (hsafe largestBuffer _ largestBuffer_short)

end Serialize
