import Serialize.Model.Mirror
import Serialize.Reader.Operations

/-!
# Clients on a cursor

The abstract reader: a cursor into the bits of a packet, on which an operation is its decoder, the
end of an object is a look at what is left, and a nested object is entered only on a live cursor.
A client's run on a read stream is its run on the cursor the stream stands for, call for call.
-/

namespace Serialize

open Machine BitString Decode
open Binary32 (Arithmetic)
open ReadStream

/-! ### The cursor as a reader -/

/-- What is accepted is stored, and nothing else is. -/
def storing {δ : Type} (f : Cursor Error → Outcome Error (Cursor Error) δ) :
    Action (Cursor Error × δ) Unit :=
  fun _ p => match f p.1 with
    | .ok value c => .ok () (c, value)
    | .err error c => .err error (c, p.2)
    | .trap c => .trap (c, p.2)

/-- The end of an object: less than a byte is left, all of it zero. -/
def finishAt (c : Cursor Error) : Outcome Error (Cursor Error) Unit :=
  match c.failed with
  | some reason => .err reason c
  | none =>
      if 8 ≤ c.remaining.length then c.latch .trailingData
      else if ofBits c.remaining = 0 then .ok () (c.advance c.remaining.length)
      else (c.advance c.remaining.length).latch .nonzeroPadding

/-- A nested object is entered on a live cursor only, and refuses just in case it leaves the cursor
refused: a refusal of its own is latched. -/
def enter {δ : Type} (body : Action (Cursor Error × δ) Unit) : Action (Cursor Error × δ) Unit :=
  fun build p => match p.1.failed with
    | some reason => .err reason p
    | none => match body build p with
        | .ok () (c, value) => c.failed.elim (.ok () (c, value)) fun reason => .err reason (c, value)
        | .err error (c, value) =>
            .err (c.failed.getD error) ({ c with failed := some (c.failed.getD error) }, value)
        | .trap q => .trap q

instance [Arithmetic] : Reader (Cursor Error) where
  observation c := { failure := c.failed, bitsProcessed := c.position, bitLimit := c.limit }
  operation operation := storing operation.decoder.run
  finish := fun _ c => finishAt c
  fail error := fun _ c => c.latch error
  reject := fun _ c => c.latch .rejected
  object := enter

/-! ### Each call matches -/

/-- A valid stream and the cursor it stands for. -/
def Stands (stream : ReadStream) (c : Cursor Error) : Prop := stream.Valid ∧ stream.cursor = c

variable {α δ ω : Type}

theorem Stores.callSim {m : Action (ReadStream × δ) Unit} {d : Decoder Error δ} (h : Stores m d) :
    CallSim Stands NoEscape m (storing d.run) := by
  rintro build ⟨stream, value⟩ ⟨c, value'⟩ ⟨⟨hvalid, rfl⟩, rfl⟩
  have hstored := h build stream value hvalid
  dsimp only [storing]
  rcases hd : d.run stream.cursor with ⟨final, c⟩ | ⟨error, c⟩ | c
  · rw [hd] at hstored
    obtain ⟨p, hm, hvalid', hcursor, hfinal⟩ := hstored.of_ok
    rw [hm]
    exact ⟨rfl, ⟨hvalid', hcursor⟩, hfinal⟩
  · rw [hd] at hstored
    obtain ⟨p, hm, hvalid', hcursor, hfinal⟩ := hstored.of_err
    rw [hm]
    exact Or.inr ⟨_, rfl, ⟨hvalid', hcursor⟩, hfinal⟩
  · rw [hd] at hstored
    obtain ⟨p, hm, hvalid', hcursor, hfinal⟩ := hstored.of_trap
    rw [hm]
    exact ⟨⟨hvalid', hcursor⟩, hfinal⟩

theorem latch_sim (error : Error) :
    Sim Stands NoEscape (latch error : Action ReadStream α) fun _ c => c.latch error := by
  rintro build stream c ⟨hvalid, rfl⟩
  exact Or.inr ⟨_, rfl, hvalid.latched _, rfl⟩

theorem reject_sim : Sim Stands NoEscape (reject : Action ReadStream Unit)
    fun _ c => c.latch .rejected := by
  intro build stream c hstands
  rw [reject, bind_apply, debugAssert_of (show isReading ReadStream = true from rfl),
    Outcome.bind_ok]
  exact latch_sim .rejected build stream c hstands

/-- **What the end of an object does** on a stream whose packet is whole bytes. -/
theorem readEnd_eq (profile : Profile) {stream : ReadStream} (h : stream.Valid) :
    readEnd profile stream =
      if stream.failed.isSome then latch .trailingData profile stream
      else if 8 ≤ stream.cursor.remaining.length then latch .trailingData profile stream
      else if ofBits stream.cursor.remaining = 0 then .ok () (stream.moveTo stream.reader.numBits)
      else latch .nonzeroPadding profile (stream.moveTo stream.reader.numBits) := by
  have hbits := h.bitsRead_le
  have hlength := h.length_remaining
  rw [readEnd, bind_apply, refuseIfLatched_eq]
  rcases hfailed : stream.failed with - | reason
  · rw [Option.elim_none, Outcome.bind_ok, bind_apply, onReader_bitsRemaining profile h,
      Outcome.bind_ok, ite_comp_apply, ← hlength,
      if_neg (show ¬(none : Option Error).isSome = true from Bool.false_ne_true)]
    by_cases hlong : 8 ≤ stream.cursor.remaining.length
    · rw [if_pos hlong, if_pos hlong]
    rw [if_neg hlong, if_neg hlong, onlyIf, ite_comp_apply,
      show stream.cursor.remaining.length % 8 = stream.cursor.remaining.length by omega]
    by_cases hsome : 0 < stream.cursor.remaining.length
    · have hwidth : (BitVec.ofNat 32 stream.cursor.remaining.length).toNat
          = stream.cursor.remaining.length := by
        rw [BitVec.toNat_ofNat]
        omega
      have hzero := ofNat_ofBits_eq_zero_iff (show stream.cursor.remaining.length ≤ 32 by omega)
      rw [if_pos hsome, bind_apply, onReader_readBits profile h _ (by omega) (by omega), hwidth,
        List.take_length, Outcome.bind_ok, onlyIf, ite_comp_apply,
        show stream.reader.bitsRead + stream.cursor.remaining.length = stream.reader.numBits by omega]
      by_cases hpadding : ofBits stream.cursor.remaining = 0
      · rw [if_neg (not_not.mpr (hzero.mpr hpadding)), if_pos hpadding]
        rfl
      · rw [if_pos (fun heq => hpadding (hzero.mp heq)), if_neg hpadding]
    · have hempty : stream.cursor.remaining = [] := List.length_eq_zero_iff.mp (by omega)
      have hend : stream.moveTo stream.reader.numBits = stream := by
        rw [moveTo, show stream.reader.numBits = stream.reader.bitsRead by omega]
      rw [if_neg hsome, hempty, ofBits_nil, if_pos rfl, hend]
      rfl
  · rw [if_pos (by rfl), latch_eq, hfailed]
    simp only [Option.elim_some, Outcome.bind_err, Option.getD_some]
    rw [← hfailed]

theorem readEnd_sim : Sim Stands NoEscape readEnd fun _ c => finishAt c := by
  rintro build stream c ⟨hvalid, rfl⟩
  rw [readEnd_eq build hvalid]
  dsimp only
  rw [finishAt]
  rcases hfailed : stream.failed with - | reason
  · have hbits := hvalid.bitsRead_le
    have hlength := hvalid.length_remaining
    obtain ⟨hvalid', hcursor⟩ := hvalid.advance (le_refl stream.cursor.remaining.length)
    rw [show stream.reader.bitsRead + stream.cursor.remaining.length = stream.reader.numBits by
      omega] at hvalid' hcursor
    rw [show stream.cursor.failed = none from hfailed, if_neg (by simp)]
    dsimp only
    split
    · exact latch_sim .trailingData build stream _ ⟨hvalid, rfl⟩
    · split
      · exact ⟨rfl, hvalid', hcursor⟩
      · exact latch_sim .nonzeroPadding build _ _ ⟨hvalid', hcursor⟩
  · rw [if_pos (by rfl), latch_eq, show stream.cursor.failed = some reason from hfailed, hfailed]
    refine Or.inr ⟨_, rfl, hvalid.latched _, ?_⟩
    rw [cursor, cursor, hfailed]
    rfl

/-- A nested object on a live stream: what its method recorded stays, and what it returns on its own is
recorded. -/
theorem serializeObject_of_live {object : Action (ReadStream × δ) Unit} {stream : ReadStream}
    (hlive : stream.failed = none) (profile : Profile) (value : δ) :
    serializeObject object profile (stream, value) = match object profile (stream, value) with
      | .ok () (stream', final) =>
          stream'.failed.elim (.ok () (stream', final)) fun first => .err first (stream', final)
      | .err error (stream', final) => .err (stream'.failed.getD error)
          ({ stream' with failed := some (stream'.failed.getD error) }, final)
      | .trap p => .trap p := by
  unfold serializeObject instStream
  dsimp only
  rw [bind_apply, onState_apply, refuseIfLatched_eq, hlive, Option.elim_none, Outcome.mapState_ok,
    Outcome.bind_ok, bind_apply, attempt]
  rcases object profile (stream, value) with ⟨⟨⟩, stream', final⟩ | ⟨error, stream', final⟩ | p
  · dsimp only
    rw [Outcome.bind_ok]
    dsimp only
    rw [onState_apply, refuseIfLatched_eq]
    cases stream'.failed with
    | none => rfl
    | some first => rfl
  · dsimp only
    rw [Outcome.bind_ok]
    dsimp only
    rw [bind_apply, attempt, onState_apply, latch_eq, Outcome.mapState_err]
    dsimp only
    rw [Outcome.bind_ok, onState_apply, refuseIfLatched_eq]
    rfl
  · rfl

/-- On a stream that has refused a nested object is not entered. -/
theorem serializeObject_of_failed {object : Action (ReadStream × δ) Unit} {stream : ReadStream}
    {reason : Error} (hfailed : stream.failed = some reason) (profile : Profile) (value : δ) :
    serializeObject object profile (stream, value) = .err reason (stream, value) := by
  unfold serializeObject instStream
  dsimp only
  rw [bind_apply, onState_apply, refuseIfLatched_eq, hfailed]
  rfl

theorem enter_sim {profile : Profile} {m : Action (ReadStream × δ) Unit}
    {n : Action (Cursor Error × δ) Unit} (h : CallSimUnder profile Stands NoEscape m n) :
    CallSimUnder profile Stands NoEscape (serializeObject m) (enter n) := by
  rintro ⟨stream, value⟩ ⟨c, value'⟩ ⟨⟨hvalid, rfl⟩, rfl⟩
  rcases hfailed : stream.failed with - | reason
  · have hlive : stream.cursor.failed = none := hfailed
    have hmatch := h (stream, value) (stream.cursor, value) ⟨⟨hvalid, rfl⟩, rfl⟩
    rw [serializeObject_of_live hfailed, enter, hlive]
    dsimp only
    rcases hm : m profile (stream, value) with ⟨⟨⟩, stream', final⟩ | ⟨error, stream', final⟩ |
      ⟨stream', final⟩
    · rw [hm] at hmatch
      obtain ⟨⟨c, final'⟩, hn, ⟨hvalid', hcursor⟩, hfinal⟩ := hmatch.ok_left
      obtain rfl : stream'.cursor = c := hcursor
      obtain rfl : final = final' := hfinal
      rw [hn]
      dsimp only
      rw [cursor_failed]
      cases stream'.failed with
      | none => exact ⟨rfl, ⟨hvalid', rfl⟩, rfl⟩
      | some reason => exact Or.inr ⟨_, rfl, ⟨hvalid', rfl⟩, rfl⟩
    · rw [hm] at hmatch
      obtain hescape | ⟨⟨c, final'⟩, hn, ⟨hvalid', hcursor⟩, hfinal⟩ := hmatch.err_left
      · exact hescape.elim
      obtain rfl : stream'.cursor = c := hcursor
      obtain rfl : final = final' := hfinal
      rw [hn]
      exact Or.inr ⟨_, rfl, ⟨hvalid'.latched _, rfl⟩, rfl⟩
    · rw [hm] at hmatch
      obtain ⟨⟨c, final'⟩, hn, hstands, hfinal⟩ := hmatch.trap_left
      rw [hn]
      exact ⟨hstands, hfinal⟩
  · rw [serializeObject_of_failed hfailed, enter, show stream.cursor.failed = some reason from hfailed]
    exact Or.inr ⟨_, rfl, ⟨hvalid, rfl⟩, rfl⟩

/-! ### Each client matches -/

namespace Client

theorem handing_storing (f : Cursor Error → Outcome Error (Cursor Error) δ) (prior : δ)
    (profile : Profile) (p : Cursor Error × Log ω) :
    handing prior (quietly (storing f)) profile p = match f p.1 with
      | .ok value c => .ok (.ok (), value) (c, p.2)
      | .err error c => .ok (.error error, prior) (c, p.2)
      | .trap c => .trap (c, p.2) := by
  rw [handing, quietly, focus_apply, storing]
  cases f p.1 with
  | ok value c => rfl
  | err error c => rfl
  | trap c => rfl

section Logging

variable {R : Type} [Reader R] (describe : δ → Call ω) {call : Action (R × Log ω) (Result × δ)}
  {profile : Profile} {reader reader' : R} {log log' : Log ω}

theorem logged_of_ok {answer : Result × δ}
    (h : call profile (reader, log.notice (Reader.observation reader)) = .ok answer (reader', log')) :
    ∃ log'', logged describe call profile (reader, log) = .ok answer (reader', log'') := by
  refine ⟨(log'.notice (Reader.observation reader')).record
    ⟨describe answer.2, answer.1, Reader.observation reader, Reader.observation reader'⟩, ?_⟩
  simp only [logged, bind_apply, look, Outcome.bind_ok, h, modifyState_apply,
    pure_apply]

theorem logged_of_trap {p : R × Log ω}
    (h : call profile (reader, log.notice (Reader.observation reader)) = .trap p) :
    logged describe call profile (reader, log) = .trap p := by
  simp only [logged, bind_apply, look, Outcome.bind_ok, h, Outcome.bind_trap]

section Call

variable {operation : Operation} {prior value : operation.Value}
  {next : Result → operation.Value → Client ω}

/-- A call that is accepted hands its client what the operation left in the variable. -/
theorem run_call_of_ok (h : Reader.operation operation profile (reader, prior)
      = .ok () (reader', value)) (log : Log ω) :
    ∃ log', (Client.call operation prior next).run profile (reader, log)
      = (next (.ok ()) value).run profile (reader', log') := by
  have hcall : handing prior (quietly (Reader.operation operation)) profile
      (reader, log.notice (Reader.observation reader))
        = .ok (.ok (), value) (reader', log.notice (Reader.observation reader)) := by
    rw [handing, quietly, focus_apply, h]
    rfl
  obtain ⟨log', hlogged⟩ := logged_of_ok (.operation operation prior) hcall
  exact ⟨log', by rw [Client.run, bind_apply, hlogged, Outcome.bind_ok]⟩

end Call

end Logging

variable [Arithmetic]

theorem observation_stands {stream : ReadStream} {c : Cursor Error} (h : Stands stream c) :
    Reader.observation stream = Reader.observation c := by
  obtain ⟨hvalid, rfl⟩ := h
  show Observation.mk _ _ _ = Observation.mk _ _ _
  rw [hvalid.limit_cursor]
  rfl

/-- A read stream and the cursor it stands for answer every call alike. -/
theorem stands_mirrors (build : Build) : Mirrors build Stands where
  observation := observation_stands
  operation operation := operation.run_stores.callSim build
  finish := readEnd_sim build
  fail error := latch_sim error build
  reject := reject_sim build
  object := enter_sim

/-- **Main result.** A client's run on a read stream is its run on the cursor the stream stands for:
the same results and variables, the same log, and the same place reached. -/
theorem run_sim (client : Client ω) : CallSim Stands NoEscape
    (client.run : Action (ReadStream × Log ω) _) (client.run : Action (Cursor Error × Log ω) _) :=
  fun build => (stands_mirrors build).run client

end Client

end Serialize
