import Serialize.Contracts.Terminal
import Serialize.Format.Narrow
import Serialize.Model.Agreement

/-!
# Runs whose fields fit

Whatever the size of its packet, a read stream panics only in a call that asks for a field whose end
is not a 64 bit position. A run without such a call is free of the defect: refusal is terminal on it,
it comes back, and it is the same run under every profile with fewer checks.
-/

namespace Serialize

open Machine BitString Decode
open Binary32 (Arithmetic)
open ReadStream

variable {R ω δ α : Type}

namespace Client

/-! ### Where a call comes back -/

section Calls

variable {profile : Profile} {p : R × Log ω}

theorem handing_returned_iff (prior : δ) {call : Action (R × (Log ω × δ)) Unit} :
    (handing prior call profile p).Returned ↔ (call profile (p.1, p.2, prior)).Returned := by
  rw [handing]
  rcases call profile (p.1, p.2, prior) with ⟨⟨⟩, q⟩ | ⟨error, q⟩ | q
  · exact iff_of_true trivial trivial
  · exact iff_of_true trivial trivial
  · exact iff_of_false id id

theorem quietly_returned_iff {call : Action (R × δ) Unit} {q : R × (Log ω × δ)} :
    (quietly call profile q).Returned ↔ (call profile (q.1, q.2.2)).Returned := by
  rw [quietly, focus_apply]
  rcases call profile (q.1, q.2.2) with ⟨⟨⟩, final⟩ | ⟨error, final⟩ | final
  · exact iff_of_true trivial trivial
  · exact iff_of_true trivial trivial
  · exact iff_of_false id id

theorem method_returned_iff {body : Action (R × Log ω) (Result × ω)} {q : R × (Log ω × (ω × Bool))} :
    (method body profile q).Returned ↔ (body profile (q.1, q.2.1)).Returned := by
  rw [method]
  rcases body profile (q.1, q.2.1) with ⟨⟨⟨error⟩ | ⟨⟨⟩⟩, memory⟩, final⟩ | ⟨error, final⟩ | final
  · exact iff_of_true trivial trivial
  · exact iff_of_true trivial trivial
  · exact iff_of_true trivial trivial
  · exact iff_of_false id id

theorem logged_returned_iff [Reader R] (describe : δ → Call ω)
    {call : Action (R × Log ω) (Result × δ)} : (logged describe call profile p).Returned ↔
      (call profile (p.1, p.2.notice (Reader.observation p.1))).Returned := by
  rw [logged, bind_apply, look, Outcome.bind_ok, bind_apply, Outcome.returned_bind_iff]
  exact and_iff_left fun answer q _ => trivial

end Calls

end Client

section Runs

variable [Arithmetic]

/-- The fields the operation asks for where the stream stands end at 64 bit positions. -/
def Operation.FitsAt (operation : Operation) (stream : ReadStream) : Prop :=
  operation.decoder.Fits stream.cursor

namespace Client

/-- `rest` holds of whatever the call comes back with. -/
def Then (call : Action (ReadStream × Log ω) α) (build : Build) (p : ReadStream × Log ω)
    (rest : α → ReadStream × Log ω → Prop) : Prop :=
  ∀ answer q, call build p = .ok answer q → rest answer q

/-- The client calls every operation where the fields of the operation fit. -/
def Fitting (build : Build) : Client ω → ReadStream × Log ω → Prop
  | .done _ _, _ => True
  | .observe next, p => Then look build p fun seen q => (next seen).Fitting build q
  | .call operation prior next, p =>
      operation.FitsAt p.1 ∧
        Then (logged (.operation operation prior)
            (handing prior (quietly (Reader.operation operation)))) build p
          fun answer q => (next answer.1 answer.2).Fitting build q
  | .finish next, p =>
      Then (logged (fun _ => .finish) (handing () (quietly (onState Reader.finish)))) build p
        fun answer q => (next answer.1).Fitting build q
  | .fail error next, p =>
      Then (logged (fun _ => .fail error) (handing () (quietly (onState (Reader.fail error)))))
        build p fun answer q => (next answer.1).Fitting build q
  | .reject next, p =>
      Then (logged (fun _ => .reject) (handing () (quietly (onState Reader.reject)))) build p
        fun answer q => (next answer.1).Fitting build q
  | .object prior body next, p =>
      -- on a stream that has refused the object's method is not entered
      (p.1.failure = none → Then look build p fun _ q => body.Fitting build q) ∧
        Then (logged (fun final => .object prior final.1 final.2)
            (handing (prior, false) (Reader.object (method body.run)))) build p
          fun answer q => (next answer.1 answer.2.1).Fitting build q

/-! ### A run comes back exactly where its fields fit -/

section Returned

variable {build : Build} {p : ReadStream × Log ω}

omit [Arithmetic] in
/-- A call that a cursor answers alike leaves a valid stream. -/
theorem valid_of_sim {m : Action (ReadStream × Log ω) α} {n : Action (Cursor Error × Log ω) α}
    (h : SimUnder build (Carrying Stands) NoEscape m n) (hvalid : p.1.Valid) {answer : α}
    {q : ReadStream × Log ω} (hm : m build p = .ok answer q) : q.1.Valid := by
  have hmatch := h p (p.1.cursor, p.2) ⟨⟨hvalid, rfl⟩, rfl⟩
  rw [hm] at hmatch
  obtain ⟨q', -, ⟨hvalid', -⟩, -⟩ := hmatch.ok_left
  exact hvalid'

theorem call_returned_iff {operation : Operation} {prior : operation.Value} (h : p.1.Valid) :
    (logged (.operation operation prior) (handing prior (quietly (Reader.operation operation)))
      build p).Returned ↔ operation.FitsAt p.1 := by
  rw [logged_returned_iff, handing_returned_iff, quietly_returned_iff, Operation.FitsAt,
    ← Decoder.run_returned_iff]
  have hstored := operation.run_stores build p.1 prior h
  rcases hrun : operation.decoder.run p.1.cursor with ⟨value, c⟩ | ⟨error, c⟩ | c
  · rw [hrun] at hstored
    obtain ⟨q, hq, -⟩ := hstored.of_ok
    rw [show Reader.operation operation build (p.1, prior) = _ from hq]
    exact iff_of_true trivial trivial
  · rw [hrun] at hstored
    obtain ⟨q, hq, -⟩ := hstored.of_err
    rw [show Reader.operation operation build (p.1, prior) = _ from hq]
    exact iff_of_true trivial trivial
  · rw [hrun] at hstored
    obtain ⟨q, hq, -⟩ := hstored.of_trap
    rw [show Reader.operation operation build (p.1, prior) = _ from hq]
    exact iff_of_false id id

theorem plain_returned {call : Call ω} {m : Action ReadStream Unit} (h : (m build p.1).Returned) :
    (logged (fun _ => call) (handing () (quietly (onState m))) build p).Returned := by
  rw [logged_returned_iff, handing_returned_iff, quietly_returned_iff, onState_apply]
  rcases hm : m build p.1 with ⟨⟨⟩, stream⟩ | ⟨error, stream⟩ | stream
  · trivial
  · trivial
  · rw [hm] at h
    exact h

omit [Arithmetic] in
theorem finish_returned (h : p.1.Valid) : (serializeEnd build p.1).Returned := by
  show (readEnd build p.1).Returned
  rw [readEnd_eq build h]
  split
  · trivial
  split
  · trivial
  split
  · trivial
  · trivial

theorem object_returned_iff {body : Client ω} {prior : ω} :
    (logged (fun final => .object prior final.1 final.2)
      (handing (prior, false) (Reader.object (method body.run))) build p).Returned ↔
        (p.1.failure = none → (body.run build
          (p.1, p.2.notice (Reader.observation p.1))).Returned) := by
  rw [logged_returned_iff, handing_returned_iff]
  show (serializeObject (method body.run) build (p.1, _)).Returned ↔ _
  rcases hfailed : p.1.failed with - | reason
  · rw [serializeObject_of_live hfailed]
    have hlive : p.1.failure = none := hfailed
    rw [← method_returned_iff (q := (p.1, p.2.notice (Reader.observation p.1), prior, false))]
    rcases method body.run build (p.1, p.2.notice (Reader.observation p.1), prior, false) with
      ⟨⟨⟩, stream, final⟩ | ⟨error, stream, final⟩ | q
    · refine iff_of_true ?_ fun _ => trivial
      dsimp only
      cases stream.failed with
      | none => trivial
      | some reason => trivial
    · exact iff_of_true trivial fun _ => trivial
    · exact iff_of_false id fun h => h hlive
  · rw [serializeObject_of_failed hfailed]
    refine iff_of_true trivial fun hlive => ?_
    cases (show p.1.failed = none from hlive).symm.trans hfailed

/-- **Main result.** From every valid stream a client's run comes back just in case it calls every
operation where the operation's fields fit. -/
theorem run_returned_iff (client : Client ω) (h : p.1.Valid) :
    (client.run build p).Returned ↔ client.Fitting build p := by
  have hmirrors := stands_mirrors build
  induction client generalizing p with
  | done result memory => exact iff_of_true trivial trivial
  | observe next ih =>
      rw [run, bind_apply, Outcome.returned_bind_iff, Fitting]
      refine (and_iff_right (show (look build p).Returned from trivial)).trans ?_
      exact forall₃_congr fun seen q hq => ih seen (valid_of_sim hmirrors.look h hq)
  | call operation prior next ih =>
      have hsim := hmirrors.logged (Call.operation operation prior : _ → Call ω)
        (handing_sim prior (quietly_sim (hmirrors.operation operation)))
      rw [run, bind_apply, Outcome.returned_bind_iff, call_returned_iff h, Fitting]
      exact and_congr_right fun _ => forall₃_congr fun answer q hq =>
        ih answer.1 answer.2 (valid_of_sim hsim h hq)
  | finish next ih =>
      have hsim := hmirrors.logged (fun _ => (.finish : Call ω))
        (handing_sim () (quietly_sim (CallSimUnder.onState hmirrors.finish)))
      rw [run, bind_apply, Outcome.returned_bind_iff, Fitting]
      refine (and_iff_right (plain_returned (finish_returned h))).trans ?_
      exact forall₃_congr fun answer q hq => ih answer.1 (valid_of_sim hsim h hq)
  | fail error next ih =>
      have hsim := hmirrors.logged (fun _ => (.fail error : Call ω))
        (handing_sim () (quietly_sim (CallSimUnder.onState (hmirrors.fail error))))
      rw [run, bind_apply, Outcome.returned_bind_iff, Fitting]
      refine (and_iff_right (plain_returned (m := Reader.fail error) trivial)).trans ?_
      exact forall₃_congr fun answer q hq => ih answer.1 (valid_of_sim hsim h hq)
  | reject next ih =>
      have hsim := hmirrors.logged (fun _ => (.reject : Call ω))
        (handing_sim () (quietly_sim (CallSimUnder.onState hmirrors.reject)))
      rw [run, bind_apply, Outcome.returned_bind_iff, Fitting]
      refine (and_iff_right (plain_returned ?_)).trans ?_
      · show (Serialize.reject build p.1).Returned
        rw [Serialize.reject, bind_apply, debugAssert_of (show isReading ReadStream = true from rfl)]
        trivial
      · exact forall₃_congr fun answer q hq => ih answer.1 (valid_of_sim hsim h hq)
  | object prior body next ihbody ih =>
      have hsim := hmirrors.logged (fun final : ω × Bool => .object prior final.1 final.2)
        (handing_sim (prior, false) (hmirrors.object (method_sim (hmirrors.run body))))
      rw [run, bind_apply, Outcome.returned_bind_iff, object_returned_iff, Fitting]
      refine and_congr (imp_congr_right fun _ => ?_) (forall₃_congr fun answer q hq =>
        ih answer.1 answer.2.1 (valid_of_sim hsim h hq))
      refine (ihbody (show (p.1, p.2.notice (Reader.observation p.1)).1.Valid from h)).trans ?_
      constructor
      · intro hfitting seen q hq
        cases hq
        exact hfitting
      · intro hfitting
        exact hfitting _ _ rfl

end Returned

end Client

/-- Where the packet leaves 32 bits below `2 ^ 64`, only a plain group of bits can ask for a field that
does not fit: its width is looked at last. -/
theorem Operation.fitsAt_iff (operation : Operation) {stream : ReadStream} (h : stream.Valid)
    (hroom : stream.reader.numBits + 32 < 2 ^ 64) : operation.FitsAt stream ↔
      ∀ width : U32, operation = .bits width → stream.reader.bitsRead + width.toNat < 2 ^ 64 := by
  have hlimit : stream.cursor.limit + 32 < 2 ^ 64 := by rwa [h.limit_cursor]
  constructor
  · rintro hfits width rfl
    rw [Operation.FitsAt, Operation.decoder, Decoders.group] at hfits
    split at hfits
    · exact Nat.not_le.mp hfits.1
    · exact Nat.not_le.mp hfits
  · intro hwidths
    by_cases hnarrow : ∀ width, operation = .bits width → width.toNat ≤ 32
    · exact Decoder.run_returned_iff.mp
        (Outcome.returned_of_ne_trap (Decoder.run_ne_trap (operation.decoder_narrow hnarrow) hlimit))
    · obtain ⟨width, rfl, hwide⟩ : ∃ width, operation = .bits width ∧ ¬width.toNat ≤ 32 := by
        push Not at hnarrow
        exact hnarrow.imp fun width h => ⟨h.1, Nat.not_le.mpr h.2⟩
      rw [Operation.FitsAt, Operation.decoder, Decoders.group, if_neg fun hlegal => hwide hlegal.2]
      exact Nat.not_le.mpr (hwidths width rfl)

/-- **A run is free of the defect exactly where its fields fit**, whatever the size of the packet:
refusal is terminal on it, it comes back and stays inside the packet, and it is the same run under
every profile with fewer checks. -/
theorem fitting_runs_iff {buffer : List U8} {bytes : Nat} {build : Build} {stream : ReadStream}
    (hnew : ReadStream.new buffer bytes build () = .ok stream ()) (client : Client ω) :
    client.Fitting build (stream, Log.empty) ↔
      RefusalTerminal (client.run build (stream, Log.empty)) ∧
      RunsInside (accepted buffer bytes) (client.run build (stream, Log.empty)) ∧
      ∀ profile : Profile, profile.Relaxes build →
        client.run profile (stream, Log.empty) = client.run build (stream, Log.empty) := by
  obtain ⟨hbits, rfl⟩ := new_eq_ok_iff.mp hnew
  have hreturned := @Client.run_returned_iff _ _ build (fresh buffer bytes, Log.empty) client
    (fresh_valid hbits)
  constructor
  · intro hfitting
    have hback := hreturned.mpr hfitting
    exact ⟨refusalTerminal_of_ne_trap hbits hback.ne_trap, runsInside_of_ne_trap hbits hback.ne_trap,
      fun profile hlax => client.run_agrees.agree hlax _ hback⟩
  · rintro ⟨-, hinside, -⟩
    exact hreturned.mp hinside.returned

end Runs

/-- The widest field there is, asked for at the front of the largest packet. -/
theorem fitting_runs_largest_packet :
    RefusalTerminal (widest.run .checked (fresh largestBuffer (2 ^ 61 - 1), Log.empty)) :=
  have hnew : ReadStream.new largestBuffer (2 ^ 61 - 1) .checked ()
      = .ok (fresh largestBuffer (2 ^ 61 - 1)) () := new_eq_ok_iff.mpr ⟨largestBuffer_fits_64, rfl⟩
  have hfits : (Operation.bits 0xFFFFFFFF).FitsAt (fresh largestBuffer (2 ^ 61 - 1)) :=
    show ¬2 ^ 64 ≤ 0 + (0xFFFFFFFF : U32).toNat by decide
  ((fitting_runs_iff hnew widest).mp ⟨hfits, fun _ _ _ => trivial⟩).1

end Serialize
