import Serialize.Float.Binary32
import Serialize.Reader.Origins
import Serialize.Reader.Reachable

/-!
# Whose refusal a stream reports

A nested object that fails with nothing recorded on the stream refuses it with the reason it returned,
whatever that is and wherever the object has it from: `rejected` is the reason of an object that says
so. Over a whole run the reason a stream reports is that of an operation it refused, a reason named to
it, or one a nested object returned.
-/

namespace Serialize

open Machine
open Binary32 (Arithmetic)
open ReadStream

/-- How an object handed to a live stream is composed with it: what its own run recorded comes first,
then what it returned. -/
structure ComposesObject {ω : Type} (object : Action (ReadStream × ω) Unit) (profile : Profile)
    (stream : ReadStream) (value : ω) : Prop where
  recorded : ∀ stream' final first, stream'.failure = some first →
    (object profile (stream, value) = .ok () (stream', final)
      ∨ ∃ error, object profile (stream, value) = .err error (stream', final)) →
    Refuses first final (serializeObject object profile (stream, value))
  returned : ∀ error stream' final, stream'.failure = none →
    object profile (stream, value) = .err error (stream', final) →
    Refuses error final (serializeObject object profile (stream, value))
  accepted : ∀ stream' final, stream'.failure = none →
    object profile (stream, value) = .ok () (stream', final) →
    serializeObject object profile (stream, value) = .ok () (stream', final)

theorem composesObject {ω : Type} (object : Action (ReadStream × ω) Unit) (profile : Profile)
    {stream : ReadStream} (hlive : stream.failure = none) (value : ω) :
    ComposesObject object profile stream value := by
  have hobject := @serializeObject_of_live ω object stream hlive profile value
  refine ⟨?_, ?_, ?_⟩
  · rintro stream' final first hfailed (hrun | ⟨error, hrun⟩)
    · rw [hrun] at hobject
      dsimp only at hobject
      rw [show stream'.failed = some first from hfailed] at hobject
      exact ⟨_, hobject, hfailed⟩
    · rw [hrun] at hobject
      dsimp only at hobject
      rw [show stream'.failed = some first from hfailed] at hobject
      exact ⟨_, hobject, rfl⟩
  · intro error stream' final hnone hrun
    rw [hrun] at hobject
    dsimp only at hobject
    rw [show stream'.failed = none from hnone] at hobject
    exact ⟨_, hobject, rfl⟩
  · intro stream' final hnone hrun
    rw [hrun] at hobject
    dsimp only at hobject
    rw [show stream'.failed = none from hnone] at hobject
    exact hobject

/-- **An object's own refusal keeps the reason it gave.** On a live stream the first refusal recorded
in an object is what it is refused with, one it returns with nothing recorded is recorded as it is,
and the reason a stream reports after any run is that of the step of the run that recorded it. -/
theorem object_refusal_attributed [Arithmetic] {stream : ReadStream} (hlive : stream.failure = none)
    (build : Build) :
    (∀ (profile : Profile) {ω : Type} (object : Action (ReadStream × ω) Unit) (value : ω),
      ComposesObject object profile stream value)
      ∧ (stream.Reachable → ∀ {ω : Type} (client : Client ω) (log : Log ω) (reason : Error),
        (client.run build (stream, log)).state.1.failure = some reason
          ↔ ∃ origin, Records build stream client origin ∧ origin.reason = reason) :=
  ⟨fun profile _ object value => composesObject object profile hlive value, fun hreachable _ client log =>
    failsAsRecorded build client stream log hreachable.valid hlive⟩

/-- A client whose one object ran past the end of another packet. -/
def nestedPacket : Client Unit := .object () (.done (.error .pastEnd) ()) fun result _ => .done result ()

/-- The object's reason is the one the stream reports. -/
theorem object_refusal_attributed_past_end :
    Refuses .pastEnd () (serializeObject (refuse .pastEnd) .checked (fresh [0] 1, ()))
      ∧ ∃ origin, Records .checked (fresh [0] 1) nestedPacket origin ∧ origin.reason = .pastEnd :=
  have hreachable : (fresh [0] 1).Reachable := reachable_fresh (by decide)
  have hattributed := @object_refusal_attributed _ (fresh [0] 1) rfl .checked
  ⟨(hattributed.1 .checked (refuse .pastEnd) ()).returned .pastEnd (fresh [0] 1) () rfl rfl,
    (hattributed.2 hreachable nestedPacket Log.empty .pastEnd).mp rfl⟩

/-- No operation of the stream refused, and it reports a reason of the wire. -/
theorem object_refusal_not_rejected :
    ¬∀ (object : Action (ReadStream × Unit) Unit) (build : Build) (stream stream' : ReadStream)
      (error : Error), stream.failure = none →
        object build (stream, ()) = .err error (stream', ()) → stream'.failure = none →
        Refuses .rejected () (serializeObject object build (stream, ())) := by
  intro hall
  obtain ⟨stream, hcall, -⟩ := hall (refuse .pastEnd) .checked (fresh [0] 1) (fresh [0] 1) .pastEnd rfl
    rfl rfl
  cases hcall

end Serialize
