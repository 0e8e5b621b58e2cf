import Serialize.Model.MeasureStream
import Serialize.Model.Program
import Serialize.Model.Respects

/-!
# The counter of a measure

Under every profile the counter of a measure is a 64 bit number after every program, also where it has
wrapped on the way.
-/

namespace Serialize

open Machine
open Binary32 (Arithmetic)

variable {profile : Profile}

/-- The same measure, whose count is a 64 bit number. -/
def Counted (left right : MeasureStream) : Prop := left = right ∧ left.bitsWritten < 2 ^ 64

namespace MeasureStream

instance (bits : Nat) : Respects profile Counted (count bits) where
  sim := by
    rintro measure _ ⟨rfl, hcount⟩
    rw [count, bind_apply, getState_apply, Outcome.bind_ok, bind_apply]
    by_cases hfits : measure.bitsWritten + bits < 2 ^ 64
    · rw [checkedAdd_of hfits]
      exact ⟨rfl, rfl, hfits⟩
    · cases profile with
      | trapping build =>
          rw [checkedAdd_of_not hfits]
          exact ⟨rfl, hcount⟩
      | wrapping =>
          rw [checkedAdd_wrapping]
          exact ⟨rfl, rfl, Nat.mod_lt _ (Nat.two_pow_pos 64)⟩

instance : Respects profile Counted measureAlign :=
  (inferInstance : Respects profile Counted (count worstAlign))

instance (bytes : Nat) : Respects profile Counted (countBytes bytes) := by
  unfold countBytes
  infer_instance

instance : CoreRespects profile Counted where
  fail error := (inferInstance : Respects profile Counted (refuse error))
  gate := (inferInstance : Respects profile Counted (pure ()))
  serializeBits bits := by
    unfold serializeBits instStreamCore
    infer_instance

instance {σ : Type} {R : σ → σ → Prop} (value : Utf8.Text) (bufferSize : Nat) :
    Respects profile R (stringLength value bufferSize : Action σ I32) := by
  unfold stringLength
  infer_instance

instance : StreamRespects profile Counted where
  serializeBytes n := by
    unfold serializeBytes instStream
    infer_instance
  serializeAlign := (inferInstance : Respects profile Counted measureAlign)
  serializeString bufferSize := by
    unfold serializeString instStream
    infer_instance

end MeasureStream

variable [Arithmetic]

/-- The count of a measure is a 64 bit number after every step of a program. -/
theorem Program.run_counted (profile : Profile) (program : Program) (memory : Memory) :
    Respects profile (Carrying Counted)
      (program.run memory : Action (MeasureStream × List Carried) Unit) := by
  induction program with
  | done => exact (inferInstance : Respects profile (Carrying Counted) (pure ()))
  | step operation next ih =>
      refine Respects.bind inferInstance fun log => Respects.bind inferInstance fun value =>
        Respects.bind inferInstance fun _ => ih value
  | object body next ihbody ih =>
      exact Respects.bind inferInstance fun log => Respects.bind ihbody fun _ =>
        Respects.bind inferInstance fun log' => ih (log'.drop log.length)
  | finish next ih =>
      exact Respects.bind (inferInstance : Respects profile (Carrying Counted)
        (onState (pure ()) : Action (MeasureStream × List Carried) Unit)) fun _ => ih

theorem Program.measure_lt {program : Program} {memory : Memory} {measured : MeasureStream}
    {log : List Carried} (h : program.run memory profile (MeasureStream.new, []) = .ok () (measured, log)) :
    measured.bitsWritten < 2 ^ 64 := by
  have hmatch := (program.run_counted profile memory).sim (MeasureStream.new, []) (MeasureStream.new, [])
    ⟨⟨rfl, Nat.two_pow_pos 64⟩, rfl⟩
  rw [h] at hmatch
  obtain ⟨_, -, ⟨-, hcount⟩, -⟩ := hmatch.ok_left
  exact hcount

end Serialize
