import Serialize.Machine.Computation

/-!
# Encoders

An encoder is a writing operation with its stream taken away: the checks it makes and the fields it
puts, in order, all of them known from the value it writes. Over the `put` of a stream it is a
computation again, and what holds of a run of every encoder follows from what holds of `put`.
-/

namespace Encode

open Machine

/-- A step of a writing operation. -/
inductive Step where
  /-- A check the checked build makes. -/
  | assert (holds : Bool)
  /-- A check on arithmetic, which either build makes. -/
  | demand (holds : Bool)
  /-- Put a field. -/
  | field (width value : BitVec 32)
  deriving DecidableEq, Repr

/-- A writing operation as its steps. -/
abbrev Encoder := List Step

variable {ε σ : Type}

namespace Step

def run (put : BitVec 32 → BitVec 32 → Comp ε σ Unit) : Step → Comp ε σ Unit
  | .assert holds => debugAssert (holds = true)
  | .demand holds => noOverflow (holds = true)
  | .field width value => put width value

/-- The step gets past a checked build: its check holds, or its field is one `Valid` allows. -/
def Passes (Valid : BitVec 32 → BitVec 32 → Prop) : Step → Prop
  | .assert holds => holds = true
  | .demand holds => holds = true
  | .field width value => Valid width value

end Step

namespace Encoder

/-- The encoder over a stream that puts fields. -/
def run (put : BitVec 32 → BitVec 32 → Comp ε σ Unit) : Encoder → Comp ε σ Unit
  | [] => pure ()
  | step :: encoder => do
      step.run put
      run put encoder

/-- The first field, whatever the checks before it say. -/
def firstField : Encoder → Option (BitVec 32 × BitVec 32)
  | [] => none
  | .assert _ :: encoder => firstField encoder
  | .demand _ :: encoder => firstField encoder
  | .field width value :: _ => some (width, value)

variable {put : BitVec 32 → BitVec 32 → Comp ε σ Unit} {build : Build} {state state' : σ}
  {encoder : Encoder}

theorem run_append (first second : Encoder) :
    run put (first ++ second) build state
      = (run put first build state).bind fun _ state' => run put second build state' := by
  induction first generalizing state with
  | nil => rfl
  | cons step first ih =>
      rw [List.cons_append, run, run, bind_apply, bind_apply]
      cases step.run put build state with
      | ok result state' => exact ih
      | err error state' => rfl
      | trap state' => rfl

theorem run_assert_of {c : Prop} [Decidable c] (h : c) (encoder : Encoder) :
    run put (.assert (decide c) :: encoder) build state = run put encoder build state := by
  rw [run, bind_apply, Step.run, debugAssert_of (decide_eq_true h), Outcome.bind_ok]

/-- An assertion counts in a checked build only. -/
theorem run_assert_of_checked {c : Prop} [Decidable c] (h : build = .checked → c)
    (encoder : Encoder) :
    run put (.assert (decide c) :: encoder) build state = run put encoder build state := by
  cases build with
  | checked => exact run_assert_of (h rfl) encoder
  | unchecked => rfl

theorem run_singleton (step : Step) : run put [step] build state = step.run put build state := by
  rw [run, bind_apply]
  cases step.run put build state with
  | ok result state' => rfl
  | err error state' => rfl
  | trap state' => rfl

theorem run_demand_of {c : Prop} [Decidable c] (h : c) (encoder : Encoder) :
    run put (.demand (decide c) :: encoder) build state = run put encoder build state := by
  rw [run, bind_apply, Step.run, noOverflow_of (decide_eq_true h), Outcome.bind_ok]

theorem run_assert_and {a b : Prop} [Decidable a] [Decidable b] (encoder : Encoder) :
    run put (.assert (decide a) :: .assert (decide b) :: encoder) build state
      = run put (.assert (decide (a ∧ b)) :: encoder) build state := by
  by_cases ha : a
  · have hand : decide (a ∧ b) = decide b := decide_eq_decide.mpr (and_iff_right ha)
    rw [run_assert_of ha, hand]
  · have hand : decide (a ∧ b) = decide a :=
      decide_eq_decide.mpr ⟨fun h => h.1, fun h => absurd h ha⟩
    rw [run, run, run, bind_apply, bind_apply, hand, Step.run, debugAssert_apply]
    cases build with
    | checked => simp [ha]
    | unchecked => simp [ha, bind_apply, Step.run, debugAssert_apply]

theorem step_preserves {I : σ → Prop}
    (hput : ∀ width value state, I state → I (put width value build state).state) (step : Step)
    (hstate : I state) : I (step.run put build state).state := by
  cases step with
  | assert holds =>
      rw [Step.run, debugAssert_apply]
      split <;> exact hstate
  | demand holds =>
      rw [Step.run, noOverflow_apply]
      split <;> exact hstate
  | field width value => exact hput width value state hstate

/-- **The invariant rule.** What every field keeps, every encoder keeps, however its run ends. -/
theorem run_preserves {I : σ → Prop}
    (hput : ∀ width value state, I state → I (put width value build state).state)
    (encoder : Encoder) (hstate : I state) : I (run put encoder build state).state := by
  induction encoder generalizing state with
  | nil => exact hstate
  | cons step encoder ih =>
      have hreached := step_preserves hput step hstate
      rw [run, bind_apply]
      cases hm : step.run put build state with
      | ok result state' =>
          rw [hm] at hreached
          exact ih hreached
      | err error state' =>
          rw [hm] at hreached
          exact hreached
      | trap state' =>
          rw [hm] at hreached
          exact hreached

theorem firstField_append (first second : Encoder) :
    firstField (first ++ second) = (firstField first).or (firstField second) := by
  induction first with
  | nil => rfl
  | cons step first ih =>
      cases step with
      | assert holds => exact ih
      | demand holds => exact ih
      | field width value => rfl

section FirstField

variable {Valid : BitVec 32 → BitVec 32 → Prop} {width value : BitVec 32}

theorem valid_firstField (hpasses : ∀ step ∈ encoder, step.Passes Valid)
    (h : encoder.firstField = some (width, value)) : Valid width value := by
  induction encoder with
  | nil => cases h
  | cons step encoder ih =>
      obtain ⟨hstep, hrest⟩ := List.forall_mem_cons.mp hpasses
      cases step with
      | assert holds => exact ih hrest h
      | demand holds => exact ih hrest h
      | field width' value' =>
          cases h
          exact hstep

theorem run_firstField (hpasses : ∀ step ∈ encoder, step.Passes Valid)
    (h : encoder.firstField = some (width, value)) : ∃ rest, run put encoder build state
      = (put width value build state).bind fun _ state' => run put rest build state' := by
  induction encoder with
  | nil => cases h
  | cons step encoder ih =>
      obtain ⟨hstep, hrest⟩ := List.forall_mem_cons.mp hpasses
      rw [run, bind_apply]
      cases step with
      | assert holds =>
          have hholds : holds = true := hstep
          rw [Step.run, debugAssert_of hholds, Outcome.bind_ok]
          exact ih hrest h
      | demand holds =>
          have hholds : holds = true := hstep
          rw [Step.run, noOverflow_of hholds, Outcome.bind_ok]
          exact ih hrest h
      | field width' value' =>
          cases h
          exact ⟨encoder, rfl⟩

end FirstField

/-- A checked run does not get past a step that does not pass. -/
theorem not_returned_of_not_passes {I : σ → Prop} {Valid : BitVec 32 → BitVec 32 → Prop}
    (hkept : ∀ width value state, I state → I (put width value .checked state).state)
    (hinvalid : ∀ width value state, I state → ¬Valid width value →
      ¬(put width value .checked state).Returned)
    (hput : ∀ width value state error state', I state →
      put width value .checked state ≠ .err error state')
    {step : Step} (hstep : step ∈ encoder) (h : ¬step.Passes Valid) (hstate : I state) :
    ¬(run put encoder .checked state).Returned := by
  induction encoder generalizing state with
  | nil => exact absurd hstep List.not_mem_nil
  | cons head encoder ih =>
      have hhead : (∃ error state', head.run put .checked state = .err error state') → False := by
        rintro ⟨error, state', herr⟩
        cases head with
        | assert holds =>
            rw [Step.run, debugAssert_apply] at herr
            split at herr <;> cases herr
        | demand holds =>
            rw [Step.run, noOverflow_apply] at herr
            split at herr <;> cases herr
        | field width value => exact hput width value state error state' hstate herr
      have hreached : I (head.run put .checked state).state := step_preserves hkept head hstate
      rw [run, bind_apply]
      rcases List.mem_cons.mp hstep with rfl | hrest
      · apply Outcome.not_returned_bind
        cases step with
        | assert holds =>
            have hfalse : ¬holds = true := h
            rw [Step.run, debugAssert_checked_of_not hfalse]
            exact not_false
        | demand holds =>
            have hfalse : ¬holds = true := h
            rw [Step.run, noOverflow_of_not hfalse]
            exact not_false
        | field width value => exact hinvalid width value state hstate h
      · cases hm : head.run put .checked state with
        | ok result state' =>
            rw [hm] at hreached
            exact ih hrest hreached
        | err error state' => exact (hhead ⟨error, state', hm⟩).elim
        | trap state' => exact not_false

end Encoder

end Encode
