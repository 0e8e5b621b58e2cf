import Mathlib.Data.BitVec

/-!
# Computations that return, refuse or trap

A computation runs over a state under a profile. It either returns a value, refuses with an error,
or traps: a debug assertion that fails, an index out of bounds, a shift by its own width, an
arithmetic overflow. A trap is a panic, so it keeps the state at which the panic happened and runs
nothing after it.

A build checks its arithmetic. Debug assertions are compiled out of the unchecked build; every other
check stands in both. The profile that is no build here is the default release profile, which checks
neither: there a sum wraps and the amount of a shift is masked, and what is left to trap are the
bounds of indices and slices.

An operation that stores through a reference to a caller's value is a computation over the pair of
the state and that value. Handing it a local variable instead is `inLocal`, and a store is the only
thing that changes the caller's value.
-/

namespace Machine

/-- A build with overflow checks, and whether debug assertions are compiled in. -/
inductive Build where
  | checked
  | unchecked
  deriving DecidableEq, Repr

/-- How the code is compiled: with overflow checks, or as the default release profile. -/
inductive Profile where
  | trapping (build : Build)
  | wrapping
  deriving DecidableEq, Repr

instance : Coe Build Profile := ⟨.trapping⟩

namespace Profile

@[match_pattern]
abbrev checked : Profile := .trapping .checked

@[match_pattern]
abbrev unchecked : Profile := .trapping .unchecked

end Profile

/-- How a computation over `σ` ends: with a value, with an error, or at a panic. -/
inductive Outcome (ε σ α : Type) where
  | ok (value : α) (state : σ)
  | err (error : ε) (state : σ)
  | trap (state : σ)
  deriving DecidableEq, Repr

/-- A computation over a state that may refuse with an error or trap. -/
def Comp (ε σ α : Type) := Profile → σ → Outcome ε σ α

variable {ε σ τ δ κ α β : Type}

namespace Outcome

def bind (outcome : Outcome ε σ α) (next : α → σ → Outcome ε σ β) : Outcome ε σ β :=
  match outcome with
  | .ok value state => next value state
  | .err error state => .err error state
  | .trap state => .trap state

def mapState (f : σ → τ) : Outcome ε σ α → Outcome ε τ α
  | .ok value state => .ok value (f state)
  | .err error state => .err error (f state)
  | .trap state => .trap (f state)

/-- The state a computation leaves behind, however it ended. -/
def state : Outcome ε σ α → σ
  | .ok _ state => state
  | .err _ state => state
  | .trap state => state

/-- The computation did not panic. -/
def Returned : Outcome ε σ α → Prop
  | .trap _ => False
  | _ => True

/-- The computation came back in a state its answer allows, or it panicked. -/
def Ends (returned : α → σ → Prop) (refused : ε → σ → Prop) : Outcome ε σ α → Prop
  | .ok value state => returned value state
  | .err error state => refused error state
  | .trap _ => True

@[simp]
theorem bind_ok (value : α) (state : σ) (next : α → σ → Outcome ε σ β) :
    (Outcome.ok value state).bind next = next value state := rfl

@[simp]
theorem bind_err (error : ε) (state : σ) (next : α → σ → Outcome ε σ β) :
    (Outcome.err error state).bind next = .err error state := rfl

@[simp]
theorem bind_trap (state : σ) (next : α → σ → Outcome ε σ β) :
    (Outcome.trap state).bind next = .trap state := rfl

@[simp]
theorem mapState_ok (f : σ → τ) (value : α) (state : σ) :
    (Outcome.ok value state : Outcome ε σ α).mapState f = .ok value (f state) := rfl

@[simp]
theorem mapState_err (f : σ → τ) (error : ε) (state : σ) :
    (Outcome.err error state : Outcome ε σ α).mapState f = .err error (f state) := rfl

@[simp]
theorem mapState_trap (f : σ → τ) (state : σ) :
    (Outcome.trap state : Outcome ε σ α).mapState f = .trap (f state) := rfl

@[simp]
theorem state_mapState (f : σ → τ) (outcome : Outcome ε σ α) :
    (outcome.mapState f).state = f outcome.state := by
  cases outcome <;> rfl

theorem bind_eq_ok {outcome : Outcome ε σ α} {next : α → σ → Outcome ε σ β} {value : β}
    {state : σ} : outcome.bind next = .ok value state ↔
      ∃ value' state', outcome = .ok value' state' ∧ next value' state' = .ok value state := by
  cases outcome with
  | ok value' state' =>
      constructor
      · intro h
        exact ⟨value', state', rfl, h⟩
      · rintro ⟨value'', state'', heq, h⟩
        cases heq
        exact h
  | err error state' => simp
  | trap state' => simp

theorem Ends.bind {outcome : Outcome ε σ α} {next : α → σ → Outcome ε σ β}
    {returned : α → σ → Prop} {returned' : β → σ → Prop} {refused : ε → σ → Prop}
    (h : outcome.Ends returned refused)
    (hnext : ∀ value state, returned value state → (next value state).Ends returned' refused) :
    (outcome.bind next).Ends returned' refused := by
  cases outcome with
  | ok value state => exact hnext value state h
  | err error state => exact h
  | trap state => trivial

theorem Ends.mono {outcome : Outcome ε σ α} {returned returned' : α → σ → Prop}
    {refused refused' : ε → σ → Prop} (h : outcome.Ends returned refused)
    (hreturned : ∀ value state, returned value state → returned' value state)
    (hrefused : ∀ error state, refused error state → refused' error state) :
    outcome.Ends returned' refused' := by
  cases outcome with
  | ok value state => exact hreturned value state h
  | err error state => exact hrefused error state h
  | trap state => trivial

theorem ends_mapState {f : σ → τ} {outcome : Outcome ε σ α} {returned : α → τ → Prop}
    {refused : ε → τ → Prop} : (outcome.mapState f).Ends returned refused ↔
      outcome.Ends (fun value state => returned value (f state))
        fun error state => refused error (f state) := by
  cases outcome <;> rfl

/-- Where a computation comes back, what follows it need only agree on the states it returns. -/
theorem Ends.bind_congr {outcome : Outcome ε σ α} {next next' : α → σ → Outcome ε σ β}
    {returned : α → σ → Prop} {refused : ε → σ → Prop} (h : outcome.Ends returned refused)
    (hnext : ∀ value state, returned value state → next value state = next' value state) :
    outcome.bind next = outcome.bind next' := by
  cases outcome with
  | ok value state => exact hnext value state h
  | err error state => rfl
  | trap state => rfl

theorem bind_assoc {γ : Type} (outcome : Outcome ε σ α) (next : α → σ → Outcome ε σ β)
    (last : β → σ → Outcome ε σ γ) :
    (outcome.bind next).bind last = outcome.bind fun value state => (next value state).bind last := by
  cases outcome with
  | ok value state => rfl
  | err error state => rfl
  | trap state => rfl

theorem returned_of_ne_trap {outcome : Outcome ε σ α} (h : ∀ state, outcome ≠ .trap state) :
    outcome.Returned := by
  cases outcome with
  | ok value state => trivial
  | err error state => trivial
  | trap state => exact absurd rfl (h state)

theorem Returned.ne_trap {outcome : Outcome ε σ α} (h : outcome.Returned) (state : σ) :
    outcome ≠ .trap state := by
  rintro rfl
  exact h

theorem returned_bind_iff {outcome : Outcome ε σ α} {next : α → σ → Outcome ε σ β} :
    (outcome.bind next).Returned ↔ outcome.Returned ∧
      ∀ value state, outcome = .ok value state → (next value state).Returned := by
  cases outcome with
  | ok value state =>
      constructor
      · rintro h
        refine ⟨trivial, fun value' state' heq => ?_⟩
        cases heq
        exact h
      · rintro ⟨-, h⟩
        exact h value state rfl
  | err error state => exact iff_of_true trivial ⟨trivial, fun _ _ heq => by cases heq⟩
  | trap state => exact iff_of_false id fun h => h.1

theorem not_returned_bind {outcome : Outcome ε σ α} (h : ¬outcome.Returned)
    (next : α → σ → Outcome ε σ β) : ¬(outcome.bind next).Returned := by
  cases outcome with
  | ok value state => exact absurd trivial h
  | err error state => exact absurd trivial h
  | trap state => exact h

theorem not_returned_mapState {outcome : Outcome ε σ α} (h : ¬outcome.Returned) (f : σ → τ) :
    ¬(outcome.mapState f).Returned := by
  cases outcome with
  | ok value state => exact absurd trivial h
  | err error state => exact absurd trivial h
  | trap state => exact h

end Outcome

instance : Monad (Comp ε σ) where
  pure value := fun _ state => .ok value state
  bind m next := fun profile state => (m profile state).bind fun value state' => next value profile state'

@[simp]
theorem pure_apply (value : α) (profile : Profile) (state : σ) :
    (pure value : Comp ε σ α) profile state = .ok value state := rfl

@[simp]
theorem bind_apply (m : Comp ε σ α) (next : α → Comp ε σ β) (profile : Profile) (state : σ) :
    (m >>= next) profile state
      = (m profile state).bind fun value state' => next value profile state' := rfl

@[simp]
theorem ite_comp_apply (c : Prop) [Decidable c] (m n : Comp ε σ α) (profile : Profile) (state : σ) :
    (if c then m else n) profile state = if c then m profile state else n profile state := by
  split <;> rfl

/-! ### Primitive steps -/

/-- Refuse with an error. -/
def refuse (error : ε) : Comp ε σ α := fun _ state => .err error state

def getState : Comp ε σ σ := fun _ state => .ok state state

def setState (state : σ) : Comp ε σ Unit := fun _ _ => .ok () state

def modifyState (f : σ → σ) : Comp ε σ Unit := fun _ state => .ok () (f state)

/-- A check the language makes under every profile: an index, the bounds of a slice. -/
def require (c : Prop) [Decidable c] : Comp ε σ Unit :=
  fun _ state => if c then .ok () state else .trap state

/-- A step only the checked build takes. -/
def inChecked (m : Comp ε σ Unit) : Comp ε σ Unit :=
  fun profile state => match profile with
    | .checked => m profile state
    | _ => .ok () state

/-- A check only the checked build makes. -/
def debugAssert (c : Prop) [Decidable c] : Comp ε σ Unit :=
  inChecked (require c)

/-- Run a step only under a condition known from the arguments. -/
def onlyIf (c : Prop) [Decidable c] (m : Comp ε σ Unit) : Comp ε σ Unit :=
  if c then m else pure ()

@[simp]
theorem refuse_apply (error : ε) (profile : Profile) (state : σ) :
    (refuse error : Comp ε σ α) profile state = .err error state := rfl

@[simp]
theorem getState_apply (profile : Profile) (state : σ) :
    (getState : Comp ε σ σ) profile state = .ok state state := rfl

@[simp]
theorem setState_apply (state' : σ) (profile : Profile) (state : σ) :
    (setState state' : Comp ε σ Unit) profile state = .ok () state' := rfl

@[simp]
theorem modifyState_apply (f : σ → σ) (profile : Profile) (state : σ) :
    (modifyState f : Comp ε σ Unit) profile state = .ok () (f state) := rfl

theorem require_apply (c : Prop) [Decidable c] (profile : Profile) (state : σ) :
    (require c : Comp ε σ Unit) profile state = if c then .ok () state else .trap state := rfl

theorem require_of {c : Prop} [Decidable c] (h : c) (profile : Profile) (state : σ) :
    (require c : Comp ε σ Unit) profile state = .ok () state := if_pos h

theorem require_of_not {c : Prop} [Decidable c] (h : ¬c) (profile : Profile) (state : σ) :
    (require c : Comp ε σ Unit) profile state = .trap state := if_neg h

theorem inChecked_of_ok {m : Comp ε σ Unit} {profile : Profile} {state : σ}
    (h : m profile state = .ok () state) : inChecked m profile state = .ok () state := by
  cases profile with
  | trapping build =>
      cases build with
      | checked => exact h
      | unchecked => rfl
  | wrapping => rfl

theorem inChecked_bind (m n : Comp ε σ Unit) :
    inChecked (m >>= fun _ => n) = (inChecked m >>= fun _ => inChecked n) := by
  funext profile state
  cases profile with
  | trapping build =>
      cases build with
      | checked => rfl
      | unchecked => rfl
  | wrapping => rfl

theorem debugAssert_apply (c : Prop) [Decidable c] (profile : Profile) (state : σ) :
    (debugAssert c : Comp ε σ Unit) profile state
      = if profile = .checked → c then .ok () state else .trap state := by
  cases profile with
  | trapping build =>
      cases build with
      | checked => simp [debugAssert, inChecked, require_apply]
      | unchecked => simp [debugAssert, inChecked]
  | wrapping => simp [debugAssert, inChecked]

theorem debugAssert_of {c : Prop} [Decidable c] (h : c) (profile : Profile) (state : σ) :
    (debugAssert c : Comp ε σ Unit) profile state = .ok () state :=
  inChecked_of_ok (require_of h profile state)

theorem debugAssert_checked_of_not {c : Prop} [Decidable c] (h : ¬c) (state : σ) :
    (debugAssert c : Comp ε σ Unit) .checked state = .trap state :=
  require_of_not h .checked state

/-! ### Machine arithmetic

Counters are natural numbers; the width of the machine integer that holds one appears in each
operation on it. Where arithmetic is checked an operation traps outside that width, and where it is
not the operation gives the result modulo the width. -/

/-- A check on arithmetic. -/
def noOverflow (c : Prop) [Decidable c] : Comp ε σ Unit :=
  fun profile state => match profile with
    | .trapping _ => if c then .ok () state else .trap state
    | .wrapping => .ok () state

/-- Addition in a `w` bit unsigned integer. -/
def checkedAdd (w a b : Nat) : Comp ε σ Nat := do
  noOverflow (a + b < 2 ^ w)
  pure ((a + b) % 2 ^ w)

/-- Multiplication in a `w` bit unsigned integer. -/
def checkedMul (w a b : Nat) : Comp ε σ Nat := do
  noOverflow (a * b < 2 ^ w)
  pure (a * b % 2 ^ w)

/-- Subtraction in a `w` bit unsigned integer. -/
def checkedSub (w a b : Nat) : Comp ε σ Nat := do
  noOverflow (b ≤ a)
  pure (if b ≤ a then a - b else 2 ^ w + a - b)

/-- The amount of a shift in a `w` bit integer: less than the width, or masked to it. -/
def shiftAmount (w k : Nat) : Comp ε σ Nat := do
  noOverflow (k < w)
  pure (k % w)

/-- `(1 << k) - 1` in a `w` bit unsigned integer: a shift by less than the width is not zero, so the
subtraction does not underflow. -/
def lowMask (w k : Nat) : Comp ε σ (BitVec w) := do
  let amount ← shiftAmount w k
  pure ((1#w <<< amount) - 1#w)

/-- Subtraction of `w` bit unsigned integers. -/
def checkedSubBits {w : Nat} (a b : BitVec w) : Comp ε σ (BitVec w) := do
  noOverflow (b ≤ a)
  pure (a - b)

/-- Addition in a 64 bit signed integer. -/
def checkedAddI64 (a b : Int) : Comp ε σ Int := do
  noOverflow (-2 ^ 63 ≤ a + b ∧ a + b < 2 ^ 63)
  pure ((a + b).bmod (2 ^ 64))

/-- Subtraction in a 64 bit signed integer. -/
def checkedSubI64 (a b : Int) : Comp ε σ Int := do
  noOverflow (-2 ^ 63 ≤ a - b ∧ a - b < 2 ^ 63)
  pure ((a - b).bmod (2 ^ 64))

theorem noOverflow_apply (c : Prop) [Decidable c] (build : Build) (state : σ) :
    (noOverflow c : Comp ε σ Unit) build state = if c then .ok () state else .trap state := rfl

theorem noOverflow_of {c : Prop} [Decidable c] (h : c) (profile : Profile) (state : σ) :
    (noOverflow c : Comp ε σ Unit) profile state = .ok () state := by
  cases profile with
  | trapping build => exact if_pos h
  | wrapping => rfl

theorem noOverflow_of_not {c : Prop} [Decidable c] (h : ¬c) (build : Build) (state : σ) :
    (noOverflow c : Comp ε σ Unit) build state = .trap state := if_neg h

/-- In a checked build a check on arithmetic is an assertion. -/
theorem inChecked_noOverflow (c : Prop) [Decidable c] :
    inChecked (noOverflow c : Comp ε σ Unit) = debugAssert c := by
  funext profile state
  cases profile with
  | trapping build => cases build <;> rfl
  | wrapping => rfl

theorem noOverflow_wrapping (c : Prop) [Decidable c] (state : σ) :
    (noOverflow c : Comp ε σ Unit) .wrapping state = .ok () state := rfl

theorem checkedAdd_of {w a b : Nat} (h : a + b < 2 ^ w) (profile : Profile) (state : σ) :
    (checkedAdd w a b : Comp ε σ Nat) profile state = .ok (a + b) state := by
  rw [checkedAdd, bind_apply, noOverflow_of h, Nat.mod_eq_of_lt h]
  rfl

theorem checkedAdd_of_not {w a b : Nat} (h : ¬a + b < 2 ^ w) (build : Build) (state : σ) :
    (checkedAdd w a b : Comp ε σ Nat) build state = .trap state := by
  rw [checkedAdd, bind_apply, noOverflow_of_not h]
  rfl

theorem checkedAdd_wrapping (w a b : Nat) (state : σ) :
    (checkedAdd w a b : Comp ε σ Nat) .wrapping state = .ok ((a + b) % 2 ^ w) state := rfl

/-- Addition traps whatever the state, or gives one value whatever the state: the sum, or under the
default release profile a sum that has wrapped. -/
theorem checkedAdd_cases (w a b : Nat) (profile : Profile) :
    (∀ state : σ, (checkedAdd w a b : Comp ε σ Nat) profile state = .trap state) ∨
      ∃ sum, (∀ state : σ, (checkedAdd w a b : Comp ε σ Nat) profile state = .ok sum state)
        ∧ (sum = a + b ∨ profile = .wrapping ∧ 2 ^ w ≤ a + b) := by
  by_cases h : a + b < 2 ^ w
  · exact .inr ⟨a + b, checkedAdd_of h profile, .inl rfl⟩
  · cases profile with
    | trapping build => exact .inl (checkedAdd_of_not h build)
    | wrapping => exact .inr ⟨_, checkedAdd_wrapping w a b, .inr ⟨rfl, Nat.not_lt.mp h⟩⟩

theorem checkedMul_of {w a b : Nat} (h : a * b < 2 ^ w) (profile : Profile) (state : σ) :
    (checkedMul w a b : Comp ε σ Nat) profile state = .ok (a * b) state := by
  rw [checkedMul, bind_apply, noOverflow_of h, Nat.mod_eq_of_lt h]
  rfl

theorem checkedMul_of_not {w a b : Nat} (h : ¬a * b < 2 ^ w) (build : Build) (state : σ) :
    (checkedMul w a b : Comp ε σ Nat) build state = .trap state := by
  rw [checkedMul, bind_apply, noOverflow_of_not h]
  rfl

theorem checkedMul_wrapping (w a b : Nat) (state : σ) :
    (checkedMul w a b : Comp ε σ Nat) .wrapping state = .ok (a * b % 2 ^ w) state := rfl

theorem checkedSub_of {w a b : Nat} (h : b ≤ a) (profile : Profile) (state : σ) :
    (checkedSub w a b : Comp ε σ Nat) profile state = .ok (a - b) state := by
  rw [checkedSub, bind_apply, noOverflow_of h, if_pos h]
  rfl

theorem checkedSub_apply (w a b : Nat) (build : Build) (state : σ) :
    (checkedSub w a b : Comp ε σ Nat) build state
      = if b ≤ a then .ok (a - b) state else .trap state := by
  split
  next h => exact checkedSub_of h build state
  next h =>
    rw [checkedSub, bind_apply, noOverflow_of_not h]
    rfl

theorem shiftAmount_of {w k : Nat} (h : k < w) (profile : Profile) (state : σ) :
    (shiftAmount w k : Comp ε σ Nat) profile state = .ok k state := by
  rw [shiftAmount, bind_apply, noOverflow_of h, Nat.mod_eq_of_lt h]
  rfl

theorem shiftAmount_apply (w k : Nat) (build : Build) (state : σ) :
    (shiftAmount w k : Comp ε σ Nat) build state
      = if k < w then .ok k state else .trap state := by
  split
  next h => exact shiftAmount_of h build state
  next h =>
    rw [shiftAmount, bind_apply, noOverflow_of_not h]
    rfl

theorem lowMask_of {w k : Nat} (h : k < w) (profile : Profile) (state : σ) :
    (lowMask w k : Comp ε σ (BitVec w)) profile state = .ok ((1#w <<< k) - 1#w) state := by
  rw [lowMask, bind_apply, shiftAmount_of h]
  rfl

theorem checkedSubBits_of {w : Nat} {a b : BitVec w} (h : b ≤ a) (profile : Profile) (state : σ) :
    (checkedSubBits a b : Comp ε σ (BitVec w)) profile state = .ok (a - b) state := by
  rw [checkedSubBits, bind_apply, noOverflow_of h]
  rfl

theorem bmod_of_i64 {a : Int} (h : -2 ^ 63 ≤ a ∧ a < 2 ^ 63) : a.bmod (2 ^ 64) = a :=
  Int.bmod_eq_of_le (by omega) (by omega)

theorem checkedAddI64_of {a b : Int} (h : -2 ^ 63 ≤ a + b ∧ a + b < 2 ^ 63) (profile : Profile)
    (state : σ) : (checkedAddI64 a b : Comp ε σ Int) profile state = .ok (a + b) state := by
  rw [checkedAddI64, bind_apply, noOverflow_of h, bmod_of_i64 h]
  rfl

theorem checkedSubI64_of {a b : Int} (h : -2 ^ 63 ≤ a - b ∧ a - b < 2 ^ 63) (profile : Profile)
    (state : σ) : (checkedSubI64 a b : Comp ε σ Int) profile state = .ok (a - b) state := by
  rw [checkedSubI64, bind_apply, noOverflow_of h, bmod_of_i64 h]
  rfl

/-! ### Parts of a state -/

/-- Run a computation on a part of the state. -/
def focus (get : σ → τ) (set : σ → τ → σ) (m : Comp ε τ α) : Comp ε σ α :=
  fun profile state => (m profile (get state)).mapState (set state)

/-- Run a computation on the state and leave the caller's value alone. -/
def onState (m : Comp ε σ α) : Comp ε (σ × δ) α :=
  fun profile p => (m profile p.1).mapState fun state => (state, p.2)

/-- The caller's value. -/
def load : Comp ε (σ × δ) δ := fun _ p => .ok p.2 p

/-- Store to the caller's value. -/
def store (value : δ) : Comp ε (σ × δ) Unit := fun _ p => .ok () (p.1, value)

/-- Hand an operation a local variable in place of the caller's value, and give back what it
holds afterwards. -/
def inLocal (initial : κ) (m : Comp ε (σ × κ) Unit) : Comp ε (σ × δ) κ :=
  fun profile p => match m profile (p.1, initial) with
    | .ok () (state, value) => .ok value (state, p.2)
    | .err error (state, _) => .err error (state, p.2)
    | .trap (state, _) => .trap (state, p.2)

/-- The result of a call as a value its caller can go on with. -/
def attempt (m : Comp ε σ α) : Comp ε σ (Except ε α) :=
  fun profile state => match m profile state with
    | .ok value state' => .ok (.ok value) state'
    | .err error state' => .ok (.error error) state'
    | .trap state' => .trap state'

theorem focus_apply (get : σ → τ) (set : σ → τ → σ) (m : Comp ε τ α) (profile : Profile) (state : σ) :
    focus get set m profile state = (m profile (get state)).mapState (set state) := rfl

@[simp]
theorem onState_apply (m : Comp ε σ α) (profile : Profile) (state : σ) (value : δ) :
    onState m profile (state, value) = (m profile state).mapState fun state' => (state', value) := rfl

theorem of_onState_eq_ok {m : Comp ε σ α} {profile : Profile} {state state' : σ} {value : δ} {part : α}
    (h : onState m profile (state, value) = .ok part (state', value)) :
    m profile state = .ok part state' := by
  rw [onState_apply] at h
  cases hm : m profile state with
  | ok part' state'' =>
      rw [hm] at h
      cases h
      rfl
  | err error state'' =>
      rw [hm] at h
      cases h
  | trap state'' =>
      rw [hm] at h
      cases h

theorem of_onState_eq_err {m : Comp ε σ α} {profile : Profile} {state state' : σ} {value : δ} {error : ε}
    (h : onState m profile (state, value) = .err error (state', value)) :
    m profile state = .err error state' := by
  rw [onState_apply] at h
  cases hm : m profile state with
  | ok part state'' =>
      rw [hm] at h
      cases h
  | err error' state'' =>
      rw [hm] at h
      cases h
      rfl
  | trap state'' =>
      rw [hm] at h
      cases h

theorem onState_bind {m : Comp ε σ α} {next : α → Comp ε σ β} {last : β → Comp ε (σ × δ) κ} :
    (onState m >>= fun value => onState (next value) >>= last) = onState (m >>= next) >>= last := by
  funext profile p
  obtain ⟨state, value⟩ := p
  rw [bind_apply, bind_apply, onState_apply, onState_apply, bind_apply]
  cases m profile state with
  | ok part state' => rfl
  | err error state' => rfl
  | trap state' => rfl

theorem onState_seq (m : Comp ε σ α) (next : α → Comp ε σ β) :
    (onState (m >>= next) : Comp ε (σ × δ) β) = (onState m >>= fun part => onState (next part)) := by
  funext profile p
  rw [bind_apply, onState, onState, bind_apply]
  cases m profile p.1 with
  | ok part state' => rfl
  | err error state' => rfl
  | trap state' => rfl

@[simp]
theorem load_apply (profile : Profile) (p : σ × δ) :
    (load : Comp ε (σ × δ) δ) profile p = .ok p.2 p := rfl

@[simp]
theorem store_apply (value : δ) (profile : Profile) (p : σ × δ) :
    (store value : Comp ε (σ × δ) Unit) profile p = .ok () (p.1, value) := rfl

theorem inLocal_of_ok {initial value : κ} {m : Comp ε (σ × κ) Unit} {profile : Profile}
    {state state' : σ} (h : m profile (state, initial) = .ok () (state', value)) (d : δ) :
    inLocal initial m profile (state, d) = .ok value (state', d) := by
  simp only [inLocal, h]

theorem inLocal_of_err {initial value : κ} {m : Comp ε (σ × κ) Unit} {profile : Profile}
    {state state' : σ} {error : ε} (h : m profile (state, initial) = .err error (state', value))
    (d : δ) : inLocal initial m profile (state, d) = .err error (state', d) := by
  simp only [inLocal, h]

theorem inLocal_of_trap {initial value : κ} {m : Comp ε (σ × κ) Unit} {profile : Profile}
    {state state' : σ} (h : m profile (state, initial) = .trap (state', value)) (d : δ) :
    inLocal initial m profile (state, d) = .trap (state', d) := by
  simp only [inLocal, h]

theorem inLocal_not_returned {initial : κ} {m : Comp ε (σ × κ) Unit} {profile : Profile} {p : σ × δ}
    (h : ¬(m profile (p.1, initial)).Returned) : ¬(inLocal initial m profile p).Returned := by
  rcases hm : m profile (p.1, initial) with ⟨⟨⟩, state, value⟩ | ⟨error, state, value⟩ |
    ⟨state, value⟩
  · rw [hm] at h
    exact absurd trivial h
  · rw [hm] at h
    exact absurd trivial h
  · rw [inLocal, hm]
    exact not_false

/-! ### Steps that change nothing -/

/-- The step comes back with `result` and changes nothing. -/
def Silent (m : Comp ε (σ × δ) α) (value : δ) (result : α) : Prop :=
  ∀ profile state, m profile (state, value) = .ok result (state, value)

namespace Silent

variable {value : δ}

theorem pure (result : α) : Silent (pure result : Comp ε (σ × δ) α) value result := fun _ _ => rfl

theorem load : Silent (load : Comp ε (σ × δ) δ) value value := fun _ _ => rfl

theorem require {c : Prop} [Decidable c] (h : c) :
    Silent (require c : Comp ε (σ × δ) Unit) value () :=
  fun profile state => require_of h profile (state, value)

theorem noOverflow {c : Prop} [Decidable c] (h : c) :
    Silent (noOverflow c : Comp ε (σ × δ) Unit) value () :=
  fun profile state => noOverflow_of h profile (state, value)

theorem shiftAmount {w k : Nat} (h : k < w) :
    Silent (shiftAmount w k : Comp ε (σ × δ) Nat) value k :=
  fun profile state => shiftAmount_of h profile (state, value)

theorem inChecked {m : Comp ε (σ × δ) Unit} (h : Silent m value ()) :
    Silent (inChecked m) value () :=
  fun profile state => inChecked_of_ok (h profile state)

theorem debugAssert {c : Prop} [Decidable c] (h : c) :
    Silent (debugAssert c : Comp ε (σ × δ) Unit) value () :=
  inChecked (require h)

theorem bind {m : Comp ε (σ × δ) α} {next : α → Comp ε (σ × δ) β} {part : α} {result : β}
    (h : Silent m value part) (hnext : Silent (next part) value result) :
    Silent (m >>= next) value result := by
  intro profile state
  rw [bind_apply, h profile state, Outcome.bind_ok]
  exact hnext profile state

theorem onState {m : Comp ε σ α} {result : α} (h : ∀ profile state, m profile state = .ok result state) :
    Silent (onState m) value result := by
  intro profile state
  rw [onState_apply, h, Outcome.mapState_ok]

end Silent

end Machine
