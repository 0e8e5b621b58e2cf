import Serialize.Machine.Computation

/-!
# Simulation between computations

Two computations over different states match, step for step, under a relation on the states: related
states give the same value, the same error or a panic on both sides, and leave related states. The
left side may also stop early with an error the caller names, after which nothing is said about the
right side.

A simulation composes along everything computations are built from, so two machines whose primitive
operations match run every program over those operations alike.
-/

namespace Machine

variable {ε σ τ δ κ α β : Type}

/-- Two outcomes match under `R`, the left one being free to end in an error `Escape` allows. -/
def Outcome.Matches (R : σ → τ → Prop) (Escape : ε → σ → Prop) :
    Outcome ε σ α → Outcome ε τ α → Prop
  | .ok value state, .ok value' state' => value = value' ∧ R state state'
  | .err error state, right => Escape error state ∨ ∃ state', right = .err error state' ∧ R state state'
  | .trap state, .trap state' => R state state'
  | _, _ => False

/-- Related states give matching outcomes, under one profile. -/
def SimUnder (profile : Profile) (R : σ → τ → Prop) (Escape : ε → σ → Prop) (m : Comp ε σ α)
    (n : Comp ε τ α) : Prop :=
  ∀ state state', R state state' → Outcome.Matches R Escape (m profile state) (n profile state')

/-- Related states give matching outcomes, in either build. -/
def Sim (R : σ → τ → Prop) (Escape : ε → σ → Prop) (m : Comp ε σ α) (n : Comp ε τ α) : Prop :=
  ∀ build : Build, SimUnder build R Escape m n

/-- A relation on states, read on states that carry the same caller's value. -/
def Carrying (R : σ → τ → Prop) : σ × δ → τ × δ → Prop :=
  fun p q => R p.1 q.1 ∧ p.2 = q.2

/-- Operations on a caller's value match: they store the same value as well. -/
abbrev CallSim (R : σ → τ → Prop) (Escape : ε → σ → Prop) (m : Comp ε (σ × δ) α)
    (n : Comp ε (τ × δ) α) : Prop :=
  Sim (Carrying R) (fun error p => Escape error p.1) m n

/-- Operations on a caller's value match under one profile. -/
abbrev CallSimUnder (profile : Profile) (R : σ → τ → Prop) (Escape : ε → σ → Prop)
    (m : Comp ε (σ × δ) α) (n : Comp ε (τ × δ) α) : Prop :=
  SimUnder profile (Carrying R) (fun error p => Escape error p.1) m n

/-- No early end is allowed: the two sides match exactly. -/
def NoEscape : ε → σ → Prop := fun _ _ => False

section Outcomes

variable {R : σ → τ → Prop} {Escape : ε → σ → Prop}

theorem Outcome.Matches.bind {left : Outcome ε σ α} {right : Outcome ε τ α}
    {next : α → σ → Outcome ε σ β} {next' : α → τ → Outcome ε τ β}
    (h : left.Matches R Escape right)
    (hnext : ∀ value state state', R state state' →
      (next value state).Matches R Escape (next' value state')) :
    (left.bind next).Matches R Escape (right.bind next') := by
  match left, right, h with
  | .ok value state, .ok value' state', ⟨hvalue, hstate⟩ =>
      subst hvalue
      exact hnext value state state' hstate
  | .err error state, right, .inl hescape => exact Or.inl hescape
  | .err error state, right, .inr ⟨state', hright, hstate⟩ =>
      subst hright
      exact Or.inr ⟨state', rfl, hstate⟩
  | .trap state, .trap state', hstate => exact hstate

theorem Outcome.Matches.ok_left {value : α} {state : σ} {right : Outcome ε τ α}
    (h : (Outcome.ok value state).Matches R Escape right) :
    ∃ state', right = .ok value state' ∧ R state state' := by
  match right, h with
  | .ok value' state', ⟨hvalue, hstate⟩ => exact ⟨state', by rw [hvalue], hstate⟩

theorem Outcome.Matches.trap_left {state : σ} {right : Outcome ε τ α}
    (h : (Outcome.trap state : Outcome ε σ α).Matches R Escape right) :
    ∃ state', right = .trap state' ∧ R state state' := by
  match right, h with
  | .trap state', hstate => exact ⟨state', rfl, hstate⟩

theorem Outcome.Matches.trap_right {left : Outcome ε σ α} {state' : τ}
    (h : left.Matches R Escape (.trap state')) :
    (∃ error state, left = .err error state ∧ Escape error state) ∨
      ∃ state, left = .trap state ∧ R state state' := by
  match left, h with
  | .err error state, .inl hescape => exact Or.inl ⟨error, state, rfl, hescape⟩
  | .err error state, .inr ⟨_, hright, _⟩ => cases hright
  | .trap state, hstate => exact Or.inr ⟨state, rfl, hstate⟩

theorem Outcome.Matches.err_left {error : ε} {state : σ} {right : Outcome ε τ α}
    (h : (Outcome.err error state : Outcome ε σ α).Matches R Escape right) :
    Escape error state ∨ ∃ state', right = .err error state' ∧ R state state' := h

/-- With no early end, what related states show alike the outcomes show alike. -/
theorem Outcome.Matches.mapState_eq {left : Outcome ε σ α} {right : Outcome ε τ α}
    (h : left.Matches R NoEscape right) {f : σ → κ} {g : τ → κ}
    (hshown : ∀ state state', R state state' → f state = g state') :
    left.mapState f = right.mapState g := by
  match left, right, h with
  | .ok value state, .ok _ state', ⟨rfl, hstate⟩ =>
      rw [Outcome.mapState_ok, Outcome.mapState_ok, hshown state state' hstate]
  | .err error state, _, .inr ⟨state', rfl, hstate⟩ =>
      rw [Outcome.mapState_err, Outcome.mapState_err, hshown state state' hstate]
  | .trap state, .trap state', hstate =>
      rw [Outcome.mapState_trap, Outcome.mapState_trap, hshown state state' hstate]

/-- With no early end the states left behind are related, however the two sides ended. -/
theorem Outcome.Matches.state {left : Outcome ε σ α} {right : Outcome ε τ α}
    (h : left.Matches R Escape right) (hno : ∀ error state, ¬Escape error state) :
    R left.state right.state := by
  match left, right, h with
  | .ok value state, .ok value' state', ⟨_, hstate⟩ => exact hstate
  | .err error state, _, .inl hescape => exact absurd hescape (hno error state)
  | .err error state, _, .inr ⟨state', rfl, hstate⟩ => exact hstate
  | .trap state, .trap state', hstate => exact hstate

/-- Where the right side returns, the left side returned the same value or stopped early. -/
theorem Outcome.Matches.ok_right {value : α} {left : Outcome ε σ α} {state' : τ}
    (h : left.Matches R Escape (.ok value state')) :
    (∃ error state, left = .err error state ∧ Escape error state) ∨
      ∃ state, left = .ok value state ∧ R state state' := by
  match left, h with
  | .ok value' state, ⟨hvalue, hstate⟩ => exact Or.inr ⟨state, by rw [hvalue], hstate⟩
  | .err error state, .inl hescape => exact Or.inl ⟨error, state, rfl, hescape⟩
  | .err error state, .inr ⟨_, hright, _⟩ => cases hright

end Outcomes

namespace SimUnder

variable {profile : Profile} {R : σ → τ → Prop} {Escape : ε → σ → Prop}

theorem pure (value : α) : SimUnder profile R Escape (pure value) (pure value) :=
  fun _ _ h => ⟨rfl, h⟩

theorem bind {m : Comp ε σ α} {n : Comp ε τ α} {next : α → Comp ε σ β} {next' : α → Comp ε τ β}
    (h : SimUnder profile R Escape m n)
    (hnext : ∀ value, SimUnder profile R Escape (next value) (next' value)) :
    SimUnder profile R Escape (m >>= next) (n >>= next') := by
  intro state state' hstate
  exact (h state state' hstate).bind fun value => hnext value

/-- Results that match are the same value for the caller to go on with. -/
theorem attempt {m : Comp ε σ α} {n : Comp ε τ α} (h : SimUnder profile R NoEscape m n) :
    SimUnder profile R NoEscape (attempt m) (attempt n) := by
  intro state state' hstate
  have hmatch := h state state' hstate
  rw [Machine.attempt, Machine.attempt]
  rcases hm : m profile state with ⟨value, p⟩ | ⟨error, p⟩ | p
  · rw [hm] at hmatch
    obtain ⟨q, hn, hstate'⟩ := hmatch.ok_left
    rw [hn]
    exact ⟨rfl, hstate'⟩
  · rw [hm] at hmatch
    obtain hescape | ⟨q, hn, hstate'⟩ := hmatch.err_left
    · exact hescape.elim
    · rw [hn]
      exact ⟨rfl, hstate'⟩
  · rw [hm] at hmatch
    obtain ⟨q, hn, hstate'⟩ := hmatch.trap_left
    rw [hn]
    exact hstate'

end SimUnder

namespace CallSimUnder

variable {profile : Profile} {R : σ → τ → Prop} {Escape : ε → σ → Prop}

theorem onState {m : Comp ε σ α} {n : Comp ε τ α} (h : SimUnder profile R Escape m n) :
    CallSimUnder (δ := δ) profile R Escape (onState m) (onState n) := by
  rintro ⟨state, value⟩ ⟨state', value'⟩ ⟨hstate, hvalue⟩
  have hmatch := h state state' hstate
  rw [onState_apply, onState_apply]
  match hm : m profile state, hn : n profile state', hmatch with
  | .ok value state, .ok value' state', ⟨hresult, hstate⟩ => exact ⟨hresult, hstate, hvalue⟩
  | .err error state, _, .inl hescape => exact Or.inl hescape
  | .err error state, _, .inr ⟨state', rfl, hstate⟩ => exact Or.inr ⟨_, rfl, hstate, hvalue⟩
  | .trap state, .trap state', hstate => exact ⟨hstate, hvalue⟩

end CallSimUnder

namespace Sim

variable {R : σ → τ → Prop} {Escape : ε → σ → Prop}

theorem pure (value : α) : Sim R Escape (pure value) (pure value) := fun _ => SimUnder.pure value

theorem bind {m : Comp ε σ α} {n : Comp ε τ α} {next : α → Comp ε σ β} {next' : α → Comp ε τ β}
    (h : Sim R Escape m n) (hnext : ∀ value, Sim R Escape (next value) (next' value)) :
    Sim R Escape (m >>= next) (n >>= next') :=
  fun build => (h build).bind fun value => hnext value build

end Sim

theorem CallSim.onState {R : σ → τ → Prop} {Escape : ε → σ → Prop} {m : Comp ε σ α}
    {n : Comp ε τ α} (h : Sim R Escape m n) :
    CallSim (δ := δ) R Escape (onState m) (onState n) :=
  fun build => CallSimUnder.onState (h build)

end Machine
