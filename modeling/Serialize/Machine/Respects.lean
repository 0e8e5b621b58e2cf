import Serialize.Machine.Simulation

/-!
# Computations that cannot tell related states apart

A computation respects a relation on its states when related states give the same value, the same
error or a panic on both, and leave related states. What a relation hides from the primitive steps it
hides from everything built of them. The rules below are instances, so that the computation itself
finds its own proof.
-/

namespace Machine

variable {ε σ δ κ α β : Type}

/-- Under this profile the computation does the same on related states. -/
class Respects (profile : Profile) (R : σ → σ → Prop) (m : Comp ε σ α) : Prop where
  sim : SimUnder profile R NoEscape m m

namespace Respects

variable {profile : Profile} {R : σ → σ → Prop}

/-- A computation that ends as it does whatever the state, which it leaves alone. -/
theorem of_ends {m : Comp ε σ α}
    (h : (∃ value, ∀ state, m profile state = .ok value state)
      ∨ (∃ error, ∀ state, m profile state = .err error state) ∨ ∀ state, m profile state = .trap state) :
    Respects profile R m where
  sim state state' hstate := by
    rcases h with ⟨value, h⟩ | ⟨error, h⟩ | h
    · rw [h, h]
      exact ⟨rfl, hstate⟩
    · rw [h, h]
      exact .inr ⟨state', rfl, hstate⟩
    · rw [h, h]
      exact hstate

instance (value : α) : Respects profile R (pure value : Comp ε σ α) := ⟨SimUnder.pure value⟩

instance (error : ε) : Respects profile R (refuse error : Comp ε σ α) :=
  of_ends (.inr (.inl ⟨error, fun _ => rfl⟩))

instance (c : Prop) [Decidable c] : Respects profile R (require c : Comp ε σ Unit) := by
  by_cases hc : c
  · exact of_ends (.inl ⟨(), require_of hc profile⟩)
  · exact of_ends (.inr (.inr (require_of_not hc profile)))

instance (c : Prop) [Decidable c] : Respects profile R (noOverflow c : Comp ε σ Unit) := by
  by_cases hc : c
  · exact of_ends (.inl ⟨(), noOverflow_of hc profile⟩)
  · cases profile with
    | trapping build => exact of_ends (.inr (.inr (noOverflow_of_not hc build)))
    | wrapping => exact of_ends (.inl ⟨(), noOverflow_wrapping c⟩)

theorem bind {m : Comp ε σ α} {next : α → Comp ε σ β} (hm : Respects profile R m)
    (hnext : ∀ value, Respects profile R (next value)) : Respects profile R (m >>= next) :=
  ⟨hm.sim.bind fun value => (hnext value).sim⟩

instance {m : Comp ε σ α} {next : α → Comp ε σ β} [hm : Respects profile R m]
    [hnext : ∀ value, Respects profile R (next value)] : Respects profile R (m >>= next) :=
  hm.bind hnext

instance (c : Prop) [Decidable c] {m n : Comp ε σ α} [hm : Respects profile R m]
    [hn : Respects profile R n] : Respects profile R (if c then m else n) := by
  split
  · exact hm
  · exact hn

instance (c : Prop) [Decidable c] (m : Comp ε σ Unit) [hm : Respects profile R m] :
    Respects profile R (onlyIf c m) :=
  (inferInstance : Respects profile R (if c then m else pure ()))

instance (m : Comp ε σ Unit) [hm : Respects profile R m] : Respects profile R (inChecked m) := by
  cases profile with
  | trapping build =>
      cases build with
      | checked => exact ⟨hm.sim⟩
      | unchecked => exact of_ends (.inl ⟨(), fun _ => rfl⟩)
  | wrapping => exact of_ends (.inl ⟨(), fun _ => rfl⟩)

instance (c : Prop) [Decidable c] : Respects profile R (debugAssert c : Comp ε σ Unit) :=
  (inferInstance : Respects profile R (inChecked (require c)))

instance (w k : Nat) : Respects profile R (shiftAmount w k : Comp ε σ Nat) := by
  unfold shiftAmount
  infer_instance

instance (w k : Nat) : Respects profile R (lowMask w k : Comp ε σ (BitVec w)) := by
  unfold lowMask
  infer_instance

instance (w a b : Nat) : Respects profile R (checkedMul w a b : Comp ε σ Nat) := by
  unfold checkedMul
  infer_instance

instance (w a b : Nat) : Respects profile R (checkedSub w a b : Comp ε σ Nat) := by
  unfold checkedSub
  infer_instance

instance {w : Nat} (a b : BitVec w) :
    Respects profile R (checkedSubBits a b : Comp ε σ (BitVec w)) := by
  unfold checkedSubBits
  infer_instance

instance (a b : Int) : Respects profile R (checkedAddI64 a b : Comp ε σ Int) := by
  unfold checkedAddI64
  infer_instance

instance (a b : Int) : Respects profile R (checkedSubI64 a b : Comp ε σ Int) := by
  unfold checkedSubI64
  infer_instance

/-! ### A caller's value -/

instance : Respects profile (Carrying (δ := δ) R) (load : Comp ε (σ × δ) δ) :=
  ⟨fun _ _ h => ⟨h.2, h⟩⟩

instance (value : δ) : Respects profile (Carrying R) (store value : Comp ε (σ × δ) Unit) :=
  ⟨fun _ _ h => ⟨rfl, h.1, rfl⟩⟩

instance (m : Comp ε σ α) [hm : Respects profile R m] :
    Respects profile (Carrying (δ := δ) R) (onState m) :=
  ⟨CallSimUnder.onState hm.sim⟩

instance (initial : κ) (m : Comp ε (σ × κ) Unit) [hm : Respects profile (Carrying R) m] :
    Respects profile (Carrying (δ := δ) R) (inLocal initial m) where
  sim := by
    rintro ⟨state, value⟩ ⟨state', _⟩ ⟨hstate, rfl⟩
    have hmatch := hm.sim (state, initial) (state', initial) ⟨hstate, rfl⟩
    rw [inLocal, inLocal]
    dsimp only
    match hleft : m profile (state, initial), hright : m profile (state', initial), hmatch with
    | .ok () p, .ok () q, ⟨_, hstate', hpart⟩ => exact ⟨hpart, hstate', rfl⟩
    | .err error p, _, .inr ⟨q, rfl, hstate', _⟩ => exact .inr ⟨_, rfl, hstate', rfl⟩
    | .trap p, .trap q, ⟨hstate', _⟩ => exact ⟨hstate', rfl⟩

instance (m : Comp ε σ α) [hm : Respects profile R m] : Respects profile R (attempt m) :=
  ⟨hm.sim.attempt⟩

end Respects

end Machine
