import Serialize.Machine.Computation

/-!
# What the profiles have in common

A checked build differs from an unchecked one in its debug assertions, and an unchecked build from
the default release profile in its overflow checks. A computation whose assertions only look at the
state does under a profile with fewer checks whatever it does under one that came back from it. The
rules below are instances, so that the computation itself, built from primitive steps, finds its own
proof.
-/

namespace Machine

variable {ε σ τ δ κ α β : Type}

/-- The computation comes back with the state untouched, or it panics. -/
class Looks (m : Comp ε σ α) : Prop where
  looks : ∀ profile state, (m profile state).Returned → ∃ value, m profile state = .ok value state

/-- `lax` makes no check that `strict` does not make. -/
def Profile.Relaxes : Profile → Profile → Prop
  | .wrapping, _ => True
  | .unchecked, .trapping _ => True
  | .checked, .checked => True
  | _, _ => False

/-- A checked build makes every check. -/
theorem Profile.relaxes_checked (profile : Profile) : profile.Relaxes .checked := by
  cases profile with
  | trapping build => cases build <;> trivial
  | wrapping => trivial

/-- Where a profile comes back, one with fewer checks does the same. -/
class ProfilesAgree (m : Comp ε σ α) : Prop where
  agree : ∀ {lax strict : Profile}, lax.Relaxes strict →
    ∀ state, (m strict state).Returned → m lax state = m strict state

/-- The computation returns or panics. -/
class Infallible (m : Comp ε σ α) : Prop where
  ne_err : ∀ profile state error state', m profile state ≠ .err error state'

/-! ### Looking -/

namespace Looks

instance (value : α) : Looks (pure value : Comp ε σ α) := ⟨fun _ _ _ => ⟨value, rfl⟩⟩

instance : Looks (getState : Comp ε σ σ) := ⟨fun _ state _ => ⟨state, rfl⟩⟩

instance : Looks (load : Comp ε (σ × δ) δ) := ⟨fun _ p _ => ⟨p.2, rfl⟩⟩

instance (c : Prop) [Decidable c] : Looks (require c : Comp ε σ Unit) where
  looks profile state h := by
    rw [require_apply] at h ⊢
    split at h
    next hc => exact ⟨(), if_pos hc⟩
    next => exact h.elim

instance {m : Comp ε σ α} {next : α → Comp ε σ β} [hm : Looks m] [hnext : ∀ value, Looks (next value)] :
    Looks (m >>= next) where
  looks profile state h := by
    rw [bind_apply] at h ⊢
    have hreturned : (m profile state).Returned := by
      by_contra htrap
      exact Outcome.not_returned_bind htrap _ h
    obtain ⟨value, hvalue⟩ := hm.looks profile state hreturned
    rw [hvalue, Outcome.bind_ok] at h ⊢
    exact (hnext value).looks profile state h

instance (c : Prop) [Decidable c] {m n : Comp ε σ α} [hm : Looks m] [hn : Looks n] :
    Looks (if c then m else n) := by
  split
  · exact hm
  · exact hn

instance (c : Prop) [Decidable c] (m : Comp ε σ Unit) [hm : Looks m] : Looks (onlyIf c m) :=
  (inferInstance : Looks (if c then m else pure ()))

instance (m : Comp ε σ Unit) [hm : Looks m] : Looks (inChecked m) where
  looks profile state h := by
    cases profile with
    | trapping build =>
        cases build with
        | checked => exact hm.looks .checked state h
        | unchecked => exact ⟨(), rfl⟩
    | wrapping => exact ⟨(), rfl⟩

instance (c : Prop) [Decidable c] : Looks (noOverflow c : Comp ε σ Unit) where
  looks profile state h := by
    cases profile with
    | trapping build => exact (inferInstance : Looks (require c)).looks build state h
    | wrapping => exact ⟨(), rfl⟩

instance (c : Prop) [Decidable c] : Looks (debugAssert c : Comp ε σ Unit) :=
  (inferInstance : Looks (inChecked (require c)))

instance (w a b : Nat) : Looks (checkedAdd w a b : Comp ε σ Nat) := by
  unfold checkedAdd
  infer_instance

instance (w a b : Nat) : Looks (checkedMul w a b : Comp ε σ Nat) := by
  unfold checkedMul
  infer_instance

instance (w a b : Nat) : Looks (checkedSub w a b : Comp ε σ Nat) := by
  unfold checkedSub
  infer_instance

instance (w k : Nat) : Looks (shiftAmount w k : Comp ε σ Nat) := by
  unfold shiftAmount
  infer_instance

instance (w k : Nat) : Looks (lowMask w k : Comp ε σ (BitVec w)) := by
  unfold lowMask
  infer_instance

instance {w : Nat} (a b : BitVec w) : Looks (checkedSubBits a b : Comp ε σ (BitVec w)) := by
  unfold checkedSubBits
  infer_instance

instance (a b : Int) : Looks (checkedAddI64 a b : Comp ε σ Int) := by
  unfold checkedAddI64
  infer_instance

instance (a b : Int) : Looks (checkedSubI64 a b : Comp ε σ Int) := by
  unfold checkedSubI64
  infer_instance

theorem of_focus {get : σ → τ} {set : σ → τ → σ} (hset : ∀ state, set state (get state) = state)
    (m : Comp ε τ α) [hm : Looks m] : Looks (focus get set m) where
  looks profile state h := by
    rw [focus_apply] at h ⊢
    have hreturned : (m profile (get state)).Returned := by
      by_contra htrap
      exact Outcome.not_returned_mapState htrap _ h
    obtain ⟨value, hvalue⟩ := hm.looks profile (get state) hreturned
    exact ⟨value, by rw [hvalue, Outcome.mapState_ok, hset]⟩

end Looks

/-! ### Agreeing -/

namespace ProfilesAgree

/-- Where a checked build comes back, every profile does the same. -/
theorem eq_checked {m : Comp ε σ α} (hm : ProfilesAgree m) {state : σ}
    (h : (m .checked state).Returned) (profile : Profile) : m profile state = m .checked state :=
  hm.agree (Profile.relaxes_checked profile) state h

/-- What a profile gets, one with fewer checks gets. -/
theorem of_ok {m : Comp ε σ α} (hm : ProfilesAgree m) {lax strict : Profile} (hlax : lax.Relaxes strict)
    {state state' : σ} {value : α} (h : m strict state = .ok value state') :
    m lax state = .ok value state' := by
  rw [hm.agree hlax state (by rw [h]; trivial), h]

/-- What a checked build gets, every profile gets. -/
theorem of_checked {m : Comp ε σ α} (hm : ProfilesAgree m) {state state' : σ} {value : α}
    (h : m .checked state = .ok value state') (profile : Profile) :
    m profile state = .ok value state' :=
  hm.of_ok (Profile.relaxes_checked profile) h

/-- A computation that does not ask which profile it is under. -/
theorem of_same {m : Comp ε σ α} (h : ∀ lax strict state, m lax state = m strict state) :
    ProfilesAgree m := ⟨fun {lax strict} _ state _ => h lax strict state⟩

instance (value : α) : ProfilesAgree (pure value : Comp ε σ α) := of_same fun _ _ _ => rfl

instance (error : ε) : ProfilesAgree (refuse error : Comp ε σ α) := of_same fun _ _ _ => rfl

instance : ProfilesAgree (getState : Comp ε σ σ) := of_same fun _ _ _ => rfl

instance (state : σ) : ProfilesAgree (setState state : Comp ε σ Unit) := of_same fun _ _ _ => rfl

instance (f : σ → σ) : ProfilesAgree (modifyState f : Comp ε σ Unit) := of_same fun _ _ _ => rfl

instance (c : Prop) [Decidable c] : ProfilesAgree (require c : Comp ε σ Unit) := of_same fun _ _ _ => rfl

instance : ProfilesAgree (load : Comp ε (σ × δ) δ) := of_same fun _ _ _ => rfl

instance (value : δ) : ProfilesAgree (store value : Comp ε (σ × δ) Unit) := of_same fun _ _ _ => rfl

theorem bind {m : Comp ε σ α} {next : α → Comp ε σ β} (hm : ProfilesAgree m)
    (hnext : ∀ value, ProfilesAgree (next value)) : ProfilesAgree (m >>= next) where
  agree {lax strict} hlax state h := by
    rw [bind_apply] at h ⊢
    have hreturned : (m strict state).Returned := by
      by_contra htrap
      exact Outcome.not_returned_bind htrap _ h
    rw [bind_apply, hm.agree hlax state hreturned]
    cases hrun : m strict state with
    | ok value state' =>
        rw [hrun] at h
        exact (hnext value).agree hlax state' h
    | err error state' => rfl
    | trap state' => rfl

instance {m : Comp ε σ α} {next : α → Comp ε σ β} [hm : ProfilesAgree m]
    [hnext : ∀ value, ProfilesAgree (next value)] : ProfilesAgree (m >>= next) := hm.bind hnext

instance (c : Prop) [Decidable c] {m n : Comp ε σ α} [hm : ProfilesAgree m] [hn : ProfilesAgree n] :
    ProfilesAgree (if c then m else n) := by
  split
  · exact hm
  · exact hn

instance (c : Prop) [Decidable c] (m : Comp ε σ Unit) [hm : ProfilesAgree m] :
    ProfilesAgree (onlyIf c m) :=
  (inferInstance : ProfilesAgree (if c then m else pure ()))

/-- **An assertion that only looks makes no difference** where it holds. -/
instance (m : Comp ε σ Unit) [hm : Looks m] : ProfilesAgree (inChecked m) where
  agree {lax strict} hlax state h := by
    match lax, strict with
    | .checked, .checked => rfl
    | .unchecked, .unchecked | .wrapping, .unchecked | .wrapping, .wrapping => rfl
    | .unchecked, .checked | .wrapping, .checked =>
        obtain ⟨⟨⟩, hvalue⟩ := hm.looks .checked state h
        exact hvalue.symm

/-- An overflow check makes no difference where it holds. -/
instance (c : Prop) [Decidable c] : ProfilesAgree (noOverflow c : Comp ε σ Unit) where
  agree {lax strict} hlax state h := by
    cases strict with
    | trapping build =>
        by_cases hc : c
        · rw [noOverflow_of hc, noOverflow_of hc]
        · rw [noOverflow_of_not hc] at h
          exact h.elim
    | wrapping =>
        cases lax with
        | trapping build => cases build <;> exact hlax.elim
        | wrapping => rfl

instance (c : Prop) [Decidable c] : ProfilesAgree (debugAssert c : Comp ε σ Unit) :=
  (inferInstance : ProfilesAgree (inChecked (require c)))

instance (w a b : Nat) : ProfilesAgree (checkedAdd w a b : Comp ε σ Nat) := by
  unfold checkedAdd
  infer_instance

instance (w a b : Nat) : ProfilesAgree (checkedMul w a b : Comp ε σ Nat) := by
  unfold checkedMul
  infer_instance

instance (w a b : Nat) : ProfilesAgree (checkedSub w a b : Comp ε σ Nat) := by
  unfold checkedSub
  infer_instance

instance (w k : Nat) : ProfilesAgree (shiftAmount w k : Comp ε σ Nat) := by
  unfold shiftAmount
  infer_instance

instance (w k : Nat) : ProfilesAgree (lowMask w k : Comp ε σ (BitVec w)) := by
  unfold lowMask
  infer_instance

instance {w : Nat} (a b : BitVec w) : ProfilesAgree (checkedSubBits a b : Comp ε σ (BitVec w)) := by
  unfold checkedSubBits
  infer_instance

instance (a b : Int) : ProfilesAgree (checkedAddI64 a b : Comp ε σ Int) := by
  unfold checkedAddI64
  infer_instance

instance (a b : Int) : ProfilesAgree (checkedSubI64 a b : Comp ε σ Int) := by
  unfold checkedSubI64
  infer_instance

instance (get : σ → τ) (set : σ → τ → σ) (m : Comp ε τ α) [hm : ProfilesAgree m] :
    ProfilesAgree (focus get set m) where
  agree {lax strict} hlax state h := by
    rw [focus_apply] at h
    rw [focus_apply, focus_apply, hm.agree hlax (get state)]
    by_contra htrap
    exact Outcome.not_returned_mapState htrap _ h

instance (m : Comp ε σ α) [hm : ProfilesAgree m] :
    ProfilesAgree (onState m : Comp ε (σ × δ) α) where
  agree {lax strict} hlax p h := by
    rw [onState, onState, hm.agree hlax p.1]
    by_contra htrap
    exact Outcome.not_returned_mapState htrap _ h

instance (initial : κ) (m : Comp ε (σ × κ) Unit) [hm : ProfilesAgree m] :
    ProfilesAgree (inLocal initial m : Comp ε (σ × δ) κ) where
  agree {lax strict} hlax p h := by
    rw [inLocal, inLocal, hm.agree hlax (p.1, initial)]
    by_contra htrap
    exact inLocal_not_returned htrap h

instance (m : Comp ε σ α) [hm : ProfilesAgree m] : ProfilesAgree (attempt m) where
  agree {lax strict} hlax state h := by
    rw [attempt, attempt, hm.agree hlax state]
    cases hrun : m strict state with
    | ok value state' => trivial
    | err error state' => trivial
    | trap state' =>
        rw [attempt, hrun] at h
        exact h

end ProfilesAgree

/-! ### Never refusing -/

namespace Infallible

instance (priority := low) (m : Comp ε σ α) [hm : Looks m] : Infallible m where
  ne_err profile state error state' h := by
    obtain ⟨value, hvalue⟩ := hm.looks profile state (by rw [h]; trivial)
    rw [h] at hvalue
    cases hvalue

instance (state : σ) : Infallible (setState state : Comp ε σ Unit) := ⟨fun _ _ _ _ => nofun⟩

instance (f : σ → σ) : Infallible (modifyState f : Comp ε σ Unit) := ⟨fun _ _ _ _ => nofun⟩

instance (value : δ) : Infallible (store value : Comp ε (σ × δ) Unit) := ⟨fun _ _ _ _ => nofun⟩

theorem bind {m : Comp ε σ α} {next : α → Comp ε σ β} (hm : Infallible m)
    (hnext : ∀ value, Infallible (next value)) : Infallible (m >>= next) where
  ne_err profile state error state' h := by
    rw [bind_apply] at h
    cases hrun : m profile state with
    | ok value state'' =>
        rw [hrun] at h
        exact (hnext value).ne_err profile state'' error state' h
    | err error' state'' => exact hm.ne_err profile state error' state'' hrun
    | trap state'' =>
        rw [hrun] at h
        cases h

instance {m : Comp ε σ α} {next : α → Comp ε σ β} [hm : Infallible m]
    [hnext : ∀ value, Infallible (next value)] : Infallible (m >>= next) := hm.bind hnext

instance (c : Prop) [Decidable c] {m n : Comp ε σ α} [hm : Infallible m] [hn : Infallible n] :
    Infallible (if c then m else n) := by
  split
  · exact hm
  · exact hn

instance (c : Prop) [Decidable c] (m : Comp ε σ Unit) [hm : Infallible m] :
    Infallible (onlyIf c m) :=
  (inferInstance : Infallible (if c then m else pure ()))

instance (m : Comp ε σ Unit) [hm : Infallible m] : Infallible (inChecked m) where
  ne_err profile state error state' h := by
    cases profile with
    | trapping build =>
        cases build with
        | checked => exact hm.ne_err .checked state error state' h
        | unchecked => cases h
    | wrapping => cases h

instance (get : σ → τ) (set : σ → τ → σ) (m : Comp ε τ α) [hm : Infallible m] :
    Infallible (focus get set m) where
  ne_err profile state error state' h := by
    rw [focus_apply] at h
    cases hrun : m profile (get state) with
    | ok value state'' =>
        rw [hrun] at h
        cases h
    | err error' state'' => exact hm.ne_err profile (get state) error' state'' hrun
    | trap state'' =>
        rw [hrun] at h
        cases h

instance (m : Comp ε σ α) [hm : Infallible m] : Infallible (onState m : Comp ε (σ × δ) α) where
  ne_err profile p error q h := by
    rw [onState] at h
    cases hrun : m profile p.1 with
    | ok value state =>
        rw [hrun] at h
        cases h
    | err error' state => exact hm.ne_err profile p.1 error' state hrun
    | trap state =>
        rw [hrun] at h
        cases h

instance (initial : κ) (m : Comp ε (σ × κ) Unit) [hm : Infallible m] :
    Infallible (inLocal initial m : Comp ε (σ × δ) κ) where
  ne_err profile p error q h := by
    rcases hrun : m profile (p.1, initial) with ⟨⟨⟩, state, value⟩ | ⟨error', state, value⟩ |
      ⟨state, value⟩
    · rw [inLocal_of_ok hrun] at h
      cases h
    · exact hm.ne_err profile (p.1, initial) error' (state, value) hrun
    · rw [inLocal_of_trap hrun] at h
      cases h

end Infallible

end Machine
