import Serialize.Machine.Builds

/-!
# Computations over a state with a latch

A state may hold a terminal failure. `Steady` computations leave it as it is where they return, and
`Stops` ones return from no state that holds one. Of two computations, one `Spares` the other for a
reason: it does what the other does, unless that refuses a live state for the reason. The rules are
instances, so that two computations built alike find their own proof.
-/

namespace Machine

/-- A state that may hold a failure. -/
class Latched (ε : outParam Type) (σ : Type) where
  latched : σ → Option ε

export Latched (latched)

variable {ε σ δ κ α β : Type}

instance [Latched ε σ] : Latched ε (σ × δ) := ⟨fun p => latched p.1⟩

/-! ### How a composition ends -/

theorem bind_eq_ok {m : Comp ε σ α} {next : α → Comp ε σ β} {profile : Profile} {state state' : σ}
    {value : β} : (m >>= next) profile state = .ok value state' ↔
      ∃ part middle, m profile state = .ok part middle ∧ next part profile middle = .ok value state' :=
  Outcome.bind_eq_ok

theorem bind_eq_err {m : Comp ε σ α} {next : α → Comp ε σ β} {profile : Profile} {state state' : σ}
    {error : ε} : (m >>= next) profile state = .err error state' ↔
      m profile state = .err error state' ∨ ∃ part middle, m profile state = .ok part middle
        ∧ next part profile middle = .err error state' := by
  rw [bind_apply]
  cases m profile state with
  | ok part middle => simp
  | err error' middle => simp
  | trap middle => simp

theorem onState_eq_ok {m : Comp ε σ α} {profile : Profile} {p q : σ × δ} {value : α} :
    onState m profile p = .ok value q ↔ m profile p.1 = .ok value q.1 ∧ q.2 = p.2 := by
  rw [onState]
  cases m profile p.1 with
  | ok part middle => simp [Prod.ext_iff]; tauto
  | err error middle => simp
  | trap middle => simp

theorem onState_eq_err {m : Comp ε σ α} {profile : Profile} {p q : σ × δ} {error : ε} :
    onState m profile p = .err error q ↔ m profile p.1 = .err error q.1 ∧ q.2 = p.2 := by
  rw [onState]
  cases m profile p.1 with
  | ok part middle => simp
  | err error' middle => simp [Prod.ext_iff]; tauto
  | trap middle => simp

theorem of_inLocal_eq_ok {initial value : κ} {m : Comp ε (σ × κ) Unit} {profile : Profile}
    {p q : σ × δ} (h : inLocal initial m profile p = .ok value q) :
    m profile (p.1, initial) = .ok () (q.1, value) ∧ q.2 = p.2 := by
  rcases hrun : m profile (p.1, initial) with ⟨⟨⟩, middle, final⟩ | ⟨error, middle, final⟩ |
    ⟨middle, final⟩
  · rw [inLocal_of_ok hrun] at h
    cases h
    exact ⟨rfl, rfl⟩
  · rw [inLocal_of_err hrun] at h
    cases h
  · rw [inLocal_of_trap hrun] at h
    cases h

theorem of_inLocal_eq_err {initial : κ} {m : Comp ε (σ × κ) Unit} {profile : Profile} {p q : σ × δ}
    {error : ε} (h : inLocal initial m profile p = .err error q) :
    ∃ final, m profile (p.1, initial) = .err error (q.1, final) ∧ q.2 = p.2 := by
  rcases hrun : m profile (p.1, initial) with ⟨⟨⟩, middle, final⟩ | ⟨error, middle, final⟩ |
    ⟨middle, final⟩
  · rw [inLocal_of_ok hrun] at h
    cases h
  · rw [inLocal_of_err hrun] at h
    cases h
    exact ⟨final, rfl, rfl⟩
  · rw [inLocal_of_trap hrun] at h
    cases h

theorem inLocal_congr {initial : κ} {m m' : Comp ε (σ × κ) Unit} {profile : Profile} {p : σ × δ}
    (h : m' profile (p.1, initial) = m profile (p.1, initial)) :
    inLocal initial m' profile p = inLocal initial m profile p := by
  rw [inLocal, inLocal, h]

variable [Latched ε σ]

/-- Where the computation returns, the latch is as it was. -/
class Steady (m : Comp ε σ α) : Prop where
  latched_eq : ∀ {profile state value state'}, m profile state = .ok value state' →
    latched state' = latched state

/-- The computation latches whatever it refuses with. -/
class Reports (m : Comp ε σ α) : Prop where
  latched_of_err : ∀ {profile state error state'}, m profile state = .err error state' →
    latched state' = some error

/-- Where the computation returns, the latch is as it was, and where it refuses, the reason is latched
and the caller's value is as it was. -/
class Commits (m : Comp ε (σ × δ) α) : Prop extends Steady m where
  of_err : ∀ {profile p error q}, m profile p = .err error q → latched q = some error ∧ q.2 = p.2

/-- And where it returns, the caller's value is as it was too. -/
class Frames (m : Comp ε (σ × δ) α) : Prop extends Commits m where
  value_eq : ∀ {profile p value q}, m profile p = .ok value q → q.2 = p.2

/-- The computation returns from no failed state. -/
class Stops (m : Comp ε σ α) : Prop where
  live_of_ok : ∀ {profile state value state'}, m profile state = .ok value state' → latched state = none

/-- The computation refuses for the reason only where it is the one latched. -/
class Avoids (reason : ε) (m : Comp ε σ α) : Prop where
  latched_of_err : ∀ {profile state state'}, m profile state = .err reason state' →
    latched state = some reason

/-- On failed states the two do the same. -/
class FailAlike (m m' : Comp ε σ α) : Prop where
  eq_of_latched : ∀ profile state, latched state ≠ none → m' profile state = m profile state

/-- On live states the second does what the first does, unless that refuses for the reason. -/
class Spares (reason : ε) (m m' : Comp ε σ α) : Prop where
  eq_or_err : ∀ profile state, latched state = none →
    m' profile state = m profile state ∨ ∃ state', m profile state = .err reason state'

/-! ### Leaving the latch alone -/

namespace Steady

theorem bind {m : Comp ε σ α} {next : α → Comp ε σ β} (hm : Steady m)
    (hnext : ∀ value, Steady (next value)) : Steady (m >>= next) where
  latched_eq h := by
    obtain ⟨part, middle, hpart, hrest⟩ := bind_eq_ok.mp h
    exact ((hnext part).latched_eq hrest).trans (hm.latched_eq hpart)

instance {m : Comp ε σ α} {next : α → Comp ε σ β} [hm : Steady m] [hnext : ∀ value, Steady (next value)] :
    Steady (m >>= next) := hm.bind hnext

instance (priority := low) (m : Comp ε σ α) [hm : Looks m] : Steady m where
  latched_eq {profile state _ _} h := by
    obtain ⟨value, hvalue⟩ := hm.looks profile state (by rw [h]; trivial)
    rw [h] at hvalue
    cases hvalue
    rfl

instance (error : ε) : Steady (refuse error : Comp ε σ α) := ⟨fun h => by cases h⟩

instance (value : δ) : Steady (store value : Comp ε (σ × δ) Unit) := ⟨fun h => by cases h; rfl⟩

instance (c : Prop) [Decidable c] {m n : Comp ε σ α} [hm : Steady m] [hn : Steady n] :
    Steady (if c then m else n) := by
  split
  · exact hm
  · exact hn

instance (c : Prop) [Decidable c] (m : Comp ε σ Unit) [hm : Steady m] : Steady (onlyIf c m) :=
  (inferInstance : Steady (if c then m else pure ()))

instance (m : Comp ε σ α) [hm : Steady m] : Steady (onState m : Comp ε (σ × δ) α) where
  latched_eq h := hm.latched_eq (onState_eq_ok.mp h).1

instance (initial : κ) (m : Comp ε (σ × κ) Unit) [hm : Steady m] :
    Steady (inLocal initial m : Comp ε (σ × δ) κ) where
  latched_eq h := hm.latched_eq (of_inLocal_eq_ok h).1

end Steady

/-! ### Latching what is refused -/

namespace Reports

instance {m : Comp ε σ α} {next : α → Comp ε σ β} [hm : Reports m] [hnext : ∀ value, Reports (next value)] :
    Reports (m >>= next) where
  latched_of_err h := by
    rcases bind_eq_err.mp h with herr | ⟨part, middle, -, hrest⟩
    · exact hm.latched_of_err herr
    · exact (hnext part).latched_of_err hrest

instance (priority := low) (m : Comp ε σ α) [hm : Infallible m] : Reports m :=
  ⟨fun h => (hm.ne_err _ _ _ _ h).elim⟩

instance (c : Prop) [Decidable c] {m n : Comp ε σ α} [hm : Reports m] [hn : Reports n] :
    Reports (if c then m else n) := by
  split
  · exact hm
  · exact hn

instance (c : Prop) [Decidable c] (m : Comp ε σ Unit) [hm : Reports m] : Reports (onlyIf c m) :=
  (inferInstance : Reports (if c then m else pure ()))

end Reports

/-! ### Leaving the caller's value alone -/

namespace Frames

theorem bind_commits {m : Comp ε (σ × δ) α} {next : α → Comp ε (σ × δ) β} (hm : Frames m)
    (hnext : ∀ value, Commits (next value)) : Commits (m >>= next) where
  latched_eq := (hm.toSteady.bind fun value => (hnext value).toSteady).latched_eq
  of_err h := by
    rcases bind_eq_err.mp h with herr | ⟨part, middle, hpart, hrest⟩
    · exact hm.of_err herr
    · obtain ⟨hlatched, hvalue⟩ := (hnext part).of_err hrest
      exact ⟨hlatched, hvalue.trans (hm.value_eq hpart)⟩

instance {m : Comp ε (σ × δ) α} {next : α → Comp ε (σ × δ) β} [hm : Frames m]
    [hnext : ∀ value, Frames (next value)] : Frames (m >>= next) where
  toCommits := hm.bind_commits fun value => (hnext value).toCommits
  value_eq h := by
    obtain ⟨part, middle, hpart, hrest⟩ := bind_eq_ok.mp h
    exact ((hnext part).value_eq hrest).trans (hm.value_eq hpart)

instance (priority := low) (m : Comp ε (σ × δ) α) [hm : Looks m] : Frames m where
  of_err h := (Infallible.ne_err _ _ _ _ h).elim
  value_eq {profile p _ _} h := by
    obtain ⟨value, hvalue⟩ := hm.looks profile p (by rw [h]; trivial)
    rw [h] at hvalue
    cases hvalue
    rfl

instance (c : Prop) [Decidable c] {m n : Comp ε (σ × δ) α} [hm : Frames m] [hn : Frames n] :
    Frames (if c then m else n) := by
  split
  · exact hm
  · exact hn

instance (c : Prop) [Decidable c] (m : Comp ε (σ × δ) Unit) [hm : Frames m] : Frames (onlyIf c m) :=
  (inferInstance : Frames (if c then m else pure ()))

instance (m : Comp ε σ α) [Steady m] [hm : Reports m] : Frames (onState m : Comp ε (σ × δ) α) where
  of_err h := ⟨hm.latched_of_err (onState_eq_err.mp h).1, (onState_eq_err.mp h).2⟩
  value_eq h := (onState_eq_ok.mp h).2

instance (initial : κ) (m : Comp ε (σ × κ) Unit) [hm : Commits m] :
    Frames (inLocal initial m : Comp ε (σ × δ) κ) where
  of_err h := by
    obtain ⟨final, herr, hvalue⟩ := of_inLocal_eq_err h
    exact ⟨(hm.of_err herr).1, hvalue⟩
  value_eq h := (of_inLocal_eq_ok h).2

end Frames

namespace Commits

instance {m : Comp ε (σ × δ) α} {next : α → Comp ε (σ × δ) β} [hm : Frames m]
    [hnext : ∀ value, Commits (next value)] : Commits (m >>= next) := hm.bind_commits hnext

instance (value : δ) : Commits (store value : Comp ε (σ × δ) Unit) where
  of_err h := by cases h

instance (c : Prop) [Decidable c] {m n : Comp ε (σ × δ) α} [hm : Commits m] [hn : Commits n] :
    Commits (if c then m else n) := by
  split
  · exact hm
  · exact hn

instance (c : Prop) [Decidable c] (m : Comp ε (σ × δ) Unit) [hm : Commits m] :
    Commits (onlyIf c m) :=
  (inferInstance : Commits (if c then m else pure ()))

end Commits

/-! ### Returning from live states only -/

namespace Stops

instance {m : Comp ε σ α} {next : α → Comp ε σ β} [hm : Stops m] : Stops (m >>= next) where
  live_of_ok h := by
    obtain ⟨part, middle, hpart, -⟩ := bind_eq_ok.mp h
    exact hm.live_of_ok hpart

instance {m : Comp ε σ α} {next : α → Comp ε σ β} [hm : Steady m] [hnext : ∀ value, Stops (next value)] :
    Stops (m >>= next) where
  live_of_ok h := by
    obtain ⟨part, middle, hpart, hrest⟩ := bind_eq_ok.mp h
    exact (hm.latched_eq hpart).symm.trans ((hnext part).live_of_ok hrest)

instance (error : ε) : Stops (refuse error : Comp ε σ α) := ⟨fun h => by cases h⟩

instance (c : Prop) [Decidable c] {m n : Comp ε σ α} [hm : Stops m] [hn : Stops n] :
    Stops (if c then m else n) := by
  split
  · exact hm
  · exact hn

instance (m : Comp ε σ α) [hm : Stops m] : Stops (onState m : Comp ε (σ × δ) α) :=
  ⟨fun h => hm.live_of_ok (onState_eq_ok.mp h).1⟩

instance (initial : κ) (m : Comp ε (σ × κ) Unit) [hm : Stops m] :
    Stops (inLocal initial m : Comp ε (σ × δ) κ) :=
  ⟨fun h => hm.live_of_ok (of_inLocal_eq_ok h).1⟩

end Stops

/-! ### Never refusing for a reason of its own -/

namespace Avoids

variable {reason : ε}

theorem bind {m : Comp ε σ α} {next : α → Comp ε σ β} [hsteady : Steady m] (hm : Avoids reason m)
    (hnext : ∀ value, Avoids reason (next value)) : Avoids reason (m >>= next) where
  latched_of_err h := by
    rcases bind_eq_err.mp h with herr | ⟨part, middle, hpart, hrest⟩
    · exact hm.latched_of_err herr
    · exact (hsteady.latched_eq hpart).symm.trans ((hnext part).latched_of_err hrest)

instance {m : Comp ε σ α} {next : α → Comp ε σ β} [Steady m] [hm : Avoids reason m]
    [hnext : ∀ value, Avoids reason (next value)] : Avoids reason (m >>= next) := hm.bind hnext

instance (priority := low) (m : Comp ε σ α) [hm : Infallible m] : Avoids reason m :=
  ⟨fun h => (hm.ne_err _ _ _ _ h).elim⟩

instance (c : Prop) [Decidable c] {m n : Comp ε σ α} [hm : Avoids reason m] [hn : Avoids reason n] :
    Avoids reason (if c then m else n) := by
  split
  · exact hm
  · exact hn

instance (c : Prop) [Decidable c] (m : Comp ε σ Unit) [hm : Avoids reason m] :
    Avoids reason (onlyIf c m) :=
  (inferInstance : Avoids reason (if c then m else pure ()))

instance (m : Comp ε σ α) [hm : Avoids reason m] : Avoids reason (onState m : Comp ε (σ × δ) α) :=
  ⟨fun h => hm.latched_of_err (onState_eq_err.mp h).1⟩

instance (initial : κ) (m : Comp ε (σ × κ) Unit) [hm : Avoids reason m] :
    Avoids reason (inLocal initial m : Comp ε (σ × δ) κ) where
  latched_of_err h := by
    obtain ⟨final, herr, -⟩ := of_inLocal_eq_err h
    exact hm.latched_of_err herr

end Avoids

/-! ### Doing the same on failed states -/

namespace FailAlike

instance (priority := high) (m : Comp ε σ α) : FailAlike m m := ⟨fun _ _ _ => rfl⟩

instance {m m' : Comp ε σ α} {next next' : α → Comp ε σ β} [hm : FailAlike m m'] [hstops : Stops m] :
    FailAlike (m >>= next) (m' >>= next') where
  eq_of_latched profile state h := by
    rw [bind_apply, bind_apply, hm.eq_of_latched profile state h]
    cases hrun : m profile state with
    | ok value middle => exact absurd (hstops.live_of_ok hrun) h
    | err error middle => rfl
    | trap middle => rfl

instance {m m' : Comp ε σ α} {next next' : α → Comp ε σ β} [hm : FailAlike m m'] [hsteady : Steady m]
    [hnext : ∀ value, FailAlike (next value) (next' value)] :
    FailAlike (m >>= next) (m' >>= next') where
  eq_of_latched profile state h := by
    rw [bind_apply, bind_apply, hm.eq_of_latched profile state h]
    cases hrun : m profile state with
    | ok value middle => exact (hnext value).eq_of_latched profile middle ((hsteady.latched_eq hrun).trans_ne h)
    | err error middle => rfl
    | trap middle => rfl

instance (c : Prop) [Decidable c] {m m' n n' : Comp ε σ α} [hm : FailAlike m m']
    [hn : FailAlike n n'] : FailAlike (if c then m else n) (if c then m' else n') := by
  split
  · exact hm
  · exact hn

instance (m m' : Comp ε σ α) [hm : FailAlike m m'] :
    FailAlike (onState m : Comp ε (σ × δ) α) (onState m') where
  eq_of_latched profile p h := by
    rw [onState, onState, hm.eq_of_latched profile p.1 h]

instance (initial : κ) (m m' : Comp ε (σ × κ) Unit) [hm : FailAlike m m'] :
    FailAlike (inLocal initial m : Comp ε (σ × δ) κ) (inLocal initial m') :=
  ⟨fun profile p h => inLocal_congr (hm.eq_of_latched profile (p.1, initial) h)⟩

end FailAlike

/-! ### Sparing one reason -/

namespace Spares

variable {reason : ε}

theorem of_eq {m m' : Comp ε σ α} (h : m' = m) : Spares reason m m' :=
  ⟨fun _ _ _ => .inl (by rw [h])⟩

instance (priority := high) (m : Comp ε σ α) : Spares reason m m := of_eq rfl

theorem bind {m m' : Comp ε σ α} {next next' : α → Comp ε σ β} [hsteady : Steady m]
    (hm : Spares reason m m') (hnext : ∀ value, Spares reason (next value) (next' value)) :
    Spares reason (m >>= next) (m' >>= next') where
  eq_or_err profile state h := by
    rw [bind_apply, bind_apply]
    rcases hm.eq_or_err profile state h with heq | ⟨state', herr⟩
    · rw [heq]
      cases hrun : m profile state with
      | ok value middle => exact (hnext value).eq_or_err profile middle ((hsteady.latched_eq hrun).trans h)
      | err error middle => exact .inl rfl
      | trap middle => exact .inl rfl
    · rw [herr]
      exact .inr ⟨state', rfl⟩

instance {m m' : Comp ε σ α} {next next' : α → Comp ε σ β} [Steady m] [hm : Spares reason m m']
    [hnext : ∀ value, Spares reason (next value) (next' value)] :
    Spares reason (m >>= next) (m' >>= next') := hm.bind hnext

instance (c : Prop) [Decidable c] {m m' n n' : Comp ε σ α} [hm : Spares reason m m']
    [hn : Spares reason n n'] : Spares reason (if c then m else n) (if c then m' else n') := by
  split
  · exact hm
  · exact hn

instance (c : Prop) [Decidable c] {m m' : Comp ε σ Unit} [hm : Spares reason m m'] :
    Spares reason (onlyIf c m) (onlyIf c m') :=
  (inferInstance : Spares reason (if c then m else pure ()) (if c then m' else pure ()))

instance (m m' : Comp ε σ α) [hm : Spares reason m m'] :
    Spares reason (onState m : Comp ε (σ × δ) α) (onState m') where
  eq_or_err profile p h := by
    rw [onState, onState]
    rcases hm.eq_or_err profile p.1 h with heq | ⟨state', herr⟩
    · exact .inl (by rw [heq])
    · exact .inr ⟨(state', p.2), by rw [herr, Outcome.mapState_err]⟩

instance (initial : κ) (m m' : Comp ε (σ × κ) Unit) [hm : Spares reason m m'] :
    Spares reason (inLocal initial m : Comp ε (σ × δ) κ) (inLocal initial m') where
  eq_or_err profile p h := by
    rcases hm.eq_or_err profile (p.1, initial) h with heq | ⟨⟨state', final⟩, herr⟩
    · exact .inl (inLocal_congr heq)
    · exact .inr ⟨(state', p.2), inLocal_of_err herr p.2⟩

end Spares

/-! ### Going astray

The last two relations are about computations that do something else where they return. -/

/-- The second does what the first does, and where that returns it leaves `f` of the value. -/
class Rewrites (f : δ → δ) (m m' : Comp ε (σ × δ) Unit) : Prop where
  eq_bind : ∀ profile p, m' profile p = (m profile p).bind fun _ q => .ok () (q.1, f q.2)

/-- On live states the second does what the first does, unless that returns or refuses for the
reason. -/
class Strays (reason : ε) (m m' : Comp ε σ α) : Prop where
  eq_or_ends : ∀ profile state, latched state = none → m' profile state = m profile state
    ∨ (∃ value state', m profile state = .ok value state') ∨ ∃ state', m profile state = .err reason state'

namespace Rewrites

variable {f : δ → δ}

omit [Latched ε σ] in
theorem of_ne_ok {m : Comp ε (σ × δ) Unit} (h : ∀ profile p q, m profile p ≠ .ok () q) :
    Rewrites f m m where
  eq_bind profile p := by
    rcases hrun : m profile p with ⟨⟨⟩, q⟩ | ⟨error, q⟩ | q
    · exact absurd hrun (h profile p q)
    · rfl
    · rfl

omit [Latched ε σ] in
instance {m : Comp ε (σ × δ) α} {next next' : α → Comp ε (σ × δ) Unit}
    [hnext : ∀ value, Rewrites f (next value) (next' value)] :
    Rewrites f (m >>= next) (m >>= next') where
  eq_bind profile p := by
    rw [bind_apply, bind_apply]
    cases m profile p with
    | ok value q => exact (hnext value).eq_bind profile q
    | err error q => rfl
    | trap q => rfl

omit [Latched ε σ] in
instance (c : Prop) [Decidable c] {m m' n n' : Comp ε (σ × δ) Unit} [hm : Rewrites f m m']
    [hn : Rewrites f n n'] : Rewrites f (if c then m else n) (if c then m' else n') := by
  split
  · exact hm
  · exact hn

omit [Latched ε σ] in
instance (value : δ) : Rewrites f (store value : Comp ε (σ × δ) Unit) (store (f value)) :=
  ⟨fun _ _ => rfl⟩

end Rewrites

namespace Strays

variable {reason : ε}

instance (priority := high) (m : Comp ε σ α) : Strays reason m m := ⟨fun _ _ _ => .inl rfl⟩

instance {m : Comp ε σ α} {next next' : α → Comp ε σ β} [hsteady : Steady m]
    [hnext : ∀ value, Strays reason (next value) (next' value)] :
    Strays reason (m >>= next) (m >>= next') where
  eq_or_ends profile state h := by
    rw [bind_apply, bind_apply]
    cases hrun : m profile state with
    | ok value middle => exact (hnext value).eq_or_ends profile middle ((hsteady.latched_eq hrun).trans h)
    | err error middle => exact .inl rfl
    | trap middle => exact .inl rfl

instance (c : Prop) [Decidable c] {m m' n n' : Comp ε σ α} [hm : Strays reason m m']
    [hn : Strays reason n n'] : Strays reason (if c then m else n) (if c then m' else n') := by
  split
  · exact hm
  · exact hn

end Strays

end Machine
