import Serialize.Reader.Origins

/-!
# The events of a run

The log of a run only grows. What every call of a run upholds when it comes back, every event of the
log upholds.
-/

namespace Serialize

open Machine
open Binary32 (Arithmetic)
open ReadStream

variable {R α β δ ω : Type}

/-- The events so far stay in the log. -/
def Grows (m : Action (R × Log ω) α) : Prop :=
  ∀ profile p, ∀ event ∈ p.2.events, event ∈ (m profile p).state.2.events

/-- Where every event so far satisfies `P`, every event of the log then does. -/
def Upholds (P : Event ω → Prop) (m : Action (R × Log ω) α) : Prop :=
  ∀ profile p, (∀ event ∈ p.2.events, P event) → ∀ event ∈ (m profile p).state.2.events, P event

namespace Client

/-! ### What a call does to the log -/

theorem handing_quietly_log (prior : δ) (call : Action (R × δ) Unit) (profile : Profile)
    (p : R × Log ω) : (handing prior (quietly call) profile p).state.2 = p.2 := by
  obtain ⟨reader, log⟩ := p
  rw [handing_quietly]
  rcases call profile (reader, prior) with ⟨⟨⟩, q⟩ | ⟨error, q⟩ | q
  · rfl
  · rfl
  · rfl

theorem handing_method_log (body : Action (R × Log ω) (Result × ω)) (prior : ω) (profile : Profile)
    (p : R × Log ω) :
    (handing (prior, false) (method body) profile p).state.2 = (body profile p).state.2 := by
  rw [handing, method]
  rcases body profile p with ⟨⟨error | ⟨⟩, memory⟩, q⟩ | ⟨error, q⟩ | q
  · rfl
  · rfl
  · rfl
  · rfl

theorem handing_object_log_of_live {stream : ReadStream} (hlive : stream.failed = none)
    (body : Action (ReadStream × Log ω) (Result × ω)) (prior : ω) (profile : Profile) (log : Log ω) :
    (handing (prior, false) (serializeObject (method body)) profile (stream, log)).state.2
      = (body profile (stream, log)).state.2 := by
  rw [handing_object hlive]
  rcases body profile (stream, log) with ⟨⟨error | ⟨⟩, memory⟩, q⟩ | ⟨error, q⟩ | q
  · rfl
  · rfl
  · rfl
  · rfl

theorem handing_object_log (body : Action (ReadStream × Log ω) (Result × ω)) (prior : ω)
    (profile : Profile) (p : ReadStream × Log ω) :
    (handing (prior, false) (serializeObject (method body)) profile p).state.2 = p.2
      ∨ (handing (prior, false) (serializeObject (method body)) profile p).state.2
        = (body profile p).state.2 := by
  obtain ⟨stream, log⟩ := p
  cases hfailed : stream.failed with
  | some reason =>
      left
      rw [handing_object_failed hfailed]
      rfl
  | none => exact .inr (handing_object_log_of_live hfailed body prior profile log)

theorem logged_apply [Reader R] (describe : δ → Call ω) (call : Action (R × Log ω) (Result × δ))
    (profile : Profile) (p : R × Log ω) : logged describe call profile p
      = (call profile (p.1, p.2.notice (Reader.observation p.1))).bind fun answer q =>
        .ok answer (q.1, (q.2.notice (Reader.observation q.1)).record
          { call := describe answer.2, result := answer.1, before := Reader.observation p.1,
            after := Reader.observation q.1 }) := by
  rw [logged, bind_apply, look, Outcome.bind_ok, bind_apply]
  rfl

end Client

/-! ### Growing -/

namespace Grows

theorem of_log {m : Action (R × Log ω) α} (h : ∀ profile p, (m profile p).state.2 = p.2) : Grows m := by
  intro profile p event hevent
  rw [h]
  exact hevent

theorem bind {m : Action (R × Log ω) α} {next : α → Action (R × Log ω) β} (h : Grows m)
    (hnext : ∀ value, Grows (next value)) : Grows (m >>= next) := by
  intro profile p event hevent
  have hmem := h profile p event hevent
  rw [bind_apply]
  cases hm : m profile p with
  | ok value q =>
      rw [hm] at hmem
      exact hnext value profile q event hmem
  | err error q =>
      rw [hm] at hmem
      exact hmem
  | trap q =>
      rw [hm] at hmem
      exact hmem

theorem logged [Reader R] {describe : δ → Call ω} {call : Action (R × Log ω) (Result × δ)}
    (h : Grows call) : Grows (Client.logged describe call) := by
  intro profile p event hevent
  have hmem := h profile (p.1, p.2.notice (Reader.observation p.1)) event hevent
  rw [Client.logged_apply]
  cases hrun : call profile (p.1, p.2.notice (Reader.observation p.1)) with
  | ok answer q =>
      rw [hrun] at hmem
      exact List.mem_append_left _ hmem
  | err error q =>
      rw [hrun] at hmem
      exact hmem
  | trap q =>
      rw [hrun] at hmem
      exact hmem

theorem object {body : Action (ReadStream × Log ω) (Result × ω)} (h : Grows body) (prior : ω) :
    Grows (Client.handing (prior, false) (serializeObject (Client.method body))) := by
  intro profile p event hevent
  rcases Client.handing_object_log body prior profile p with hlog | hlog
  · rw [hlog]
    exact hevent
  · rw [hlog]
    exact h profile p event hevent

end Grows

/-- **The log of a run only grows.** -/
theorem Client.run_grows [Arithmetic] (client : Client ω) :
    Grows (client.run : Action (ReadStream × Log ω) (Result × ω)) := by
  have hlook : Grows (ω := ω) (R := ReadStream) look := fun _ _ _ hevent => hevent
  induction client with
  | done result memory => exact fun _ _ _ hevent => hevent
  | observe next ih => exact hlook.bind ih
  | call operation prior next ih =>
      exact (Grows.logged (.of_log (handing_quietly_log _ _))).bind fun answer => ih answer.1 answer.2
  | finish next ih =>
      exact (Grows.logged (.of_log (handing_quietly_log _ _))).bind fun answer => ih answer.1
  | fail error next ih =>
      exact (Grows.logged (.of_log (handing_quietly_log _ _))).bind fun answer => ih answer.1
  | reject next ih =>
      exact (Grows.logged (.of_log (handing_quietly_log _ _))).bind fun answer => ih answer.1
  | object prior body next ihbody ih =>
      exact (Grows.logged (ihbody.object prior)).bind fun answer => ih answer.1 answer.2.1

/-! ### Upholding -/

namespace Upholds

variable {P : Event ω → Prop}

theorem of_log {m : Action (R × Log ω) α} (h : ∀ profile p, (m profile p).state.2 = p.2) :
    Upholds P m := by
  intro profile p hp
  rw [h]
  exact hp

theorem bind {m : Action (R × Log ω) α} {next : α → Action (R × Log ω) β} (h : Upholds P m)
    (hnext : ∀ value, Upholds P (next value)) : Upholds P (m >>= next) := by
  intro profile p hp
  have hstate := h profile p hp
  rw [bind_apply]
  cases hm : m profile p with
  | ok value q =>
      rw [hm] at hstate
      exact hnext value profile q hstate
  | err error q =>
      rw [hm] at hstate
      exact hstate
  | trap q =>
      rw [hm] at hstate
      exact hstate

theorem logged [Reader R] {describe : δ → Call ω} {call : Action (R × Log ω) (Result × δ)}
    (hcall : Upholds P call)
    (hevent : ∀ profile p answer q, call profile p = .ok answer q →
      P { call := describe answer.2, result := answer.1, before := Reader.observation p.1,
          after := Reader.observation q.1 }) :
    Upholds P (Client.logged describe call) := by
  intro profile p hp
  have hstate := hcall profile (p.1, p.2.notice (Reader.observation p.1)) hp
  rw [Client.logged_apply]
  cases hrun : call profile (p.1, p.2.notice (Reader.observation p.1)) with
  | ok answer q =>
      rw [hrun] at hstate
      intro event hmem
      rcases List.mem_append.mp hmem with hmem | hmem
      · exact hstate event hmem
      · rw [List.mem_singleton.mp hmem]
        exact hevent profile (p.1, p.2.notice (Reader.observation p.1)) answer q hrun
  | err error q =>
      rw [hrun] at hstate
      exact hstate
  | trap q =>
      rw [hrun] at hstate
      exact hstate

theorem method {body : Action (R × Log ω) (Result × ω)} (h : Upholds P body) (prior : ω) :
    Upholds P (Client.handing (prior, false) (Client.method body)) := by
  intro profile p hp
  rw [Client.handing_method_log]
  exact h profile p hp

theorem object {body : Action (ReadStream × Log ω) (Result × ω)} (h : Upholds P body) (prior : ω) :
    Upholds P (Client.handing (prior, false) (serializeObject (Client.method body))) := by
  intro profile p hp
  rcases Client.handing_object_log body prior profile p with hlog | hlog
  · rw [hlog]
    exact hp
  · rw [hlog]
    exact h profile p hp

end Upholds

end Serialize
