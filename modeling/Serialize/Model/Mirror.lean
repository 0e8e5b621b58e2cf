import Serialize.Machine.Simulation
import Serialize.Model.Client

/-!
# Readers that mirror one another

Two readers mirror one another under a relation when related readers show the same and every call
matches. A client cannot tell such readers apart: its runs on them match call for call, in what each
call returns, in what every variable holds, and in the log.
-/

namespace Serialize

open Machine

variable {S T δ ω α : Type} {profile : Profile} {R : S → T → Prop}

/-- Under this profile the readers answer every call alike and leave related readers. -/
structure Mirrors [Reader S] [Reader T] (profile : Profile) (R : S → T → Prop) : Prop where
  observation : ∀ {left right}, R left right → Reader.observation left = Reader.observation right
  operation : ∀ operation, SimUnder profile (Carrying R) NoEscape
    (Reader.operation operation : Action (S × operation.Value) Unit) (Reader.operation operation)
  finish : SimUnder profile R NoEscape (Reader.finish : Action S Unit) Reader.finish
  fail : ∀ error, SimUnder profile R NoEscape (Reader.fail error : Action S Unit) (Reader.fail error)
  reject : SimUnder profile R NoEscape (Reader.reject : Action S Unit) Reader.reject
  object : ∀ {δ : Type} {m : Action (S × δ) Unit} {n : Action (T × δ) Unit},
    SimUnder profile (Carrying R) NoEscape m n →
      SimUnder profile (Carrying R) NoEscape (Reader.object m) (Reader.object n)

namespace Client

theorem quietly_sim {m : Action (S × δ) Unit} {n : Action (T × δ) Unit}
    (h : SimUnder profile (Carrying R) NoEscape m n) :
    SimUnder profile (Carrying (δ := Log ω × δ) R) NoEscape (quietly m) (quietly n) := by
  rintro ⟨left, log, value⟩ ⟨right, _⟩ ⟨hrelated, rfl⟩
  have hmatch := h (left, value) (right, value) ⟨hrelated, rfl⟩
  rw [quietly, quietly, focus_apply, focus_apply]
  match hm : m profile (left, value), hn : n profile (right, value), hmatch with
  | .ok () p, .ok () q, ⟨_, hrelated', hvalue⟩ =>
      exact ⟨rfl, hrelated', by dsimp only; rw [hvalue]⟩
  | .err error p, _, .inr ⟨q, rfl, hrelated', hvalue⟩ =>
      exact Or.inr ⟨_, rfl, hrelated', by dsimp only; rw [hvalue]⟩
  | .trap p, .trap q, ⟨hrelated', hvalue⟩ => exact ⟨hrelated', by dsimp only; rw [hvalue]⟩

theorem handing_sim (prior : δ) {m : Action (S × (Log ω × δ)) Unit}
    {n : Action (T × (Log ω × δ)) Unit} (h : SimUnder profile (Carrying R) NoEscape m n) :
    SimUnder profile (Carrying R) NoEscape (handing prior m) (handing prior n) := by
  rintro ⟨left, log⟩ ⟨right, _⟩ ⟨hrelated, rfl⟩
  have hmatch := h (left, log, prior) (right, log, prior) ⟨hrelated, rfl⟩
  rw [handing, handing]
  match hm : m profile (left, log, prior), hn : n profile (right, log, prior), hmatch with
  | .ok () (left', _), .ok () (right', _), ⟨_, hrelated', rfl⟩ => exact ⟨rfl, hrelated', rfl⟩
  | .err error (left', _), _, .inr ⟨(right', _), rfl, hrelated', rfl⟩ =>
      exact ⟨rfl, hrelated', rfl⟩
  | .trap (left', _), .trap (right', _), ⟨hrelated', rfl⟩ => exact ⟨hrelated', rfl⟩

theorem method_sim {m : Action (S × Log ω) (Result × ω)} {n : Action (T × Log ω) (Result × ω)}
    (h : SimUnder profile (Carrying R) NoEscape m n) :
    SimUnder profile (Carrying R) NoEscape (method m) (method n) := by
  rintro ⟨left, log, memory, invoked⟩ ⟨right, _⟩ ⟨hrelated, rfl⟩
  have hmatch := h (left, log) (right, log) ⟨hrelated, rfl⟩
  rw [method, method]
  match hm : m profile (left, log), hn : n profile (right, log), hmatch with
  | .ok (.ok (), final) (left', _), .ok _ (right', _), ⟨rfl, hrelated', rfl⟩ =>
      exact ⟨rfl, hrelated', rfl⟩
  | .ok (.error error, final) (left', _), .ok _ (right', _), ⟨rfl, hrelated', rfl⟩ =>
      exact Or.inr ⟨_, rfl, hrelated', rfl⟩
  | .err error (left', _), _, .inr ⟨(right', _), rfl, hrelated', rfl⟩ =>
      exact Or.inr ⟨_, rfl, hrelated', rfl⟩
  | .trap (left', _), .trap (right', _), ⟨hrelated', rfl⟩ => exact ⟨hrelated', rfl⟩

end Client

namespace Mirrors

variable [Reader S] [Reader T]

theorem look (h : Mirrors profile R) : SimUnder profile (Carrying R) NoEscape
    (Client.look : Action (S × Log ω) Observation) Client.look := by
  rintro ⟨left, log⟩ ⟨right, _⟩ ⟨hrelated, rfl⟩
  have hseen := h.observation hrelated
  exact ⟨hseen, hrelated, by dsimp only; rw [hseen]⟩

theorem logged (h : Mirrors profile R) (describe : δ → Call ω)
    {m : Action (S × Log ω) (Result × δ)} {n : Action (T × Log ω) (Result × δ)}
    (hcall : SimUnder profile (Carrying R) NoEscape m n) :
    SimUnder profile (Carrying R) NoEscape (Client.logged describe m) (Client.logged describe n) := by
  refine h.look.bind fun before => hcall.bind fun answer => h.look.bind fun after =>
    SimUnder.bind ?_ fun _ => SimUnder.pure answer
  rintro ⟨left, log⟩ ⟨right, _⟩ ⟨hrelated, rfl⟩
  exact ⟨rfl, hrelated, rfl⟩

/-- **A client cannot tell readers that mirror one another apart.** -/
theorem run (h : Mirrors profile R) (client : Client ω) : SimUnder profile (Carrying R) NoEscape
    (client.run : Action (S × Log ω) (Result × ω)) (client.run : Action (T × Log ω) _) := by
  induction client with
  | done result memory => exact SimUnder.pure _
  | observe next ih => exact h.look.bind ih
  | call operation prior next ih =>
      exact (h.logged _ (Client.handing_sim _ (Client.quietly_sim (h.operation operation)))).bind
        fun answer => ih answer.1 answer.2
  | finish next ih =>
      exact (h.logged _ (Client.handing_sim _ (Client.quietly_sim
        (CallSimUnder.onState h.finish)))).bind fun answer => ih answer.1
  | fail error next ih =>
      exact (h.logged _ (Client.handing_sim _ (Client.quietly_sim
        (CallSimUnder.onState (h.fail error))))).bind fun answer => ih answer.1
  | reject next ih =>
      exact (h.logged _ (Client.handing_sim _ (Client.quietly_sim
        (CallSimUnder.onState h.reject)))).bind fun answer => ih answer.1
  | object prior body next ihbody ih =>
      exact (h.logged _ (Client.handing_sim _ (h.object (Client.method_sim ihbody)))).bind
        fun answer => ih answer.1 answer.2.1

end Mirrors

end Serialize
