import Serialize.Float.Binary32
import Serialize.Model.Program
import Serialize.Reader.Refusals
import Serialize.Reader.Session

/-!
# Nested objects

A nested object contributes nothing of its own. On a stream where `serialize_object` leaves the
outcome of a method as it is, a program does what the sequence of its calls does, however deep the
objects are in which it makes them; and a stream is of that kind as soon as each single call leaves
it either live or latched with the reason it reports.
-/

namespace Serialize

open Machine Decode
open Binary32 (Arithmetic)

/-! ### Flattening -/

namespace Program

/-- No nested objects. -/
def Flat : Program → Prop
  | .done => True
  | .step _ next => ∀ value, (next value).Flat
  | .object _ _ => False
  | .finish next => next.Flat

/-- The calls of a program in place of it, and behind them what `next` makes of all it carried:
`carried` before this, and what its own calls carry. -/
def graft : Program → List Carried → (List Carried → Program) → Program
  | .done, carried, next => next carried
  | .step operation rest, carried, next =>
      .step operation fun value => (rest value).graft (carried ++ [⟨operation, value⟩]) next
  | .object body rest, carried, next =>
      body.graft [] fun inner => (rest inner).graft (carried ++ inner) next
  | .finish rest, carried, next => .finish (rest.graft carried next)

/-- The sequence of the calls a program makes. -/
def flatten (program : Program) : Program := program.graft [] fun _ => .done

theorem graft_flat {program : Program} {carried : List Carried} {next : List Carried → Program}
    (hnext : ∀ carried, (next carried).Flat) : (program.graft carried next).Flat := by
  induction program generalizing carried next with
  | done => exact hnext carried
  | step operation rest ih => exact fun value => ih value hnext
  | object body rest ihbody ih => exact ihbody fun inner => ih inner hnext
  | finish rest ih => exact ih hnext

theorem flatten_flat (program : Program) : program.flatten.Flat := graft_flat fun _ => trivial

/-- An object inside an object, and a call behind each. -/
example : (object (object (step .u8 fun _ => done) fun _ => step .bool fun _ => done) fun _ =>
    step .u16 fun _ => done).flatten
      = step .u8 fun _ => step .bool fun _ => step .u16 fun _ => done := rfl

end Program

/-! ### Callers

How a program's calls reach the variables of its caller: in a local copy each, or in place.
-/

section Callers

variable {S F : Type} [Stream S] [Arithmetic]

/-- The program over any caller: `log` is what its calls carried, `visit` makes a call on its next
variable. -/
def Program.runBy (log : F → List Carried)
    (visit : (operation : Operation) → Action (S × F) operation.Value) : Program → Action (S × F) Unit
  | .done => pure ()
  | .step operation next => do
      let value ← visit operation
      (next value).runBy log visit
  | .object body next => do
      let before ← load
      serializeObject (body.runBy log visit)
      let after ← load
      (next ((log after).drop (log before).length)).runBy log visit
  | .finish next => do
      onState serializeEnd
      next.runBy log visit

/-- A call on a copy of the next variable. -/
def visitCopy (memory : Memory) (operation : Operation) : Action (S × List Carried) operation.Value := do
  let log ← load
  let value ← inLocal (memory log.length operation) operation.run
  store (log ++ [⟨operation, value⟩])
  pure value

/-- The variables of a caller, and what its calls carried. -/
structure Frame where
  log : List Carried
  memory : Memory

namespace Frame

/-- What the next variable holds. -/
def get (frame : Frame) (operation : Operation) : operation.Value :=
  frame.memory frame.log.length operation

def set (frame : Frame) (operation : Operation) (value : operation.Value) : Frame :=
  let cell := Function.update (frame.memory frame.log.length) operation value
  { frame with memory := Function.update frame.memory frame.log.length cell }

end Frame

/-- A call on the next variable itself. -/
def visitInPlace (operation : Operation) : Action (S × Frame) operation.Value := do
  focus (fun p => (p.1, p.2.get operation)) (fun p q => (q.1, p.2.set operation q.2)) operation.run
  let frame ← load
  store { frame with log := frame.log ++ [⟨operation, frame.get operation⟩] }
  pure (frame.get operation)

/-- The program over the variables themselves, which keep what a refused call leaves in them. -/
def Program.runInPlace : Program → Action (S × Frame) Unit := Program.runBy Frame.log visitInPlace

theorem Program.run_eq_runBy (program : Program) (memory : Memory) :
    (program.run memory : Action (S × List Carried) Unit) = program.runBy id (visitCopy memory) := by
  induction program with
  | done => rfl
  | step operation next ih =>
      funext profile p
      rw [run, runBy, visitCopy]
      simp only [bind_apply, load_apply, Outcome.bind_ok, Outcome.bind_assoc, store_apply, pure_apply,
        ih]
  | object body next ihbody ih =>
      rw [run, runBy, ihbody]
      simp only [ih, id]
  | finish next ih => rw [run, runBy, ih]

end Callers

/-! ### Streams a nested object adds nothing to -/

/-- A stream on which handing over an object is calling its method: from a live state every call comes
back live or with a reason it refused for, and a method that does the same is left as it is. -/
structure Nesting (S : Type) [Stream S] [Arithmetic] where
  Live : S → Prop
  Refused : Error → S → Prop
  operation_ends : ∀ (operation : Operation) (profile : Profile) (stream : S) (value : operation.Value),
    Live stream → (operation.run profile (stream, value)).Ends (fun _ p => Live p.1)
      fun error p => Refused error p.1
  finish_ends : ∀ (profile : Profile) (stream : S), Live stream →
    (serializeEnd profile stream).Ends (fun _ => Live) Refused
  object_eq : ∀ {δ : Type} (method : Action (S × δ) Unit) (profile : Profile) (p : S × δ), Live p.1 →
    (method profile p).Ends (fun _ q => Live q.1) (fun error q => Refused error q.1) →
    serializeObject method profile p = method profile p

namespace Nesting

variable {S F : Type} [Stream S] [Arithmetic] {nesting : Nesting S} {log : F → List Carried}
  {visit : (operation : Operation) → Action (S × F) operation.Value} {profile : Profile} {p : S × F}

/-- A caller's call comes back as its operation does, and is logged when it is accepted. -/
def Visits (nesting : Nesting S) (log : F → List Carried)
    (visit : (operation : Operation) → Action (S × F) operation.Value) : Prop :=
  ∀ (operation : Operation) (profile : Profile) (p : S × F), nesting.Live p.1 →
    (visit operation profile p).Ends
      (fun value q => nesting.Live q.1 ∧ log q.2 = log p.2 ++ [⟨operation, value⟩])
      fun error q => nesting.Refused error q.1

theorem visitCopy_visits (memory : Memory) : nesting.Visits id (visitCopy memory) := by
  intro operation profile p hlive
  have hends := nesting.operation_ends operation profile p.1 (memory p.2.length operation) hlive
  rw [visitCopy, bind_apply, load_apply, Outcome.bind_ok, bind_apply, inLocal]
  rcases hrun : operation.run profile (p.1, memory p.2.length operation)
    with ⟨⟨⟩, stream, value⟩ | ⟨error, stream, value⟩ | ⟨stream, value⟩
  · rw [hrun] at hends
    exact ⟨hends, rfl⟩
  · rw [hrun] at hends
    exact hends
  · trivial

theorem visitInPlace_visits : nesting.Visits Frame.log visitInPlace := by
  intro operation profile p hlive
  have hends := nesting.operation_ends operation profile p.1 (p.2.get operation) hlive
  rw [visitInPlace, bind_apply, focus_apply]
  rcases hrun : operation.run profile (p.1, p.2.get operation)
    with ⟨⟨⟩, stream, value⟩ | ⟨error, stream, value⟩ | ⟨stream, value⟩
  · rw [hrun] at hends
    exact ⟨hends, rfl⟩
  · rw [hrun] at hends
    exact hends
  · trivial

theorem finish_visits (hlive : nesting.Live p.1) (profile : Profile) :
    ((onState serializeEnd : Action (S × F) Unit) profile p).Ends
      (fun _ q => nesting.Live q.1 ∧ q.2 = p.2) fun error q => nesting.Refused error q.1 :=
  Outcome.ends_mapState.mpr ((nesting.finish_ends profile p.1 hlive).mono (fun _ _ h => ⟨h, rfl⟩)
    fun _ _ h => h)

/-- Whatever a program calls, it comes back live or with the reason of its last call, and its log has
only grown. -/
theorem runBy_ends (hvisits : nesting.Visits log visit) (program : Program) (profile : Profile)
    (hlive : nesting.Live p.1) : (program.runBy log visit profile p).Ends
      (fun _ q => nesting.Live q.1 ∧ log p.2 <+: log q.2) fun error q => nesting.Refused error q.1 := by
  induction program generalizing p with
  | done => exact ⟨hlive, List.prefix_rfl⟩
  | step operation next ih =>
      rw [Program.runBy, bind_apply]
      refine (hvisits operation profile p hlive).bind fun value q hq => (ih value hq.1).mono ?_ ?_
      · intro _ q' hq'
        rw [hq.2] at hq'
        exact ⟨hq'.1, (List.prefix_append _ _).trans hq'.2⟩
      · exact fun _ _ hrefused => hrefused
  | object body next ihbody ih =>
      have hbody := ihbody hlive
      have hobject := nesting.object_eq _ profile p hlive
        (hbody.mono (fun _ _ h => h.1) fun _ _ h => h)
      rw [Program.runBy, bind_apply, load_apply, Outcome.bind_ok, bind_apply, hobject]
      refine hbody.bind fun _ q hq => ?_
      rw [bind_apply, load_apply, Outcome.bind_ok]
      exact (ih _ hq.1).mono (fun _ _ h => ⟨h.1, hq.2.trans h.2⟩) fun _ _ h => h
  | finish next ih =>
      have hfinish := finish_visits hlive profile
      rw [Program.runBy, bind_apply]
      refine hfinish.bind fun _ q hq => ?_
      rw [← hq.2]
      exact ih hq.1

/-- **Grafting a program runs it**, and then what is made of what it carried. -/
theorem runBy_graft (hvisits : nesting.Visits log visit) (program : Program) (carried : List Carried)
    (next : List Carried → Program) (hlive : nesting.Live p.1) :
    (program.graft carried next).runBy log visit profile p
      = (program.runBy log visit profile p).bind fun _ q =>
          (next (carried ++ (log q.2).drop (log p.2).length)).runBy log visit profile q := by
  induction program generalizing carried next p with
  | done =>
      rw [Program.graft, Program.runBy, pure_apply, Outcome.bind_ok, List.drop_length,
        List.append_nil]
  | step operation rest ih =>
      rw [Program.graft, Program.runBy, Program.runBy, bind_apply, bind_apply, Outcome.bind_assoc]
      refine (hvisits operation profile p hlive).bind_congr fun value q hq => ?_
      rw [ih value _ _ hq.1]
      refine (runBy_ends hvisits _ profile hq.1).bind_congr fun _ q' hq' => ?_
      obtain ⟨more, hmore⟩ := hq'.2
      rw [← hmore, hq.2, List.drop_left, List.append_assoc, List.append_assoc, List.drop_left]
  | object body rest ihbody ih =>
      have hbody := runBy_ends hvisits body profile hlive
      have hobject := nesting.object_eq _ profile p hlive
        (hbody.mono (fun _ _ h => h.1) fun _ _ h => h)
      rw [Program.graft, ihbody _ _ hlive, Program.runBy, bind_apply, load_apply, Outcome.bind_ok,
        bind_apply, hobject, Outcome.bind_assoc]
      refine hbody.bind_congr fun _ q hq => ?_
      rw [List.nil_append, ih _ _ _ hq.1, bind_apply, load_apply, Outcome.bind_ok]
      refine (runBy_ends hvisits _ profile hq.1).bind_congr fun _ q' hq' => ?_
      obtain ⟨inner, hinner⟩ := hq.2
      obtain ⟨more, hmore⟩ := hq'.2
      rw [← hmore, ← hinner, List.drop_left, List.drop_left, List.append_assoc, List.append_assoc,
        List.drop_left]
  | finish rest ih =>
      rw [Program.graft, Program.runBy, Program.runBy, bind_apply, bind_apply, Outcome.bind_assoc]
      refine (finish_visits hlive profile).bind_congr fun _ q hq => ?_
      rw [ih _ _ hq.1, hq.2]

/-- **A nested object contributes nothing**: handing over a program is making its calls. -/
theorem runBy_flatten (hvisits : nesting.Visits log visit) (program : Program)
    (hlive : nesting.Live p.1) : serializeObject (program.runBy log visit) profile p
      = program.flatten.runBy log visit profile p := by
  have hends := runBy_ends hvisits program profile hlive
  rw [nesting.object_eq _ profile p hlive (hends.mono (fun _ _ h => h.1) fun _ _ h => h),
    Program.flatten, runBy_graft hvisits program [] _ hlive]
  cases program.runBy log visit profile p with
  | ok result q => rfl
  | err error q => rfl
  | trap q => rfl

end Nesting

/-! ### The three streams -/

section Streams

variable [Arithmetic]

/-- A stream that writes keeps no reason, and `serialize_object` calls the method. -/
def writeNesting : Nesting WriteStream where
  Live _ := True
  Refused _ _ := True
  operation_ends operation profile stream value _ := by
    cases operation.run profile (stream, value) <;> trivial
  finish_ends _ _ _ := trivial
  object_eq _ _ _ _ _ := rfl

def measureNesting : Nesting MeasureStream where
  Live _ := True
  Refused _ _ := True
  operation_ends operation profile stream value _ := by
    cases operation.run profile (stream, value) <;> trivial
  finish_ends _ _ _ := trivial
  object_eq _ _ _ _ _ := rfl

namespace ReadStream

theorem operation_ends (operation : Operation) (profile : Profile) (stream : ReadStream)
    (value : operation.Value) (hlive : stream.failure = none) :
    (operation.run profile (stream, value)).Ends (fun _ p => p.1.failure = none)
      fun error p => p.1.failure = some error := by
  rcases hrun : operation.run profile (stream, value) with ⟨⟨⟩, p⟩ | ⟨error, p⟩ | p
  · exact (operation.run_commits.latched_eq hrun).trans hlive
  · exact (operation.run_commits.of_err hrun).1
  · trivial

omit [Arithmetic] in
theorem finish_ends (profile : Profile) (stream : ReadStream) (hlive : stream.failure = none) :
    (readEnd profile stream).Ends (fun _ final => final.failure = none)
      fun error final => final.failure = some error := by
  rcases hrun : readEnd profile stream with ⟨⟨⟩, final⟩ | ⟨error, final⟩ | final
  · exact (Steady.latched_eq hrun).trans hlive
  · exact Reports.latched_of_err hrun
  · trivial

omit [Arithmetic] in
/-- The gates on both sides of a method let through what comes back live, or latched with the reason it
returns. -/
theorem object_eq {δ : Type} (method : Action (ReadStream × δ) Unit) (profile : Profile)
    (p : ReadStream × δ) (hlive : p.1.failure = none)
    (hends : (method profile p).Ends (fun _ q => q.1.failure = none)
      fun error q => q.1.failure = some error) : serializeObject method profile p = method profile p := by
  obtain ⟨stream, value⟩ := p
  rw [serializeObject_of_live hlive]
  rcases hrun : method profile (stream, value) with ⟨⟨⟩, final, value'⟩ | ⟨error, final, value'⟩ | q
  · rw [hrun] at hends
    have hfinal : final.failed = none := hends
    dsimp only
    rw [hfinal]
    rfl
  · rw [hrun] at hends
    have hfinal : final.failed = some error := hends
    have hlatched : { final with failed := some error } = final := by rw [← hfinal]
    dsimp only
    rw [hfinal, Option.getD_some, hlatched]
  · rfl

end ReadStream

def readNesting : Nesting ReadStream where
  Live stream := stream.failure = none
  Refused error stream := stream.failure = some error
  operation_ends := ReadStream.operation_ends
  finish_ends := ReadStream.finish_ends
  object_eq := ReadStream.object_eq

end Streams

/-- Handing a program over and making its calls in sequence come to the same from a stream: the same
result, the same stream and the same values carried, and the same variables where the calls are made
on the variables themselves. -/
structure ContributesNothing {S : Type} [Stream S] [Arithmetic] (program : Program) (stream : S) :
    Prop where
  carried : ∀ (profile : Profile) (memory : Memory) (log : List Carried),
    serializeObject (program.run memory) profile (stream, log)
      = program.flatten.run memory profile (stream, log)
  destinations : ∀ (profile : Profile) (frame : Frame),
    serializeObject program.runInPlace profile (stream, frame)
      = program.flatten.runInPlace profile (stream, frame)

theorem Nesting.contributesNothing {S : Type} [Stream S] [Arithmetic] (nesting : Nesting S)
    (program : Program) {stream : S} (hlive : nesting.Live stream) :
    ContributesNothing program stream where
  carried profile memory log := by
    rw [Program.run_eq_runBy, Program.run_eq_runBy]
    exact runBy_flatten (visitCopy_visits memory) program hlive
  destinations profile frame := runBy_flatten visitInPlace_visits program hlive

/-- **Nested objects contribute nothing**, at any depth and wherever the first refusal is. -/
theorem nested_contribute_nothing [Arithmetic] (program : Program) :
    program.flatten.Flat
      ∧ (∀ stream : ReadStream, stream.failure = none → ContributesNothing program stream)
      ∧ (∀ stream : WriteStream, ContributesNothing program stream)
      ∧ ∀ stream : MeasureStream, ContributesNothing program stream := by
  refine ⟨program.flatten_flat, ?_, ?_, ?_⟩
  · exact fun stream hlive => readNesting.contributesNothing program hlive
  · exact fun stream => writeNesting.contributesNothing program trivial
  · exact fun stream => measureNesting.contributesNothing program trivial

/-- A flag inside an object, and the end of the packet. -/
theorem nested_contribute_nothing_one_flag : ContributesNothing
    (.object (.step .bool fun _ => .done) fun _ => .finish .done) (ReadStream.fresh [0x01] 1) :=
  (nested_contribute_nothing _).2.1 _ rfl

end Serialize
