import Serialize.Model.Operation

/-!
# Programs

A program is a serialize method: it makes one call after another on the variables of its caller and
stops at the first error. The declaration of a later call may depend on the values carried by
earlier ones. The same program writes, measures and reads: what its variables hold when a call comes
to them is written, or overwritten by what is read.

The caller's variables are the log: each call is made on the next variable, which then holds what
the log records.
-/

namespace Serialize

open Machine
open Binary32 (Arithmetic)

/-- What the variables hold at the start, in the order a program comes to them. -/
abbrev Memory := Nat → (operation : Operation) → operation.Value

/-- The variables hold what the log records of them. -/
def Memory.Holds (memory : Memory) (log : List Carried) : Prop :=
  ∀ i entry, log[i]? = some entry → memory i entry.1 = entry.2

theorem Memory.Holds.left {memory : Memory} {first second : List Carried}
    (h : memory.Holds (first ++ second)) : memory.Holds first := by
  intro i entry hentry
  obtain ⟨hi, -⟩ := List.getElem?_eq_some_iff.mp hentry
  exact h i entry (by rw [List.getElem?_append_left hi, hentry])

inductive Program where
  | done
  /-- Call an operation on the next variable, and go on from what it holds then. -/
  | step (operation : Operation) (next : operation.Value → Program)
  /-- Serialize a nested object, and go on from what its method carried. -/
  | object (body : Program) (next : List Carried → Program)
  | finish (next : Program)

namespace Program

variable {S : Type} [Stream S] [Arithmetic]

def run (memory : Memory) : Program → Action (S × List Carried) Unit
  | .done => pure ()
  | .step operation next => do
      let log ← load
      let value ← inLocal (memory log.length operation) operation.run
      store (log ++ [⟨operation, value⟩])
      (next value).run memory
  | .object body next => do
      let log ← load
      serializeObject (body.run memory)
      let log' ← load
      (next (log'.drop log.length)).run memory
  | .finish next => do
      onState serializeEnd
      next.run memory

/-- The program, and then the end of the packet. -/
def runToEnd (memory : Memory) (program : Program) : Action (S × List Carried) Unit := do
  program.run memory
  onState serializeEnd

/-- What the program carries where no call changes its variable, from the `n`th variable on. -/
def carries (memory : Memory) : Program → Nat → List Carried
  | .done, _ => []
  | .step operation next, n =>
      let value := memory n operation
      ⟨operation, value⟩ :: (next value).carries memory (n + 1)
  | .object body next, n =>
      let inner := body.carries memory n
      inner ++ (next inner).carries memory (n + inner.length)
  | .finish next, n => next.carries memory n

/-- The end of the packet is looked for nowhere in the program. -/
def Open : Program → Prop
  | .done => True
  | .step _ next => ∀ value, (next value).Open
  | .object body next => body.Open ∧ ∀ carried, (next carried).Open
  | .finish _ => False

end Program

end Serialize
