import Serialize.Model.Basic
import Serialize.Text.Boundaries

/-!
# Copying a string

The helper that cuts a string down to what a field can carry. It touches no stream: its state is the
string it copies to.
-/

namespace Serialize

open Machine
open Utf8 (Text isCharBoundary)

section CopyString

variable {σ : Type}

/-- `while !source.is_char_boundary(end) { end -= 1 }`, from `end` on. -/
def backToBoundary (source : Text) : Nat → Action σ Nat
  | 0 => do
      -- a step back from here would underflow
      require (isCharBoundary source.bytes 0 = true)
      pure 0
  | stop + 1 =>
      if isCharBoundary source.bytes (stop + 1) then pure (stop + 1)
      else backToBoundary source stop

/-- `&source[..stop]`, which is a panic where `stop` is no character boundary. -/
def sliceTo (source : Text) (stop : Nat) : Action σ Text := fun _ state =>
  if h : isCharBoundary source.bytes stop = true then .ok (source.upTo stop h) state
  else .trap state

/-- Copy `source` into the state as a string a field of `bufferSize` can carry. -/
def serializeCopyString (source : Text) (bufferSize : Nat) : Action Text Unit := do
  debugAssert (1 ≤ bufferSize)
  setState Text.empty
  let source := source.beforeNul
  let stop ← backToBoundary source (min source.bytes.length (bufferSize - 1))
  let slice ← sliceTo source stop
  modifyState (·.append slice)

end CopyString

end Serialize
