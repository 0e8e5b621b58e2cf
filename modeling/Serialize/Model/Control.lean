import Serialize.Model.ReadStream
import Serialize.Text.Lossy

/-!
# The negative controls

A reader with one refusal rule deleted. Of the rules, only the one on UTF-8 and its clause against
encoded surrogates need more than leaving a check out: the text a sabotaged reader accepts has to
be made up.
-/

namespace Serialize

open Utf8 (Text fromUtf8 fromUtf8Lossy)

/-- One refusal rule a control deletes. -/
inductive Control where
  | alignPadding
  | rangedReconstruction
  | rangedRange
  | fixedDegenerateTerminal
  | floatFinite
  | doubleFinite
  | compressedFloatFinite
  | endTrailingData
  | endPadding
  | intRelativeCanonical
  | stringEmbeddedNul
  | stringUtf8
  | stringUtf8Surrogate
  | int64ThroughDouble
  | wrongReason
  | objectTerminal
  | objectLatchRejected
  | rejectReason
  deriving DecidableEq, Repr

/-- True when `control`'s rule is deleted on this thread, where `active` is the control set. -/
def deleted (active : Option Control) (control : Control) : Bool := decide (active = some control)

/-- One step of the loop over the payload: the byte after an `ED` is rewritten when it is `A0` or
more. -/
def patchAt (patched : List U8) (index : Nat) : List U8 :=
  if patched.getD index 0 = 0xED ∧ 0xA0 ≤ patched.getD (index + 1) 0 then
    patched.set (index + 1) 0x9F
  else patched

/-- The payload with every step of the loop taken, in place and in order. -/
def patchSurrogates (bytes : List U8) : List U8 :=
  (List.range (bytes.length - 1)).foldl patchAt bytes

/-- With the whole UTF-8 rule deleted, or only its encoded surrogate clause, the text a sabotaged
reader accepts. -/
def utf8RuleDeleted (active : Option Control) (bytes : List U8) : Option Text :=
  if deleted active .stringUtf8 then
    some (fromUtf8Lossy bytes)
  else if deleted active .stringUtf8Surrogate then
    fromUtf8 (patchSurrogates bytes)
  else none

end Serialize
