import Serialize.Float.Binary32
import Serialize.Reader.Reachable
import Serialize.Reader.Refusals

/-!
# What a read gives out, and what a refusal leaves

On every state a client can bring a stream to, an operation that returns gives out a value a
conforming writer may be handed for its declaration. On any state at all, an operation that refuses
leaves the caller's value as it was.
-/

namespace Serialize

open Machine Decode
open Binary32 (Arithmetic)
open ReadStream

section Validation

variable [Arithmetic] {stream stream' : ReadStream} {operation : Operation}
  {prior value : operation.Value} {build : Build} {profile : Profile} {error : Error}

/-- No unvalidated value escapes: an operation that returns had a legal declaration, and stored a
value of the domain it declares. -/
theorem accepted_validated (hreachable : stream.Reachable)
    (hok : operation.run build (stream, prior) = .ok () (stream', value)) :
    operation.Legal ∧ operation.InDomain value := by
  have hstored := operation.run_stores build stream prior hreachable.valid
  rw [hok] at hstored
  match hrun : operation.decoder.run stream.cursor, hstored with
  | .ok value' c, ⟨_, _, hvalue⟩ =>
      obtain rfl : value = value' := hvalue
      have hlive := (Decoder.live_of_run_eq_ok operation.decoder_guarded hrun).1
      exact Operation.decoder_sound (Decoder.parse_of_run_eq_ok hlive hrun)

/-- A refused read leaves its destination unwritten. -/
theorem refused_unwritten
    (herr : operation.run profile (stream, prior) = .err error (stream', value)) : value = prior :=
  (operation.run_commits.of_err herr).2

end Validation

/-- The read stream over one byte, three bits into it. -/
def threeBitsIn (byte : U8) (failed : Option Error) : ReadStream :=
  { reader := { data := [byte], numBits := 8, bitsRead := 3 }, failed }

/-- Three bits that spell an integer of `[-2, 3]`. -/
theorem accepted_validated_int :
    (Operation.int (-2) 3).Legal ∧ (Operation.int (-2) 3).InDomain (3 : I32) :=
  have hreachable : (fresh [0xFD] 1).Reachable := reachable_fresh (by decide)
  have hrun : (Operation.int (-2) 3).run .checked (fresh [0xFD] 1, (7 : I32))
      = .ok () (threeBitsIn 0xFD none, (3 : I32)) := by rfl
  accepted_validated hreachable hrun

/-- Three bits that spell no integer of `[-2, 3]`. -/
theorem refused_unwritten_int : ∃ value : I32, (Operation.int (-2) 3).run .checked
      (fresh [0xFF] 1, (7 : I32))
        = .err .valueOutOfRange (threeBitsIn 0xFF (some .valueOutOfRange), value) ∧ value = 7 :=
  have hrun : (Operation.int (-2) 3).run .checked (fresh [0xFF] 1, (7 : I32))
      = .err .valueOutOfRange (threeBitsIn 0xFF (some .valueOutOfRange), (7 : I32)) := by rfl
  ⟨7, hrun, refused_unwritten hrun⟩

end Serialize
