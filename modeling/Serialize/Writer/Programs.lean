import Serialize.Model.Program
import Serialize.Writer.Streams

/-!
# A program emits the encoding of what it carries

On a stream that writes, a whole program appends the concatenated encodings of the values its
variables hold: nested objects and the end of the packet append nothing.
-/

namespace Serialize

open Machine BitString
open Binary32 (Arithmetic)
open CoreSink

variable {S : Type} [Stream S] [Arithmetic] {memory : Memory}

namespace Program

/-- The outcome of a run on a string and a log: it appended `carried` to the log and its encoding to
the string, or a strict sink had no room for it and trapped. -/
def Appends (sink : Sink S) (bits : List Bool) (log carried : List Carried)
    (outcome : Outcome Error (S × List Carried) Unit) : Prop :=
  (bits.length + (encodeAll sink.alignment bits.length carried).length ≤ sink.capacity →
    outcome = .ok ()
      (sink.holding (bits ++ encodeAll sink.alignment bits.length carried), log ++ carried)) ∧
  (sink.strict →
    sink.capacity < bits.length + (encodeAll sink.alignment bits.length carried).length →
    ¬outcome.Returned)

variable {sink : Sink S} {bits : List Bool} {log log' : List Carried}

theorem Appends.bind {α : Type} (first : List Carried) {second : List Carried}
    {outcome : Outcome Error (S × List Carried) α} {part : α}
    {next : α → S × List Carried → Outcome Error (S × List Carried) Unit}
    (hroom : bits.length + (encodeAll sink.alignment bits.length first).length ≤ sink.capacity →
      outcome = .ok part (sink.holding (bits ++ encodeAll sink.alignment bits.length first), log'))
    (hfull : sink.strict →
      sink.capacity < bits.length + (encodeAll sink.alignment bits.length first).length →
      ¬outcome.Returned)
    (hnext : (bits ++ encodeAll sink.alignment bits.length first).length ≤ sink.capacity →
      Appends sink (bits ++ encodeAll sink.alignment bits.length first) (log ++ first) second
        (next part (sink.holding (bits ++ encodeAll sink.alignment bits.length first), log'))) :
    Appends sink bits log (first ++ second) (outcome.bind next) := by
  rw [Appends, encodeAll_append, List.length_append, ← Nat.add_assoc]
  by_cases hfits : bits.length + (encodeAll sink.alignment bits.length first).length ≤ sink.capacity
  · have hsecond := hnext (by rw [List.length_append]; exact hfits)
    rw [Appends, List.length_append, List.append_assoc, List.append_assoc] at hsecond
    rw [hroom hfits, Outcome.bind_ok]
    exact hsecond
  · constructor
    · intro hboth
      omega
    · intro hstrict _
      exact Outcome.not_returned_bind (hfull hstrict (Nat.not_le.mp hfits)) _

/-- **A program appends the encoding of everything it carries.** -/
theorem run_appends (sink : Sink S) (program : Program) (memory : Memory) (build : Build)
    (hbits : bits.length ≤ sink.capacity)
    (h : Conforming (program.carries memory log.length)) :
    Appends sink bits log (program.carries memory log.length)
      (program.run memory build (sink.holding bits, log)) := by
  induction program generalizing bits log with
  | done =>
      refine ⟨fun _ => ?_, fun _ hfull => absurd hfull (Nat.not_lt.mpr hbits)⟩
      rw [run, carries, encodeAll, List.append_nil, List.append_nil, pure_apply]
  | step operation next ih =>
      have hvalue : operation.Conforms (memory log.length operation) := h _ List.mem_cons_self
      obtain ⟨hroom, hfull⟩ :=
        @Emits.inLocal S (List Carried) _ _ _ log _ _ _ (operation.run_emits sink hvalue) build bits hbits
      set entry : Carried := ⟨operation, memory log.length operation⟩ with hentry
      have hcode : encodeAll sink.alignment bits.length [entry]
          = operation.encode sink.alignment bits.length (memory log.length operation) :=
        List.append_nil _
      have hlog : (log ++ [entry]).length = log.length + 1 := List.length_append
      rw [run, bind_apply, load_apply, Outcome.bind_ok, bind_apply, carries]
      refine Appends.bind [entry] (by rw [hcode]; exact hroom) (by rw [hcode]; exact hfull)
        fun hfits => ?_
      rw [bind_apply, store_apply, Outcome.bind_ok, ← hlog]
      refine ih _ hfits ?_
      rw [hlog]
      have hall : Conforming ([entry] ++ (next entry.2).carries memory (log.length + 1)) := h
      exact hall.right
  | object body next ihbody ih =>
      rw [run, bind_apply, load_apply, Outcome.bind_ok, bind_apply, sink.object_eq, carries]
      obtain ⟨hroom, hfull⟩ := ihbody hbits (Conforming.left h)
      refine Appends.bind _ hroom hfull fun hfits => ?_
      rw [bind_apply, load_apply, Outcome.bind_ok, List.drop_left, ← List.length_append]
      refine ih _ hfits ?_
      rw [List.length_append]
      exact Conforming.right h
  | finish next ih =>
      rw [run, bind_apply, onState_apply, sink.end_eq, Outcome.mapState_ok, Outcome.bind_ok]
      exact ih hbits h

end Program

end Serialize
