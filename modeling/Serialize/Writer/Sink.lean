import Serialize.Format.Encoding

/-!
# Streams that hold what was written

A write stream and a measure stream do the same with a value: they append its encoding to the bits
they were handed so far, where there is room. A sink says how the state of a stream holds those
bits and what its primitives append; what a computation appends is then put together from what its
steps append, and neither scratch nor counters appear again.
-/

namespace Serialize

open Machine BitString
open Utf8 (Text)

/-- How a stream that writes holds bits, and that its fields append to them. -/
structure CoreSink (S : Type) [StreamCore S] where
  holding : List Bool → S
  /-- The most bits it holds. -/
  capacity : Nat
  /-- Whether a field it has no room for is a trap in either build. -/
  strict : Prop
  writes : isWriting S = true
  reads : isReading S = false
  gate_eq : ∀ (profile : Profile) (stream : S), (gate : Action S Unit) profile stream = .ok () stream
  serializeBits_eq : ∀ (build : Build) (bits : List Bool) (value width : U32),
    1 ≤ width.toNat ∧ width.toNat ≤ 32 → value.toNat < 2 ^ width.toNat →
    bits.length + width.toNat ≤ capacity →
    serializeBits width build (holding bits, value)
      = .ok () (holding (bits ++ toBits width.toNat value.toNat), value)
  serializeBits_trap : strict → ∀ (build : Build) (bits : List Bool) (value width : U32),
    1 ≤ width.toNat ∧ width.toNat ≤ 32 → value.toNat < 2 ^ width.toNat →
    capacity < bits.length + width.toNat →
    ¬(serializeBits width build (holding bits, value)).Returned

namespace CoreSink

variable {S δ κ α β : Type} [StreamCore S] {sink : CoreSink S}

/-- From any string it has room behind, the computation appends a code that may depend on the
position, gives `result` and leaves the caller's value alone. Where there is no room behind it, a
strict sink traps. -/
def Emits (sink : CoreSink S) (m : Action (S × δ) α) (value : δ) (result : α)
    (code : Nat → List Bool) : Prop :=
  ∀ (build : Build) (bits : List Bool), bits.length ≤ sink.capacity →
    (bits.length + (code bits.length).length ≤ sink.capacity →
      m build (sink.holding bits, value)
        = .ok result (sink.holding (bits ++ code bits.length), value)) ∧
    (sink.strict → sink.capacity < bits.length + (code bits.length).length →
      ¬(m build (sink.holding bits, value)).Returned)

section Silent

variable {value : δ}

theorem silent_reading (sink : CoreSink S) (m : Action (S × δ) Unit) : Silent (whenReading m) value () := by
  intro build stream
  rw [whenReading, onlyIf, sink.reads, if_neg Bool.false_ne_true, pure_apply]

theorem silent_writing (sink : CoreSink S) {m : Action (S × δ) Unit} (h : Silent m value ()) :
    Silent (whenWriting m) value () := by
  intro build stream
  rw [whenWriting, onlyIf, if_pos sink.writes]
  exact h build stream

theorem silent_gate (sink : CoreSink S) : Silent (onState (refuseIfFailed (S := S))) value () :=
  Silent.onState sink.gate_eq

end Silent

namespace Emits

variable {value : δ} {part : α} {result : β} {code code' : Nat → List Bool}

/-- A sink that is not strict owes nothing where it has no room. -/
theorem of_lax (hlax : ¬sink.strict) {m : Action (S × δ) α}
    (h : ∀ (build : Build) (bits : List Bool),
      bits.length + (code bits.length).length ≤ sink.capacity →
      m build (sink.holding bits, value)
        = .ok part (sink.holding (bits ++ code bits.length), value)) :
    sink.Emits m value part code :=
  fun build bits _ => ⟨h build bits, fun hstrict => absurd hstrict hlax⟩

theorem silent {m : Action (S × δ) α} (h : Silent m value part) :
    sink.Emits m value part fun _ => [] := by
  intro build bits hbits
  rw [h, List.append_nil]
  exact ⟨fun _ => rfl, fun _ hfull => absurd hfull (Nat.not_lt.mpr hbits)⟩

theorem bind {m : Action (S × δ) α} {next : α → Action (S × δ) β} (h : sink.Emits m value part code)
    (hnext : sink.Emits (next part) value result code') :
    sink.Emits (m >>= next) value result fun position =>
      code position ++ code' (position + (code position).length) := by
  intro build bits hbits
  obtain ⟨hroom, hfull⟩ := h build bits hbits
  dsimp only
  rw [bind_apply, List.length_append, ← Nat.add_assoc]
  by_cases hfirst : bits.length + (code bits.length).length ≤ sink.capacity
  · have hlength : (bits ++ code bits.length).length = bits.length + (code bits.length).length :=
      List.length_append
    have hsecond := hnext build (bits ++ code bits.length) (hlength ▸ hfirst)
    rw [hlength, List.append_assoc] at hsecond
    rw [hroom hfirst, Outcome.bind_ok]
    exact hsecond
  · constructor
    · intro hboth
      omega
    · intro hstrict _
      exact Outcome.not_returned_bind (hfull hstrict (Nat.not_le.mp hfirst)) _

theorem append {m : Action (S × δ) α} {next : α → Action (S × δ) β} {first second : List Bool}
    (h : sink.Emits m value part fun _ => first)
    (hnext : sink.Emits (next part) value result fun _ => second) :
    sink.Emits (m >>= next) value result fun _ => first ++ second :=
  bind h hnext

theorem before {m : Action (S × δ) α} {next : α → Action (S × δ) β} (h : Silent m value part)
    (hnext : sink.Emits (next part) value result code) :
    sink.Emits (m >>= next) value result code := by
  intro build bits hbits
  rw [bind_apply, h, Outcome.bind_ok]
  exact hnext build bits hbits

theorem after {m : Action (S × δ) α} {next : α → Action (S × δ) β} (h : sink.Emits m value part code)
    (hnext : Silent (next part) value result) : sink.Emits (m >>= next) value result code := by
  intro build bits hbits
  obtain ⟨hroom, hfull⟩ := h build bits hbits
  rw [bind_apply]
  constructor
  · intro hfits
    rw [hroom hfits, Outcome.bind_ok]
    exact hnext build _
  · intro hstrict hover
    exact Outcome.not_returned_bind (hfull hstrict hover) _

theorem inLocal {m : Action (S × κ) Unit} {initial : κ} (h : sink.Emits m initial () code) :
    sink.Emits (inLocal initial m) value initial code := by
  intro build bits hbits
  obtain ⟨hroom, hfull⟩ := h build bits hbits
  constructor
  · intro hfits
    exact inLocal_of_ok (hroom hfits) value
  · intro hstrict hover
    exact inLocal_not_returned (hfull hstrict hover)

theorem congr {m : Action (S × δ) α} (h : sink.Emits m value part code)
    (hcode : ∀ position, code position = code' position) : sink.Emits m value part code' := by
  rw [← funext hcode]
  exact h

end Emits

end CoreSink

/-- A stream that holds what was written to it, with what its byte and string operations append. -/
structure Sink (S : Type) [Stream S] extends CoreSink S where
  /-- The padding an align appends at a position. -/
  alignment : Nat → Nat
  align_emits : toCoreSink.Emits (onState serializeAlign) () () (alignCode alignment)
  bytes_emits : ∀ {n : Nat} (value : List.Vector U8 n),
    toCoreSink.Emits serializeBytes value () fun position => bytesCode alignment position value.toList
  string_emits : ∀ {bufferSize : Nat} {value : Text},
    1 ≤ bufferSize ∧ bufferSize ≤ i32Max → value.bytes.length < bufferSize ∧ 0 ∉ value.bytes →
    toCoreSink.Emits (serializeString bufferSize) value ()
      fun position => stringCode alignment bufferSize position value.bytes
  end_eq : ∀ (build : Build) (stream : S), serializeEnd build stream = .ok () stream
  object_eq : ∀ {ω : Type} (object : Action (S × ω) Unit), serializeObject object = object
  bitsProcessed_eq : ∀ bits : List Bool, bitsProcessed (holding bits) = bits.length

end Serialize
