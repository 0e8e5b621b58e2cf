import Serialize.Format.Narrow
import Serialize.Model.Agreement
import Serialize.Reader.Programs
import Serialize.Reader.Wrapped

/-!
# Runs that do not wrap

On a packet that ends 32 bits below `2 ^ 64` the default release profile accepts nothing that a build
with overflow checks does not: no field an operation asks for reaches `2 ^ 64`, and one that is
declared too wide is refused, wherever its end comes to lie.
-/

namespace Serialize

open Machine BitString Decode
open Binary32 (Arithmetic)
open ReadStream

variable {δ κ α β : Type}

/-- Every position of the packet leaves 32 bits below `2 ^ 64`. -/
structure Roomy (stream : ReadStream) : Prop where
  valid : stream.Valid
  room : stream.reader.numBits + 32 < 2 ^ 64

/-- What the default release profile accepts on a roomy stream, a build with overflow checks
accepts. -/
def Unwraps (m : Action (ReadStream × δ) α) : Prop :=
  ∀ p value q, Roomy p.1 → m .wrapping p = .ok value q → m .unchecked p = .ok value q ∧ Roomy q.1

namespace Unwraps

theorem of_same {m : Action (ReadStream × δ) α}
    (h : ∀ profile p, ∃ value final, m profile p = .ok value (p.1, final))
    (hsame : ∀ p, m .wrapping p = m .unchecked p) : Unwraps m := by
  intro p value q hroomy hrun
  obtain ⟨value', final, heq⟩ := h .wrapping p
  rw [← hsame, hrun]
  rw [heq] at hrun
  cases hrun
  exact ⟨rfl, hroomy⟩

theorem pure (value : α) : Unwraps (pure value : Action (ReadStream × δ) α) :=
  of_same (fun _ p => ⟨value, p.2, rfl⟩) fun _ => rfl

theorem load : Unwraps (load : Action (ReadStream × δ) δ) :=
  of_same (fun _ p => ⟨p.2, p.2, rfl⟩) fun _ => rfl

theorem store (value : δ) : Unwraps (store value : Action (ReadStream × δ) Unit) :=
  of_same (fun _ _ => ⟨(), value, rfl⟩) fun _ => rfl

theorem bind {m : Action (ReadStream × δ) α} {next : α → Action (ReadStream × δ) β}
    (h : Unwraps m) (hnext : ∀ value, Unwraps (next value)) : Unwraps (m >>= next) := by
  intro p value q hroomy hrun
  rw [bind_apply] at hrun
  obtain ⟨value', p', hm, hrest⟩ := Outcome.bind_eq_ok.mp hrun
  obtain ⟨hm', hroomy'⟩ := h p value' p' hroomy hm
  rw [bind_apply, hm', Outcome.bind_ok]
  exact hnext value' p' value q hroomy' hrest

theorem inLocal {initial : κ} {m : Action (ReadStream × κ) Unit} (h : Unwraps m) :
    Unwraps (inLocal initial m : Action (ReadStream × δ) κ) := by
  rintro ⟨stream, outer⟩ value q hroomy hrun
  rcases hm : m .wrapping (stream, initial) with ⟨⟨⟩, stream', final⟩ | ⟨error, stream', final⟩ |
    ⟨stream', final⟩
  · rw [inLocal_of_ok hm] at hrun
    cases hrun
    obtain ⟨hm', hroomy'⟩ := h _ () _ hroomy hm
    exact ⟨inLocal_of_ok hm' outer, hroomy'⟩
  · rw [inLocal_of_err hm] at hrun
    cases hrun
  · rw [inLocal_of_trap hm] at hrun
    cases hrun

theorem object {m : Action (ReadStream × δ) Unit} (h : Unwraps m) : Unwraps (serializeObject m) := by
  rintro ⟨stream, value⟩ ⟨⟩ q hroomy hrun
  rcases hfailed : stream.failed with - | reason
  · rw [serializeObject_of_live hfailed] at hrun ⊢
    rcases hm : m .wrapping (stream, value) with ⟨⟨⟩, stream', final⟩ | ⟨error, stream', final⟩ | p
    · obtain ⟨hm', hroomy'⟩ := h _ () _ hroomy hm
      rw [hm] at hrun
      rw [hm']
      refine ⟨hrun, ?_⟩
      dsimp only at hrun
      cases hfailed' : stream'.failed with
      | none =>
          rw [hfailed'] at hrun
          cases hrun
          exact hroomy'
      | some reason =>
          rw [hfailed'] at hrun
          cases hrun
    · rw [hm] at hrun
      cases hrun
    · rw [hm] at hrun
      cases hrun
  · rw [serializeObject_of_failed hfailed] at hrun
    cases hrun

theorem finish : Unwraps (onState serializeEnd : Action (ReadStream × δ) Unit) := by
  rintro ⟨stream, value⟩ ⟨⟩ q hroomy hrun
  have hend := readEnd_eq .wrapping hroomy.valid
  have hend' := readEnd_eq .unchecked hroomy.valid
  rw [onState_apply, show serializeEnd .wrapping stream = _ from hend] at hrun
  rw [onState_apply, show serializeEnd .unchecked stream = _ from hend']
  refine ⟨hrun, ?_⟩
  split at hrun
  · cases hrun
  · split at hrun
    · cases hrun
    · split at hrun
      · cases hrun
        exact ⟨hroomy.valid.moved (le_refl _), hroomy.room⟩
      · cases hrun

end Unwraps

/-- A group of bits that is declared too wide is refused, wherever its end comes to lie. -/
theorem serializeBits_of_wide {stream : ReadStream} (h : stream.Valid) {width : U32}
    (hwide : ¬width.toNat ≤ 32) (value : U32) :
    serializeBits width .wrapping (stream, value)
      = (latch (bitsRefusal width) .wrapping stream).mapState fun stream' => (stream', value) := by
  have hillegal : ¬(1 ≤ width.toNat ∧ width.toNat ≤ 32) := fun hlegal => hwide hlegal.2
  rw [serializeBits_to .wrapping h (checkedAdd_wrapping 64 stream.reader.bitsRead width.toNat),
    if_pos (.inr (.inr hillegal))]

/-- Where 64 bits hold its bit count a stream is built alike under every profile. -/
theorem Over.of_wrapping {stream : ReadStream} {packet : List U8} (h : stream.Over packet .wrapping)
    (hlength : packet.length < 2 ^ 61) : stream.Over packet .unchecked := by
  obtain ⟨slack, hnew⟩ := h
  have hle : packet.length ≤ (packet ++ slack).length := by
    rw [List.length_append]
    exact Nat.le_add_right _ _
  have hfits : packet.length * 8 < 2 ^ 64 := by omega
  refine ⟨slack, ?_⟩
  rw [new_to hle (checkedMul_of hfits .wrapping ())] at hnew
  rw [new_to hle (checkedMul_of hfits .unchecked ())]
  exact hnew

section Operations

variable [Arithmetic]

theorem Operation.run_unwraps_of_narrow {operation : Operation} (hnarrow : operation.decoder.Narrow 32) :
    Unwraps (operation.run : Action (ReadStream × operation.Value) Unit) := by
  rintro ⟨stream, value⟩ ⟨⟩ q hroomy hrun
  have hstored := operation.run_stores .unchecked stream value hroomy.valid
  have hlimit : stream.cursor.limit + 32 < 2 ^ 64 := by
    rw [hroomy.valid.limit_cursor]
    exact hroomy.room
  have hlax : Profile.wrapping.Relaxes .unchecked := trivial
  have hagree : ∀ {outcome}, operation.run .unchecked (stream, value) = outcome → outcome.Returned →
      outcome = .ok () q := by
    rintro _ rfl hreturned
    exact ((inferInstance : ProfilesAgree operation.run).agree hlax _ hreturned).symm.trans hrun
  rcases hd : operation.decoder.run stream.cursor with ⟨final, c⟩ | ⟨error, c⟩ | c
  · rw [hd] at hstored
    obtain ⟨p, hm, hvalid, hcursor, hfinal⟩ := hstored.of_ok
    obtain rfl : p = q := (Outcome.ok.inj (hagree hm trivial)).2
    have hlive := (Decoder.live_of_run_eq_ok operation.decoder_guarded hd).1
    have hsettles := Decoder.run_settles operation.decoder hlive
    rw [hd] at hsettles
    have hlimit' := hsettles.1.limit_eq
    rw [← hcursor, hvalid.limit_cursor, hroomy.valid.limit_cursor] at hlimit'
    exact ⟨hm, hvalid, by rw [hlimit']; exact hroomy.room⟩
  · rw [hd] at hstored
    obtain ⟨p, hm, -⟩ := hstored.of_err
    cases hagree hm trivial
  · exact (Decoder.run_ne_trap hnarrow hlimit c hd).elim

theorem Operation.run_unwraps (operation : Operation) :
    Unwraps (operation.run : Action (ReadStream × operation.Value) Unit) := by
  by_cases hwide : ∃ width, operation = .bits width ∧ ¬width.toNat ≤ 32
  · obtain ⟨width, rfl, hwide⟩ := hwide
    rintro ⟨stream, value⟩ ⟨⟩ q hroomy hrun
    rw [show (Operation.bits width).run .wrapping (stream, value) = _ from
      serializeBits_of_wide hroomy.valid hwide value] at hrun
    cases hrun
  · refine Operation.run_unwraps_of_narrow (operation.decoder_narrow fun width hoperation => ?_)
    by_contra hlong
    exact hwide ⟨width, hoperation, hlong⟩

theorem Program.run_unwraps (program : Program) (memory : Memory) :
    Unwraps (program.run memory : Action (ReadStream × List Carried) Unit) := by
  induction program with
  | done => exact Unwraps.pure ()
  | step operation next ih =>
      exact Unwraps.load.bind fun log => (operation.run_unwraps.inLocal).bind fun value =>
        (Unwraps.store _).bind fun _ => ih value
  | object body next ihbody ih =>
      exact Unwraps.load.bind fun log => ihbody.object.bind fun _ =>
        Unwraps.load.bind fun log' => ih _
  | finish next ih => exact Unwraps.finish.bind fun _ => ih

theorem Program.runToEnd_unwraps (program : Program) (memory : Memory) :
    Unwraps (program.runToEnd memory : Action (ReadStream × List Carried) Unit) :=
  (program.run_unwraps memory).bind fun _ => Unwraps.finish

end Operations

end Serialize
