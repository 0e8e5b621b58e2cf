import Serialize.Reader.Runs

/-!
# The states of a read stream

Whatever a client calls on a read stream, in either build, it keeps what its construction set up. Two
calls whose decoders accept related values and are otherwise the same end alike on every such state.
-/

namespace Serialize

open Machine Decode
open Binary32 (Arithmetic)

namespace ReadStream

/-- A state some client's run leaves some stream in. -/
def Reachable [Arithmetic] (stream : ReadStream) : Prop :=
  ∃ (buffer : List U8) (bytes : Nat) (build : Build) (start : ReadStream) (ω : Type)
    (client : Client ω), ReadStream.new buffer bytes build () = .ok start () ∧
      (client.run build (start, Log.empty)).state.1 = stream

/-- **Every reachable read stream is valid.** -/
theorem Reachable.valid [Arithmetic] {stream : ReadStream} (h : stream.Reachable) : stream.Valid := by
  obtain ⟨buffer, bytes, build, start, ω, client, hnew, rfl⟩ := h
  obtain ⟨hbits, rfl⟩ := new_eq_ok_iff.mp hnew
  exact (client.run_leaves_sound (fresh_valid hbits) build).valid

theorem reachable_fresh [Arithmetic] {buffer : List U8} {bytes : Nat}
    (h : accepted buffer bytes * 8 < 2 ^ 64) : (fresh buffer bytes).Reachable :=
  ⟨buffer, bytes, .checked, fresh buffer bytes, Unit, .done (.ok ()) (),
    new_eq_ok_iff.mpr ⟨h, rfl⟩, rfl⟩

/-! ### How a call comes back -/

section Outcomes

variable {δ : Type}

/-- The call is accepted with `value`, `n` bits further on. -/
def Accepts (stream : ReadStream) (n : Nat) (value : δ) (outcome : Outcome Error (ReadStream × δ) Unit) :
    Prop :=
  ∃ stream', outcome = .ok () (stream', value)
    ∧ bitsProcessed stream' = bitsProcessed stream + n ∧ stream'.failure = none

/-- The call is refused for `error`, which the stream shows from then on, and leaves the caller's
value as it was. -/
def Refuses (error : Error) (prior : δ) (outcome : Outcome Error (ReadStream × δ) Unit) : Prop :=
  ∃ stream', outcome = .err error (stream', prior) ∧ stream'.failure = some error

/-- The call is refused `n` bits further on. -/
def RefusesAfter (stream : ReadStream) (n : Nat) (error : Error) (prior : δ)
    (outcome : Outcome Error (ReadStream × δ) Unit) : Prop :=
  ∃ stream', outcome = .err error (stream', prior)
    ∧ bitsProcessed stream' = bitsProcessed stream + n ∧ stream'.failure = some error

variable {m : Action (ReadStream × δ) Unit} {d : Decoder Error δ} {stream : ReadStream}
  {c : Cursor Error} {value prior : δ} {error : Error} {n : Nat} {build : Build}
  {outcome : Outcome Error (ReadStream × δ) Unit}

theorem Accepts.returned (h : stream.Accepts n value outcome) : outcome.Returned := by
  obtain ⟨stream', rfl, -⟩ := h
  trivial

theorem Refuses.returned (h : Refuses error prior outcome) : outcome.Returned := by
  obtain ⟨stream', rfl, -⟩ := h
  trivial

theorem RefusesAfter.returned (h : stream.RefusesAfter n error prior outcome) : outcome.Returned := by
  obtain ⟨stream', rfl, -⟩ := h
  trivial

theorem accepts_of_run (hm : Stores m d) (hstream : stream.Valid)
    (hrun : d.run stream.cursor = .ok value c) (hposition : c.position = stream.cursor.position + n)
    (hlive : c.Live) : stream.Accepts n value (m build (stream, prior)) := by
  have hstored := hm build stream prior hstream
  rw [hrun] at hstored
  obtain ⟨⟨stream', value'⟩, hcall, -, hcursor, rfl⟩ := hstored.of_ok
  refine ⟨stream', hcall, ?_, ?_⟩
  · rw [← hcursor] at hposition
    exact hposition
  · rw [← hcursor] at hlive
    exact hlive

theorem refuses_of_run (hm : Stores m d) (hstream : stream.Valid)
    (hrun : d.run stream.cursor = .err error c) (hfailed : c.failed = some error) :
    Refuses error prior (m build (stream, prior)) := by
  have hstored := hm build stream prior hstream
  rw [hrun] at hstored
  obtain ⟨⟨stream', value'⟩, hcall, -, hcursor, rfl⟩ := hstored.of_err
  rw [← hcursor] at hfailed
  exact ⟨stream', hcall, hfailed⟩

theorem refusesAfter_of_run (hm : Stores m d) (hstream : stream.Valid)
    (hrun : d.run stream.cursor = .err error c) (hposition : c.position = stream.cursor.position + n)
    (hfailed : c.failed = some error) :
    stream.RefusesAfter n error prior (m build (stream, prior)) := by
  have hstored := hm build stream prior hstream
  rw [hrun] at hstored
  obtain ⟨⟨stream', value'⟩, hcall, -, hcursor, rfl⟩ := hstored.of_err
  rw [← hcursor] at hposition hfailed
  exact ⟨stream', hcall, hposition, hfailed⟩

theorem run_of_refusesAfter (hm : Stores m d) (hstream : stream.Valid)
    (h : stream.RefusesAfter n error prior (m build (stream, prior))) :
    ∃ c, d.run stream.cursor = .err error c ∧ c.position = stream.cursor.position + n := by
  obtain ⟨stream', hcall, hposition, -⟩ := h
  have hstored := hm build stream prior hstream
  rw [hcall] at hstored
  rcases hrun : d.run stream.cursor with ⟨value, c⟩ | ⟨error', c⟩ | c
  · rw [hrun] at hstored
    exact hstored.elim
  · rw [hrun] at hstored
    obtain ⟨rfl, -, rfl, -⟩ := hstored
    exact ⟨_, rfl, hposition⟩
  · rw [hrun] at hstored
    exact hstored.elim

theorem traps_of_run (hm : Stores m d) (hstream : stream.Valid) (hrun : d.run stream.cursor = .trap c) :
    ∃ p, m build (stream, prior) = .trap p := by
  have hstored := hm build stream prior hstream
  rw [hrun] at hstored
  obtain ⟨p, hcall, -⟩ := hstored.of_trap
  exact ⟨p, hcall⟩

/-- A live stream refuses a call for the reason its decoder does, and no other. -/
theorem answered_of_settles (hm : Stores m d) (hstream : stream.Valid)
    (hlive : stream.cursor.Live) {refusal : Option Error}
    (hsettles : SettlesAs refusal (d.run stream.cursor)) :
    (∀ error, Refuses error prior (m build (stream, prior)) ↔ refusal = some error)
      ∧ ((∃ n value, stream.Accepts n value (m build (stream, prior)))
        ∨ ∃ error, Refuses error prior (m build (stream, prior))) := by
  rcases hrun : d.run stream.cursor with ⟨value, c⟩ | ⟨error, c⟩ | c
  · rw [hrun] at hsettles
    cases refusal with
    | some error => exact hsettles.elim
    | none =>
      have hreaches := Decoder.run_settles d hlive
      rw [hrun] at hreaches
      have hposition := (Nat.add_sub_of_le hreaches.1.position_le).symm
      have haccepts := @accepts_of_run _ m d stream c value prior _ build hm hstream hrun hposition
        hsettles
      refine ⟨fun error => ⟨?_, fun heq => by cases heq⟩, .inl ⟨_, value, haccepts⟩⟩
      rintro ⟨stream', hcall, -⟩
      obtain ⟨stream'', hcall', -⟩ := haccepts
      rw [hcall] at hcall'
      cases hcall'
  · rw [hrun] at hsettles
    cases refusal with
    | some reason =>
      obtain ⟨rfl, hfailed⟩ := hsettles
      have hrefuses := @refuses_of_run _ m d stream c prior _ build hm hstream hrun hfailed
      refine ⟨fun error' => ⟨?_, ?_⟩, .inr ⟨error, hrefuses⟩⟩
      · rintro ⟨stream', hcall, -⟩
        obtain ⟨stream'', hcall', -⟩ := hrefuses
        rw [hcall] at hcall'
        cases hcall'
        rfl
      · rintro heq
        cases heq
        exact hrefuses
    | none => exact hsettles.elim
  · rw [hrun] at hsettles
    cases refusal with
    | some error => exact hsettles.elim
    | none => exact hsettles.elim

/-- **A live stream accepts exactly the codes** that its next bits start with. -/
theorem accepts_iff_code (hm : Stores m d) {Domain : δ → Prop} {code : Nat → δ → List Bool}
    (hcodes : d.Codes Domain code) (hstream : stream.Valid) (hlive : stream.cursor.Live) :
    stream.Accepts n value (m build (stream, prior)) ↔ Domain value
      ∧ code stream.cursor.position value <+: stream.cursor.remaining
      ∧ n = (code stream.cursor.position value).length := by
  constructor
  · rintro ⟨stream', hcall, hposition, hfailure⟩
    have hstored := hm build stream prior hstream
    rw [hcall] at hstored
    rcases hrun : d.run stream.cursor with ⟨value', c⟩ | ⟨error, c⟩ | c
    · rw [hrun] at hstored
      obtain ⟨-, hcursor, hvalue⟩ := hstored
      obtain rfl : value = value' := hvalue
      obtain ⟨hdomain, hremaining, hend⟩ := (hcodes _ _ _ _ _).mp
        (Decoder.parse_of_run_eq_ok hlive hrun)
      have hmoved : c.position = stream.cursor.position + n := by
        rw [← hcursor]
        exact hposition
      exact ⟨hdomain, ⟨_, hremaining.symm⟩, by omega⟩
    · rw [hrun] at hstored
      exact hstored.elim
    · rw [hrun] at hstored
      exact hstored.elim
  · rintro ⟨hdomain, ⟨rest, hrest⟩, rfl⟩
    have hparse := (hcodes stream.cursor.position stream.cursor.remaining value _ rest).mpr
      ⟨hdomain, hrest.symm, rfl⟩
    exact accepts_of_run hm hstream (Decoder.run_of_parse hlive hstream.limit_lt hparse) rfl rfl

end Outcomes

/-! ### Calls that end alike -/

/-- Two streams stand at one place with one latch. -/
def SamePlace (stream stream' : ReadStream) : Prop :=
  bitsProcessed stream = bitsProcessed stream' ∧ stream.failure = stream'.failure

/-- Two calls end alike: with the same result, at the same place, and with related values where they
are accepted. -/
def EndAlike {δ κ : Type} (Related : δ → κ → Prop) :
    Outcome Error (ReadStream × δ) Unit → Outcome Error (ReadStream × κ) Unit → Prop
  | .ok () p, .ok () q => Related p.2 q.2 ∧ SamePlace p.1 q.1
  | .err error p, .err error' q => error = error' ∧ SamePlace p.1 q.1
  | .trap p, .trap q => SamePlace p.1 q.1
  | _, _ => False

theorem samePlace_of_cursor {stream stream' : ReadStream} (h : stream.cursor = stream'.cursor) :
    SamePlace stream stream' :=
  ⟨congrArg Cursor.position h, congrArg Cursor.failed h⟩

/-- A decoder, and what is made of the value it accepts. -/
theorem endAlike_of_stores {δ κ : Type} {m : Action (ReadStream × δ) Unit}
    {n : Action (ReadStream × κ) Unit} {d : Decoder Error δ} {f : δ → κ} {Related : δ → κ → Prop}
    (hm : Stores m d) (hn : Stores n (d >>= fun value => pure (f value)))
    {stream : ReadStream} (hstream : stream.Valid)
    (hrelated : ∀ value c, d.run stream.cursor = .ok value c → Related value (f value))
    (build : Build) (value : δ) (value' : κ) :
    EndAlike Related (m build (stream, value)) (n build (stream, value')) := by
  have hleft := hm build stream value hstream
  have hright := hn build stream value' hstream
  rw [Decoder.bind_eq, Decoder.run_bind] at hright
  rcases hd : d.run stream.cursor with ⟨final, c⟩ | ⟨error, c⟩ | c
  · rw [hd] at hleft hright
    obtain ⟨p, hp, -, hcursor, rfl⟩ := hleft.of_ok
    obtain ⟨q, hq, -, hcursor', hfinal⟩ := hright.of_ok
    rw [hp, hq]
    refine ⟨?_, samePlace_of_cursor (hcursor.trans hcursor'.symm)⟩
    rw [hfinal]
    exact hrelated _ _ hd
  · rw [hd] at hleft hright
    obtain ⟨p, hp, -, hcursor, -⟩ := hleft.of_err
    obtain ⟨q, hq, -, hcursor', -⟩ := hright.of_err
    rw [hp, hq]
    exact ⟨rfl, samePlace_of_cursor (hcursor.trans hcursor'.symm)⟩
  · rw [hd] at hleft hright
    obtain ⟨p, hp, -, hcursor, -⟩ := hleft.of_trap
    obtain ⟨q, hq, -, hcursor', -⟩ := hright.of_trap
    rw [hp, hq]
    exact samePlace_of_cursor (hcursor.trans hcursor'.symm)

end ReadStream

end Serialize
