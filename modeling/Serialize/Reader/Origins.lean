import Serialize.Reader.Runs

/-!
# Where a refusal comes from

A stream holds a refusal after a client's run exactly where some step of the run recorded it: an
operation that refused, a reason the client named, or an object that returned one with nothing
recorded before. Which step that is does not depend on the log.
-/

namespace Serialize

open Machine Decode
open Binary32 (Arithmetic)
open ReadStream

/-- What recorded a refusal on a stream. -/
inductive Origin where
  /-- An operation refused what the packet holds. -/
  | operation (operation : Operation) (reason : Error)
  /-- The end of the packet was not where it was looked for. -/
  | finish (reason : Error)
  | fail (reason : Error)
  | reject
  /-- A nested object returned the reason, and nothing had recorded one. -/
  | object (reason : Error)

def Origin.reason : Origin → Error
  | .operation _ reason | .finish reason | .fail reason | .object reason => reason
  | .reject => .rejected

variable {α δ ω : Type}

section Records

variable [Arithmetic]

/-- In its run on a live stream the client comes, with no refusal before it, to a step that records
one of this origin. -/
inductive Records (build : Build) : ReadStream → Client ω → Origin → Prop where
  | observe {stream : ReadStream} {next : Observation → Client ω} {origin : Origin} :
      Records build stream (next (Reader.observation stream)) origin →
      Records build stream (.observe next) origin
  | refused {stream : ReadStream} {operation : Operation} {prior : operation.Value}
      {next : Result → operation.Value → Client ω} {reason : Error}
      {p : ReadStream × operation.Value} :
      operation.run build (stream, prior) = .err reason p →
      Records build stream (.call operation prior next) (.operation operation reason)
  | call {stream stream' : ReadStream} {operation : Operation} {prior value : operation.Value}
      {next : Result → operation.Value → Client ω} {origin : Origin} :
      operation.run build (stream, prior) = .ok () (stream', value) →
      Records build stream' (next (.ok ()) value) origin →
      Records build stream (.call operation prior next) origin
  | unfinished {stream stream' : ReadStream} {next : Result → Client ω} {reason : Error} :
      serializeEnd build stream = .err reason stream' →
      Records build stream (.finish next) (.finish reason)
  | finish {stream stream' : ReadStream} {next : Result → Client ω} {origin : Origin} :
      serializeEnd build stream = .ok () stream' → Records build stream' (next (.ok ())) origin →
      Records build stream (.finish next) origin
  | fail {stream : ReadStream} {error : Error} {next : Result → Client ω} :
      Records build stream (.fail error next) (.fail error)
  | reject {stream : ReadStream} {next : Result → Client ω} :
      Records build stream (.reject next) .reject
  | inside {stream : ReadStream} {prior : ω} {body : Client ω} {next : Result → ω → Client ω}
      {origin : Origin} :
      Records build stream body origin → Records build stream (.object prior body next) origin
  | returned {stream stream' : ReadStream} {prior memory : ω} {body : Client ω}
      {next : Result → ω → Client ω} {reason : Error} {log log' : Log ω} :
      body.run build (stream, log) = .ok (.error reason, memory) (stream', log') →
      stream'.failure = none → Records build stream (.object prior body next) (.object reason)
  | object {stream stream' : ReadStream} {prior memory : ω} {body : Client ω}
      {next : Result → ω → Client ω} {origin : Origin} {log log' : Log ω} :
      body.run build (stream, log) = .ok (.ok (), memory) (stream', log') →
      stream'.failure = none → Records build stream' (next (.ok ()) memory) origin →
      Records build stream (.object prior body next) origin

end Records

/-! ### A run comes back or panics -/

/-- The computation never ends in an error of its own. -/
def NeverErrs {σ : Type} (m : Action σ α) : Prop := ∀ profile p error q, m profile p ≠ .err error q

namespace NeverErrs

variable {σ : Type}

theorem pure (value : α) : NeverErrs (pure value : Action σ α) := fun _ _ _ _ h => nomatch h

theorem bind {β : Type} {m : Action σ α} {next : α → Action σ β} (h : NeverErrs m)
    (hnext : ∀ value, NeverErrs (next value)) : NeverErrs (m >>= next) := by
  intro profile p error q heq
  rw [bind_apply] at heq
  rcases hm : m profile p with ⟨value, p'⟩ | ⟨error', p'⟩ | p'
  · rw [hm] at heq
    exact hnext value profile p' error q heq
  · exact h profile p error' p' hm
  · rw [hm] at heq
    cases heq

end NeverErrs

namespace Client

variable {R : Type} [Reader R]

theorem look_neverErrs : NeverErrs (look : Action (R × Log ω) Observation) :=
  fun _ _ _ _ h => nomatch h

omit [Reader R] in
theorem handing_neverErrs (prior : δ) (call : Action (R × (Log ω × δ)) Unit) :
    NeverErrs (handing prior call) := by
  intro build p error q heq
  rw [handing] at heq
  split at heq <;> cases heq

theorem logged_neverErrs (describe : δ → Call ω) {call : Action (R × Log ω) (Result × δ)}
    (h : NeverErrs call) : NeverErrs (logged describe call) :=
  look_neverErrs.bind fun _ => h.bind fun _ => look_neverErrs.bind fun _ =>
    NeverErrs.bind (fun _ _ _ _ h => nomatch h) fun _ => .pure _

theorem run_neverErrs (client : Client ω) :
    NeverErrs (client.run : Action (R × Log ω) (Result × ω)) := by
  induction client with
  | done result memory => exact .pure _
  | observe next ih => exact look_neverErrs.bind ih
  | call operation prior next ih =>
      exact (logged_neverErrs _ (handing_neverErrs _ _)).bind fun answer => ih answer.1 answer.2
  | finish next ih =>
      exact (logged_neverErrs _ (handing_neverErrs _ _)).bind fun answer => ih answer.1
  | fail error next ih =>
      exact (logged_neverErrs _ (handing_neverErrs _ _)).bind fun answer => ih answer.1
  | reject next ih =>
      exact (logged_neverErrs _ (handing_neverErrs _ _)).bind fun answer => ih answer.1
  | object prior body next _ ih =>
      exact (logged_neverErrs _ (handing_neverErrs _ _)).bind fun answer => ih answer.1 answer.2.1

/-! ### A run does not look at its log -/

/-- The reader is the same. -/
def SameReader (p q : R × Log ω) : Prop := p.1 = q.1

/-- Whatever the log, the computation does the same to the reader. -/
def Blind (m : Action (R × Log ω) α) : Prop :=
  ∀ profile, SimUnder profile SameReader NoEscape m m

omit [Reader R] in
theorem Blind.bind {β : Type} {m : Action (R × Log ω) α} {next : α → Action (R × Log ω) β}
    (h : Blind m) (hnext : ∀ value, Blind (next value)) : Blind (m >>= next) :=
  fun profile => (h profile).bind fun value => hnext value profile

theorem look_blind : Blind (look : Action (R × Log ω) Observation) := by
  rintro profile ⟨reader, log⟩ ⟨_, log'⟩ rfl
  exact ⟨rfl, rfl⟩

omit [Reader R] in
theorem handing_quietly (prior : δ) (call : Action (R × δ) Unit) (profile : Profile) (reader : R)
    (log : Log ω) : handing prior (quietly call) profile (reader, log)
      = match call profile (reader, prior) with
        | .ok () (reader', final) => .ok (.ok (), final) (reader', log)
        | .err error (reader', final) => .ok (.error error, final) (reader', log)
        | .trap (reader', _) => .trap (reader', log) := by
  rw [handing, quietly, focus_apply]
  rcases call profile (reader, prior) with ⟨⟨⟩, reader', final⟩ | ⟨error, reader', final⟩ | ⟨reader', final⟩
  · rfl
  · rfl
  · rfl

omit [Reader R] in
theorem handing_blind (prior : δ) (call : Action (R × δ) Unit) :
    Blind (ω := ω) (handing prior (quietly call)) := by
  rintro profile ⟨reader, log⟩ ⟨_, log'⟩ rfl
  rw [handing_quietly, handing_quietly]
  rcases call profile (reader, prior) with ⟨⟨⟩, reader', final⟩ | ⟨error, reader', final⟩ | ⟨reader', final⟩
  · exact ⟨rfl, rfl⟩
  · exact ⟨rfl, rfl⟩
  · exact rfl

theorem logged_blind (describe : δ → Call ω) {call : Action (R × Log ω) (Result × δ)}
    (h : Blind call) : Blind (logged describe call) := by
  refine look_blind.bind fun before => h.bind fun answer => look_blind.bind fun after =>
    Blind.bind ?_ fun _ _ => SimUnder.pure answer
  rintro profile ⟨reader, log⟩ ⟨_, log'⟩ rfl
  exact ⟨rfl, rfl⟩

theorem handing_object {stream : ReadStream} (hlive : stream.failed = none)
    (body : Action (ReadStream × Log ω) (Result × ω)) (prior : ω) (profile : Profile) (log : Log ω) :
    handing (prior, false) (serializeObject (method body)) profile (stream, log)
      = match body profile (stream, log) with
        | .ok (.ok (), memory) (stream', log') =>
            .ok (stream'.failed.elim (.ok ()) .error, memory, true) (stream', log')
        | .ok (.error error, memory) (stream', log') =>
            .ok (.error (stream'.failed.getD error), memory, true)
              ({ stream' with failed := some (stream'.failed.getD error) }, log')
        | .err error (stream', log') => .ok (.error (stream'.failed.getD error), prior, true)
            ({ stream' with failed := some (stream'.failed.getD error) }, log')
        | .trap p => .trap p := by
  rw [handing, serializeObject_of_live hlive]
  dsimp only [method]
  rcases body profile (stream, log) with ⟨⟨error | ⟨⟩, memory⟩, stream', log'⟩ | ⟨error, stream', log'⟩ | p
  · rfl
  · dsimp only
    cases stream'.failed with
    | none => rfl
    | some reason => rfl
  · rfl
  · rfl

theorem handing_object_failed {stream : ReadStream} {reason : Error} (h : stream.failed = some reason)
    (body : Action (ReadStream × Log ω) (Result × ω)) (prior : ω) (profile : Profile) (log : Log ω) :
    handing (prior, false) (serializeObject (method body)) profile (stream, log)
      = .ok (.error reason, prior, false) (stream, log) := by
  rw [handing, serializeObject_of_failed h]

section Ends

variable {stream stream' : ReadStream} {body : Action (ReadStream × Log ω) (Result × ω)} {profile : Profile}
  {log log' : Log ω} (hlive : stream.failed = none) (prior : ω)

include hlive

/-- What its method recorded is what an object refuses with, whatever its method returned. -/
theorem handing_object_recorded {answer : Result × ω} {first : Error}
    (hbody : body profile (stream, log) = .ok answer (stream', log'))
    (hfailed : stream'.failed = some first) :
    handing (prior, false) (serializeObject (method body)) profile (stream, log)
      = .ok (.error first, answer.2, true) (stream', log') := by
  rw [handing_object hlive, hbody]
  obtain ⟨error | ⟨⟩, memory⟩ := answer
  · dsimp only
    rw [hfailed, Option.getD_some, ← hfailed]
  · dsimp only
    rw [hfailed, Option.elim_some]

theorem handing_object_returned {memory : ω} {error : Error}
    (hbody : body profile (stream, log) = .ok (.error error, memory) (stream', log'))
    (hnone : stream'.failed = none) :
    handing (prior, false) (serializeObject (method body)) profile (stream, log)
      = .ok (.error error, memory, true) ({ stream' with failed := some error }, log') := by
  rw [handing_object hlive, hbody]
  dsimp only
  rw [hnone, Option.getD_none]

theorem handing_object_accepted {memory : ω}
    (hbody : body profile (stream, log) = .ok (.ok (), memory) (stream', log'))
    (hnone : stream'.failed = none) :
    handing (prior, false) (serializeObject (method body)) profile (stream, log)
      = .ok (.ok (), memory, true) (stream', log') := by
  rw [handing_object hlive, hbody]
  dsimp only
  rw [hnone, Option.elim_none]

theorem handing_object_trap {p : ReadStream × Log ω} (hbody : body profile (stream, log) = .trap p) :
    handing (prior, false) (serializeObject (method body)) profile (stream, log) = .trap p := by
  rw [handing_object hlive, hbody]

end Ends

theorem object_blind {body : Action (ReadStream × Log ω) (Result × ω)} (h : Blind body) (prior : ω) :
    Blind (handing (prior, false) (serializeObject (method body))) := by
  rintro profile ⟨stream, log⟩ ⟨_, log'⟩ rfl
  rcases hfailed : stream.failed with - | reason
  · have hmatch := h profile (stream, log) (stream, log') rfl
    rw [handing_object hfailed, handing_object hfailed]
    rcases hm : body profile (stream, log) with ⟨⟨error | ⟨⟩, memory⟩, stream', final⟩ |
      ⟨error, stream', final⟩ | p
    · rw [hm] at hmatch
      obtain ⟨⟨_, final'⟩, hn, rfl⟩ := hmatch.ok_left
      rw [hn]
      exact ⟨rfl, rfl⟩
    · rw [hm] at hmatch
      obtain ⟨⟨_, final'⟩, hn, rfl⟩ := hmatch.ok_left
      rw [hn]
      exact ⟨rfl, rfl⟩
    · rw [hm] at hmatch
      obtain hescape | ⟨⟨_, final'⟩, hn, rfl⟩ := hmatch.err_left
      · exact hescape.elim
      rw [hn]
      exact ⟨rfl, rfl⟩
    · rw [hm] at hmatch
      obtain ⟨q, hn, hsame⟩ := hmatch.trap_left
      rw [hn]
      exact hsame
  · rw [handing_object_failed hfailed, handing_object_failed hfailed]
    exact ⟨rfl, rfl⟩

/-- **A client's run on a stream does not depend on the log.** -/
theorem run_blind [Arithmetic] (client : Client ω) :
    Blind (client.run : Action (ReadStream × Log ω) (Result × ω)) := by
  induction client with
  | done result memory => exact fun _ => SimUnder.pure _
  | observe next ih => exact look_blind.bind ih
  | call operation prior next ih =>
      exact (logged_blind _ (handing_blind _ _)).bind fun answer => ih answer.1 answer.2
  | finish next ih =>
      exact (logged_blind _ (handing_blind _ _)).bind fun answer => ih answer.1
  | fail error next ih =>
      exact (logged_blind _ (handing_blind _ _)).bind fun answer => ih answer.1
  | reject next ih =>
      exact (logged_blind _ (handing_blind _ _)).bind fun answer => ih answer.1
  | object prior body next ihbody ih =>
      exact (logged_blind _ (object_blind ihbody prior)).bind fun answer => ih answer.1 answer.2.1

end Client

section Failures

variable [Arithmetic] {build : Build} {stream : ReadStream}

/-- A run keeps the stream valid, and a refusal it holds. -/
theorem Client.run_keeps_failure (h : stream.Valid) (client : Client ω) (build : Build) (log : Log ω) :
    (client.run build (stream, log)).state.1.Valid
      ∧ ∀ reason, stream.failure = some reason →
        (client.run build (stream, log)).state.1.failure = some reason := by
  have hmatch := client.run_sim build (stream, log) (stream.cursor, log) ⟨⟨h, rfl⟩, rfl⟩
  obtain ⟨⟨hvalid, hcursor⟩, -⟩ := hmatch.state fun _ _ hescape => hescape
  obtain ⟨⟨-, hprecedes⟩, -⟩ := client.run_keeps build (stream.cursor, log)
  refine ⟨hvalid, fun reason hreason => ?_⟩
  have hkept := hprecedes.failure reason hreason
  rw [← hcursor] at hkept
  exact hkept

theorem Client.run_ok_of_ok {client : Client ω} {log log' : Log ω} {answer : Result × ω}
    {stream' : ReadStream} (h : client.run build (stream, log) = .ok answer (stream', log')) (other : Log ω) :
    ∃ log'', client.run build (stream, other) = .ok answer (stream', log'') := by
  have hmatch := client.run_blind build (stream, log) (stream, other) rfl
  rw [h] at hmatch
  obtain ⟨⟨_, log''⟩, hrun, rfl⟩ := hmatch.ok_left
  exact ⟨log'', hrun⟩

/-- Where the refusals of a nested object come from, whatever the log its method runs on. -/
theorem records_object_iff (log : Log ω) {prior : ω} {body : Client ω} {next : Result → ω → Client ω}
    {origin : Origin} : Records build stream (.object prior body next) origin
      ↔ Records build stream body origin
        ∨ (∃ reason memory stream' log',
          body.run build (stream, log) = .ok (.error reason, memory) (stream', log')
            ∧ stream'.failure = none ∧ origin = .object reason)
        ∨ ∃ memory stream' log', body.run build (stream, log) = .ok (.ok (), memory) (stream', log')
          ∧ stream'.failure = none ∧ Records build stream' (next (.ok ()) memory) origin := by
  constructor
  · intro h
    cases h with
    | inside h => exact .inl h
    | returned hrun hlive =>
        obtain ⟨log', hrun'⟩ := Client.run_ok_of_ok hrun log
        exact .inr (.inl ⟨_, _, _, _, hrun', hlive, rfl⟩)
    | object hrun hlive h =>
        obtain ⟨log', hrun'⟩ := Client.run_ok_of_ok hrun log
        exact .inr (.inr ⟨_, _, _, hrun', hlive, h⟩)
  · rintro (h | ⟨_, _, _, _, hrun, hlive, rfl⟩ | ⟨_, _, _, hrun, hlive, h⟩)
    · exact .inside h
    · exact .returned hrun hlive
    · exact .object hrun hlive h

/-! ### What a call leaves of a live stream -/

/-- What is live stays live where a call is accepted, and holds the reason where it is refused. -/
def LeavesLive {σ : Type} (failure : σ → Option Error) : Outcome Error σ α → Prop
  | .ok _ state => failure state = none
  | .err error state => failure state = some error
  | .trap state => failure state = none

omit [Arithmetic] in
theorem leavesLive_of_sim {m : Action (ReadStream × δ) Unit} {n : Action (Cursor Error × δ) Unit}
    (hm : CallSim Stands NoEscape m n) (hvalid : stream.Valid) {build : Build} {prior : δ}
    (h : LeavesLive (fun q => q.1.failed) (n build (stream.cursor, prior))) :
    (m build (stream, prior)).state.1.Valid
      ∧ LeavesLive (fun p => p.1.failure) (m build (stream, prior)) := by
  have hmatch := hm build (stream, prior) (stream.cursor, prior) ⟨⟨hvalid, rfl⟩, rfl⟩
  refine ⟨(hmatch.state fun _ _ hescape => hescape).1.1, ?_⟩
  rcases hcall : m build (stream, prior) with ⟨⟨⟩, p⟩ | ⟨error, p⟩ | p
  · rw [hcall] at hmatch
    obtain ⟨q, hn, ⟨-, hcursor⟩, -⟩ := hmatch.ok_left
    rw [hn, LeavesLive, ← hcursor] at h
    exact h
  · rw [hcall] at hmatch
    obtain hescape | ⟨q, hn, ⟨-, hcursor⟩, -⟩ := hmatch.err_left
    · exact hescape.elim
    rw [hn, LeavesLive, ← hcursor] at h
    exact h
  · rw [hcall] at hmatch
    obtain ⟨q, hn, ⟨-, hcursor⟩, -⟩ := hmatch.trap_left
    rw [hn, LeavesLive, ← hcursor] at h
    exact h

omit [Arithmetic] in
theorem storing_leavesLive (d : Decoder Error δ) {c : Cursor Error} (h : c.Live) (build : Build)
    (prior : δ) : LeavesLive (fun q => q.1.failed) (storing d.run build (c, prior)) := by
  have hsettles := Decoder.run_settles d h
  rw [storing]
  dsimp only
  rcases hrun : d.run c with ⟨value, c'⟩ | ⟨error, c'⟩ | c'
  · rw [hrun] at hsettles
    exact hsettles.2
  · rw [hrun] at hsettles
    exact hsettles.2
  · rw [hrun] at hsettles
    exact hsettles.2.1

omit [Arithmetic] in
theorem onState_leavesLive {f : Cursor Error → Outcome Error (Cursor Error) Unit} {c : Cursor Error}
    (h : LeavesLive Cursor.failed (f c)) (build : Build) : LeavesLive (fun q => q.1.failed)
      ((onState fun _ c => f c : Action (Cursor Error × Unit) Unit) build (c, ())) := by
  show LeavesLive _ ((f c).mapState _)
  rcases hf : f c with ⟨⟨⟩, c'⟩ | ⟨error, c'⟩ | c'
  · rw [hf] at h
    exact h
  · rw [hf] at h
    exact h
  · rw [hf] at h
    exact h

omit [Arithmetic] in
theorem latch_leavesLive {c : Cursor Error} (h : c.Live) (error : Error) :
    LeavesLive Cursor.failed (c.latch error : Outcome Error (Cursor Error) Unit) := by
  rw [Cursor.latch_of_live h]
  rfl

omit [Arithmetic] in
theorem finishAt_leavesLive {c : Cursor Error} (h : c.Live) :
    LeavesLive Cursor.failed (finishAt c) := by
  rw [finishAt, show c.failed = none from h]
  dsimp only
  split
  · exact latch_leavesLive h _
  split
  · exact h
  · exact latch_leavesLive (show (c.advance c.remaining.length).Live from h) _

/-! ### One step of a run -/

/-- The failure a client's run leaves is the one its run records. -/
def FailsAsRecorded (build : Build) (client : Client ω) : Prop :=
  ∀ (stream : ReadStream) (log : Log ω), stream.Valid → stream.failure = none → ∀ reason,
    (client.run build (stream, log)).state.1.failure = some reason
      ↔ ∃ origin, Records build stream client origin ∧ origin.reason = reason

section Step

variable {log : Log ω} {reason : Error} {describe : δ → Call ω}

/-- A step and what follows it: the step was accepted and a later one records the reason, or it was
refused with the reason, or it panicked holding it. -/
theorem step_failure_iff {call : Action (ReadStream × Log ω) (Result × δ)}
    {next : Result × δ → Client ω} (hcall : NeverErrs call)
    (hnext : ∀ answer, FailsAsRecorded build (next answer))
    (hleaves : ∀ answer q,
      call build (stream, log.notice (Reader.observation stream)) = .ok answer q →
        q.1.Valid ∧ ∀ reason, answer.1 = .error reason ↔ q.1.failure = some reason) :
    ((Client.logged describe call >>= fun answer => (next answer).run)
        build (stream, log)).state.1.failure = some reason
      ↔ (∃ value q, call build (stream, log.notice (Reader.observation stream)) = .ok (.ok (), value) q
          ∧ ∃ origin, Records build q.1 (next (.ok (), value)) origin ∧ origin.reason = reason)
        ∨ (∃ value q,
          call build (stream, log.notice (Reader.observation stream)) = .ok (.error reason, value) q)
        ∨ ∃ q, call build (stream, log.notice (Reader.observation stream)) = .trap q
          ∧ q.1.failure = some reason := by
  rw [bind_apply]
  rcases hstep : call build (stream, log.notice (Reader.observation stream)) with
    ⟨⟨error | ⟨⟩, value⟩, stream', log'⟩ | ⟨error, q⟩ | q
  · obtain ⟨hvalid, hiff⟩ := hleaves _ _ hstep
    obtain ⟨log'', hlogged⟩ := Client.logged_of_ok describe hstep
    have hfailed : stream'.failure = some error := (hiff error).mp rfl
    have hkept := ((next (.error error, value)).run_keeps_failure hvalid build log'').2 error hfailed
    rw [hlogged, Outcome.bind_ok, hkept, Option.some_inj]
    constructor
    · rintro rfl
      exact .inr (.inl ⟨_, _, rfl⟩)
    · rintro (⟨_, _, heq, -⟩ | ⟨_, _, heq⟩ | ⟨_, heq, -⟩)
      · cases heq
      · cases heq
        rfl
      · cases heq
  · obtain ⟨hvalid, hiff⟩ := hleaves _ _ hstep
    obtain ⟨log'', hlogged⟩ := Client.logged_of_ok describe hstep
    have hlive : stream'.failure = none := by
      rcases hfailed : stream'.failure with - | error
      · rfl
      · cases (hiff error).mpr hfailed
    rw [hlogged, Outcome.bind_ok, hnext _ _ _ hvalid hlive]
    constructor
    · exact fun hrecords => .inl ⟨_, _, rfl, hrecords⟩
    · rintro (⟨_, _, heq, hrecords⟩ | ⟨_, _, heq⟩ | ⟨_, heq, -⟩)
      · cases heq
        exact hrecords
      · cases heq
      · cases heq
  · exact absurd hstep (hcall _ _ _ _)
  · rw [Client.logged_of_trap describe hstep, Outcome.bind_trap]
    constructor
    · exact fun hfailed => .inr (.inr ⟨_, rfl, hfailed⟩)
    · rintro (⟨_, _, heq, -⟩ | ⟨_, _, heq⟩ | ⟨_, heq, hfailed⟩)
      · cases heq
      · cases heq
      · cases heq
        exact hfailed

theorem quiet_failure_iff {m : Action (ReadStream × δ) Unit} {prior : δ}
    {next : Result × δ → Client ω} (hnext : ∀ answer, FailsAsRecorded build (next answer))
    (hm : (m build (stream, prior)).state.1.Valid
      ∧ LeavesLive (fun p => p.1.failure) (m build (stream, prior))) :
    ((Client.logged describe (Client.handing prior (Client.quietly m)) >>= fun answer =>
        (next answer).run) build (stream, log)).state.1.failure = some reason
      ↔ (∃ stream' value, m build (stream, prior) = .ok () (stream', value)
          ∧ ∃ origin, Records build stream' (next (.ok (), value)) origin ∧ origin.reason = reason)
        ∨ ∃ p, m build (stream, prior) = .err reason p := by
  obtain ⟨hvalid, hlive⟩ := hm
  have hquiet := Client.handing_quietly prior m build stream
    (log.notice (Reader.observation stream))
  rw [step_failure_iff (Client.handing_neverErrs prior (Client.quietly m)) hnext, hquiet]
  · rcases hcall : m build (stream, prior) with ⟨⟨⟩, stream', value⟩ | ⟨error, stream', value⟩ |
      ⟨stream', value⟩
    · constructor
      · rintro (⟨_, _, heq, hrecords⟩ | ⟨_, _, heq⟩ | ⟨_, heq, -⟩)
        · cases heq
          exact .inl ⟨_, _, rfl, hrecords⟩
        · cases heq
        · cases heq
      · rintro (⟨_, _, heq, hrecords⟩ | ⟨_, heq⟩)
        · cases heq
          exact .inl ⟨_, _, rfl, hrecords⟩
        · cases heq
    · constructor
      · rintro (⟨_, _, heq, -⟩ | ⟨_, _, heq⟩ | ⟨_, heq, -⟩)
        · cases heq
        · cases heq
          exact .inr ⟨_, rfl⟩
        · cases heq
      · rintro (⟨_, _, heq, -⟩ | ⟨_, heq⟩)
        · cases heq
        · cases heq
          exact .inr (.inl ⟨_, _, rfl⟩)
    · rw [hcall] at hlive
      constructor
      · rintro (⟨_, _, heq, -⟩ | ⟨_, _, heq⟩ | ⟨_, heq, hfailed⟩)
        · cases heq
        · cases heq
        · cases heq
          cases (show stream'.failure = none from hlive).symm.trans hfailed
      · rintro (⟨_, _, heq, -⟩ | ⟨_, heq⟩)
        · cases heq
        · cases heq
  · intro answer q hanswer
    rw [hquiet] at hanswer
    rcases hcall : m build (stream, prior) with ⟨⟨⟩, stream', value⟩ | ⟨error, stream', value⟩ |
      ⟨stream', value⟩
    · rw [hcall] at hanswer hvalid hlive
      cases hanswer
      refine ⟨hvalid, fun reason => iff_of_false (fun heq => nomatch heq) fun hfailed => ?_⟩
      cases (show stream'.failure = none from hlive).symm.trans hfailed
    · rw [hcall] at hanswer hvalid hlive
      cases hanswer
      refine ⟨hvalid, fun reason => ?_⟩
      rw [show stream'.failure = some error from hlive, Option.some_inj]
      exact ⟨fun heq => Except.error.inj heq, fun heq => congrArg _ heq⟩
    · rw [hcall] at hanswer
      cases hanswer

/-- How a client's run on a live stream ends: it recorded a refusal, or returned one, or accepted, or
panicked. -/
theorem run_ends (body : Client ω) (profile : Profile) (stream : ReadStream) (log : Log ω) :
    (∃ answer stream' log' first, body.run profile (stream, log) = .ok answer (stream', log')
        ∧ stream'.failed = some first)
      ∨ (∃ error memory stream' log', body.run profile (stream, log) = .ok (.error error, memory) (stream', log')
        ∧ stream'.failed = none)
      ∨ (∃ memory stream' log', body.run profile (stream, log) = .ok (.ok (), memory) (stream', log')
        ∧ stream'.failed = none)
      ∨ ∃ p, body.run profile (stream, log) = .trap p := by
  rcases hrun : body.run profile (stream, log) with ⟨⟨error | ⟨⟩, memory⟩, stream', log'⟩ | ⟨error, p⟩ | p
  · rcases hfailed : stream'.failed with - | first
    · exact .inr (.inl ⟨_, _, _, _, rfl, hfailed⟩)
    · exact .inl ⟨_, _, _, _, rfl, hfailed⟩
  · rcases hfailed : stream'.failed with - | first
    · exact .inr (.inr (.inl ⟨_, _, _, rfl, hfailed⟩))
    · exact .inl ⟨_, _, _, _, rfl, hfailed⟩
  · exact absurd hrun (body.run_neverErrs _ _ _ _)
  · exact .inr (.inr (.inr ⟨_, rfl⟩))

theorem object_leaves (hvalid : stream.Valid) (hlive : stream.failure = none) (body : Client ω)
    (prior : ω) (log : Log ω) {answer : Result × (ω × Bool)} {q : ReadStream × Log ω}
    (h : Client.handing (prior, false) (serializeObject (Client.method body.run)) build (stream, log)
      = .ok answer q) :
    q.1.Valid ∧ ∀ reason, answer.1 = .error reason ↔ q.1.failure = some reason := by
  have hbody := (body.run_keeps_failure hvalid build log).1
  obtain ⟨_, stream', _, first, hrun, hfailed⟩ | ⟨error, _, stream', _, hrun, hnone⟩ |
    ⟨_, stream', _, hrun, hnone⟩ | ⟨_, hrun⟩ := run_ends body build stream log
  · rw [hrun] at hbody
    rw [Client.handing_object_recorded hlive prior hrun hfailed] at h
    cases h
    refine ⟨hbody, fun reason => ?_⟩
    rw [show stream'.failure = some first from hfailed]
    exact @Client.elim_eq_error_iff (some first) reason
  · rw [hrun] at hbody
    rw [Client.handing_object_returned hlive prior hrun hnone] at h
    cases h
    exact ⟨Valid.latched hbody _, @Client.elim_eq_error_iff (some error)⟩
  · rw [hrun] at hbody
    rw [Client.handing_object_accepted hlive prior hrun hnone] at h
    cases h
    refine ⟨hbody, fun reason => ?_⟩
    rw [show stream'.failure = none from hnone]
    exact @Client.elim_eq_error_iff none reason
  · rw [Client.handing_object_trap hlive prior hrun] at h
    cases h

end Step

/-! ### One constructor at a time -/

theorem failsAsRecorded_done (result : Result) (memory : ω) :
    FailsAsRecorded build (.done result memory) := by
  intro stream log hvalid hlive reason
  constructor
  · intro hfailed
    cases hlive.symm.trans hfailed
  · rintro ⟨origin, hrecords, -⟩
    cases hrecords

theorem failsAsRecorded_observe {next : Observation → Client ω}
    (hnext : ∀ observation, FailsAsRecorded build (next observation)) :
    FailsAsRecorded build (.observe next) := by
  intro stream log hvalid hlive reason
  rw [Client.run, bind_apply, Client.look, Outcome.bind_ok, hnext _ _ _ hvalid hlive]
  constructor
  · rintro ⟨origin, hrecords, hreason⟩
    exact ⟨origin, .observe hrecords, hreason⟩
  · rintro ⟨origin, hrecords, hreason⟩
    cases hrecords with
    | observe hrecords => exact ⟨origin, hrecords, hreason⟩

theorem failsAsRecorded_call (operation : Operation) (prior : operation.Value)
    {next : Result → operation.Value → Client ω}
    (hnext : ∀ answer value, FailsAsRecorded build (next answer value)) :
    FailsAsRecorded build (.call operation prior next) := by
  intro stream log hvalid hlive reason
  have hstep := @quiet_failure_iff _ _ _ build stream log reason (.operation operation prior)
    operation.run prior (fun answer => next answer.1 answer.2)
    (fun answer => hnext answer.1 answer.2)
    (leavesLive_of_sim operation.run_stores.callSim hvalid
      (storing_leavesLive operation.decoder (show stream.cursor.Live from hlive) build prior))
  refine hstep.trans ?_
  constructor
  · rintro (⟨stream', value, hcall, origin, hrecords, hreason⟩ | ⟨p, hcall⟩)
    · exact ⟨origin, .call hcall hrecords, hreason⟩
    · exact ⟨_, .refused hcall, rfl⟩
  · rintro ⟨origin, hrecords, rfl⟩
    cases hrecords with
    | refused hcall => exact .inr ⟨_, hcall⟩
    | call hcall hrecords => exact .inl ⟨_, _, hcall, origin, hrecords, rfl⟩

theorem failsAsRecorded_finish {next : Result → Client ω}
    (hnext : ∀ answer, FailsAsRecorded build (next answer)) :
    FailsAsRecorded build (.finish next) := by
  intro stream log hvalid hlive reason
  have hstep := @quiet_failure_iff _ _ _ build stream log reason (fun _ => .finish)
    (onState serializeEnd) () (fun answer => next answer.1) (fun answer => hnext answer.1)
    (leavesLive_of_sim (CallSim.onState readEnd_sim) hvalid
      (onState_leavesLive (finishAt_leavesLive (show stream.cursor.Live from hlive)) build))
  refine hstep.trans ?_
  rw [onState_apply]
  constructor
  · rintro (⟨stream', value, hcall, origin, hrecords, hreason⟩ | ⟨⟨stream', value⟩, hcall⟩)
    · exact ⟨origin, .finish (of_onState_eq_ok hcall) hrecords, hreason⟩
    · exact ⟨_, .unfinished (of_onState_eq_err hcall), rfl⟩
  · rintro ⟨origin, hrecords, rfl⟩
    cases hrecords with
    | unfinished hcall =>
        rw [hcall]
        exact .inr ⟨_, rfl⟩
    | finish hcall hrecords =>
        rw [hcall]
        exact .inl ⟨_, _, rfl, origin, hrecords, rfl⟩

theorem failsAsRecorded_fail (error : Error) {next : Result → Client ω}
    (hnext : ∀ answer, FailsAsRecorded build (next answer)) :
    FailsAsRecorded build (.fail error next) := by
  intro stream log hvalid hlive reason
  have hstep := @quiet_failure_iff _ _ _ build stream log reason (fun _ => .fail error)
    (onState (latch error)) () (fun answer => next answer.1) (fun answer => hnext answer.1)
    (leavesLive_of_sim (CallSim.onState (latch_sim error)) hvalid
      (onState_leavesLive (latch_leavesLive (show stream.cursor.Live from hlive) error) build))
  refine hstep.trans ?_
  rw [onState_apply, latch_eq, show stream.failed = none from hlive]
  constructor
  · rintro (⟨_, _, heq, -⟩ | ⟨_, heq⟩)
    · cases heq
    · cases heq
      exact ⟨_, .fail, rfl⟩
  · rintro ⟨origin, hrecords, rfl⟩
    cases hrecords with
    | fail => exact .inr ⟨_, rfl⟩

theorem failsAsRecorded_reject {next : Result → Client ω}
    (hnext : ∀ answer, FailsAsRecorded build (next answer)) :
    FailsAsRecorded build (.reject next) := by
  intro stream log hvalid hlive reason
  have hstep := @quiet_failure_iff _ _ _ build stream log reason (fun _ => .reject)
    (onState reject) () (fun answer => next answer.1) (fun answer => hnext answer.1)
    (leavesLive_of_sim (CallSim.onState reject_sim) hvalid
      (onState_leavesLive (latch_leavesLive (show stream.cursor.Live from hlive) _) build))
  refine hstep.trans ?_
  have hreject : (reject : Action ReadStream Unit) build stream
      = .err .rejected { stream with failed := some .rejected } := by
    rw [reject, bind_apply, debugAssert_of (show isReading ReadStream = true from rfl),
      Outcome.bind_ok]
    show latch .rejected build stream = _
    rw [latch_eq, show stream.failed = none from hlive]
    rfl
  rw [onState_apply, hreject]
  constructor
  · rintro (⟨_, _, heq, -⟩ | ⟨_, heq⟩)
    · cases heq
    · cases heq
      exact ⟨_, .reject, rfl⟩
  · rintro ⟨origin, hrecords, rfl⟩
    cases hrecords with
    | reject => exact .inr ⟨_, rfl⟩

/-- What an object records, by how its method's run ends: the failure the method leaves, or the reason
it returns on its own, or what a later step records. -/
theorem recorded_object_iff {prior : ω} {body : Client ω} {next : Result → ω → Client ω} {reason : Error}
    (hbody : FailsAsRecorded build body) (hvalid : stream.Valid) (hlive : stream.failure = none)
    (log : Log ω) :
    (∃ origin, Records build stream (.object prior body next) origin ∧ origin.reason = reason)
      ↔ (body.run build (stream, log)).state.1.failure = some reason
        ∨ (∃ memory stream' log',
          body.run build (stream, log) = .ok (.error reason, memory) (stream', log')
            ∧ stream'.failure = none)
        ∨ ∃ memory stream' log', body.run build (stream, log) = .ok (.ok (), memory) (stream', log')
          ∧ stream'.failure = none
          ∧ ∃ origin, Records build stream' (next (.ok ()) memory) origin ∧ origin.reason = reason := by
  have hinside := hbody stream log hvalid hlive reason
  simp only [records_object_iff log]
  constructor
  · rintro ⟨origin, hrecords | ⟨_, _, _, _, hrun, hnone, rfl⟩ | ⟨_, _, _, hrun, hnone, hrecords⟩, rfl⟩
    · exact .inl (hinside.mpr ⟨origin, hrecords, rfl⟩)
    · exact .inr (.inl ⟨_, _, _, hrun, hnone⟩)
    · exact .inr (.inr ⟨_, _, _, hrun, hnone, origin, hrecords, rfl⟩)
  · rintro (hfailed | ⟨_, _, _, hrun, hnone⟩ | ⟨_, _, _, hrun, hnone, origin, hrecords, rfl⟩)
    · obtain ⟨origin, hrecords, hreason⟩ := hinside.mp hfailed
      exact ⟨origin, .inl hrecords, hreason⟩
    · exact ⟨_, .inr (.inl ⟨_, _, _, _, hrun, hnone, rfl⟩), rfl⟩
    · exact ⟨origin, .inr (.inr ⟨_, _, _, hrun, hnone, hrecords⟩), rfl⟩

theorem failsAsRecorded_object (prior : ω) {body : Client ω} {next : Result → ω → Client ω}
    (hbody : FailsAsRecorded build body)
    (hnext : ∀ answer memory, FailsAsRecorded build (next answer memory)) :
    FailsAsRecorded build (.object prior body next) := by
  intro stream log hvalid hlive reason
  set log' := log.notice (Reader.observation stream) with hlog'
  have hstep := @step_failure_iff _ _ _ build stream log reason
    (fun final => .object prior final.1 final.2)
    (Client.handing (prior, false) (serializeObject (Client.method body.run)))
    (fun answer => next answer.1 answer.2.1) (Client.handing_neverErrs _ _)
    (fun answer => hnext answer.1 answer.2.1)
    (fun answer q hanswer => object_leaves hvalid hlive body prior _ hanswer)
  refine hstep.trans ?_
  rw [recorded_object_iff hbody hvalid hlive log']
  obtain ⟨answer, stream', log'', first, hrun, hfailed⟩ | ⟨error, memory, stream', log'', hrun, hnone⟩ |
    ⟨memory, stream', log'', hrun, hnone⟩ | ⟨p, hrun⟩ := run_ends body build stream log'
  · have hfailed' : stream'.failure = some first := hfailed
    rw [Client.handing_object_recorded hlive prior hrun hfailed, hrun]
    simp [Outcome.state, hfailed']
  · have hnone' : stream'.failure = none := hnone
    rw [Client.handing_object_returned hlive prior hrun hnone, hrun]
    simp [Outcome.state, hnone']
  · have hnone' : stream'.failure = none := hnone
    rw [Client.handing_object_accepted hlive prior hrun hnone, hrun]
    simp [Outcome.state, hnone']
  · rw [Client.handing_object_trap hlive prior hrun, hrun]
    simp [Outcome.state]

/-- **The stream holds the refusal its run records.** -/
theorem failsAsRecorded (build : Build) (client : Client ω) : FailsAsRecorded build client := by
  induction client with
  | done result memory => exact failsAsRecorded_done result memory
  | observe next ih => exact failsAsRecorded_observe ih
  | call operation prior next ih => exact failsAsRecorded_call operation prior ih
  | finish next ih => exact failsAsRecorded_finish ih
  | fail error next ih => exact failsAsRecorded_fail error ih
  | reject next ih => exact failsAsRecorded_reject ih
  | object prior body next ihbody ih => exact failsAsRecorded_object prior ihbody ih

end Failures

end Serialize
