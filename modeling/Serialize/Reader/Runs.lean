import Serialize.Format.Codes
import Serialize.Reader.Session

/-!
# What every run keeps

The log of a client's run on a cursor is sound: every call that came back reported its refusal just
in case the cursor holds it, echoed an earlier refusal without touching anything, wrote only what it
validated, and nothing the cursor showed is ever taken back. A run stops early only where a field's
end is not a 64 bit number. Everything is carried by one induction over the client.
-/

namespace Serialize

open Machine BitString Decode
open Binary32 (Arithmetic)

variable {α δ ω : Type}

/-! ### Sound logs -/

/-- What a reader shows later on: it has not moved back, its end has not moved, and a refusal it
showed it still shows. -/
structure Observation.Precedes (earlier later : Observation) : Prop where
  failure : ∀ reason, earlier.failure = some reason → later.failure = some reason
  bitsProcessed_le : earlier.bitsProcessed ≤ later.bitsProcessed
  bitLimit_eq : later.bitLimit = earlier.bitLimit

theorem Observation.Precedes.refl (observation : Observation) : observation.Precedes observation :=
  ⟨fun _ h => h, le_refl _, rfl⟩

theorem Observation.Precedes.trans {first second third : Observation} (h : first.Precedes second)
    (h' : second.Precedes third) : first.Precedes third :=
  ⟨fun reason hreason => h'.failure reason (h.failure reason hreason),
    h.bitsProcessed_le.trans h'.bitsProcessed_le, h'.bitLimit_eq.trans h.bitLimit_eq⟩

/-- The variable handed over was left alone, and an object's method was not entered. -/
def Call.Untouched : Call ω → Prop
  | .operation _ prior final => final = prior
  | .object prior final invoked => final = prior ∧ invoked = false
  | _ => True

/-- An operation's refusal leaves its variable alone. -/
def Event.RefusedUnwritten (event : Event ω) : Prop :=
  match event.call with
  | .operation _ prior final => ∀ error, event.result = .error error → final = prior
  | _ => True

section Arithmetic

variable [Arithmetic]

/-- What an operation accepts is legal, and what it stores is in the domain. -/
def Event.Validated (event : Event ω) : Prop :=
  match event.call with
  | .operation operation _ final =>
      event.result = .ok () → operation.Legal ∧ operation.InDomain final
  | _ => True

structure Event.Sound (event : Event ω) : Prop where
  reported : ∀ error, event.result = .error error ↔ event.after.failure = some error
  echoed : ∀ reason, event.before.failure = some reason →
    event.result = .error reason ∧ event.after = event.before ∧ event.call.Untouched
  refusedUnwritten : event.RefusedUnwritten
  validated : event.Validated

/-- The log is sound up to where the cursor is. -/
structure Kept (p : Cursor Error × Log ω) : Prop where
  ordered : p.2.trail.Pairwise Observation.Precedes
  current : ∀ seen ∈ p.2.trail, seen.Precedes (Reader.observation p.1)
  inside : ∀ seen ∈ p.2.trail, seen.bitsProcessed ≤ seen.bitLimit
  sound : ∀ event ∈ p.2.events, event.Sound

/-- A step of a run: the log stays sound, and the cursor takes nothing back. -/
def Follows (p q : Cursor Error × Log ω) : Prop :=
  (Kept p → Kept q) ∧ (Reader.observation p.1).Precedes (Reader.observation q.1)

theorem Follows.refl (p : Cursor Error × Log ω) : Follows p p := ⟨id, .refl _⟩

theorem Follows.trans {p q r : Cursor Error × Log ω} (h : Follows p q) (h' : Follows q r) :
    Follows p r :=
  ⟨h'.1 ∘ h.1, h.2.trans h'.2⟩

theorem Follows.of_precedes {c c' : Cursor Error} (log : Log ω)
    (h : (Reader.observation c).Precedes (Reader.observation c')) : Follows (c, log) (c', log) :=
  ⟨fun hkept => ⟨hkept.ordered, fun seen hseen => (hkept.current seen hseen).trans h, hkept.inside,
    hkept.sound⟩, h⟩

/-- Where a run may stop early. -/
def Stuck (c : Cursor Error) : Prop := ∃ width, c.Overflows width

/-- Every outcome of the computation follows on where it started, and it panics only where it is
stuck. -/
def Keeps (m : Action (Cursor Error × Log ω) α) : Prop :=
  ∀ profile p, Follows p (m profile p).state ∧ ∀ q, m profile p = .trap q → Stuck q.1

namespace Keeps

theorem pure (value : α) : Keeps (pure value : Action (Cursor Error × Log ω) α) :=
  fun _ p => ⟨.refl p, fun _ h => nomatch h⟩

theorem bind {β : Type} {m : Action (Cursor Error × Log ω) α}
    {next : α → Action (Cursor Error × Log ω) β} (h : Keeps m) (hnext : ∀ value, Keeps (next value)) :
    Keeps (m >>= next) := by
  intro profile p
  obtain ⟨hfollows, hstuck⟩ := h profile p
  rw [bind_apply]
  match hm : m profile p with
  | .ok value q =>
      rw [hm] at hfollows
      obtain ⟨hfollows', hstuck'⟩ := hnext value profile q
      exact ⟨hfollows.trans hfollows', hstuck'⟩
  | .err error q =>
      rw [hm] at hfollows
      exact ⟨hfollows, fun _ h => nomatch h⟩
  | .trap q =>
      rw [hm] at hfollows
      exact ⟨hfollows, fun q' h => by cases h; exact hstuck q hm⟩

end Keeps

/-! ### Calls -/

/-- How one call may answer: it accepts on a live cursor only, a refusal it reports is the one the
cursor holds, and a cursor that has refused is left as it is. -/
def Answers (c : Cursor Error) : Outcome Error (Cursor Error) α → Prop
  | .ok _ c' => (Reader.observation c).Precedes (Reader.observation c') ∧ c.Live ∧ c'.Live
  | .err error c' => (Reader.observation c).Precedes (Reader.observation c')
      ∧ c'.failed = some error ∧ ∀ reason, c.failed = some reason → c' = c
  | .trap c' => (Reader.observation c).Precedes (Reader.observation c') ∧ Stuck c'

theorem precedes_of_reaches {c c' : Cursor Error} (h : c.Reaches c')
    (hfailed : ∀ reason, c.failed = some reason → c'.failed = some reason) :
    (Reader.observation c).Precedes (Reader.observation c') :=
  ⟨hfailed, h.position_le, h.limit_eq⟩

theorem answers_decoder {d : Decoder Error α} (hguarded : d.Guarded) (c : Cursor Error) :
    Answers c (d.run c) := by
  rcases hfailed : c.failed with - | reason
  · have hsettles := Decoder.run_settles d (show c.Live from hfailed)
    have hlive : ∀ c' : Cursor Error, ∀ reason, c.failed = some reason →
        c'.failed = some reason := fun c' reason h => by rw [hfailed] at h; cases h
    match hrun : d.run c with
    | .ok value c' =>
        rw [hrun] at hsettles
        exact ⟨precedes_of_reaches hsettles.1 (hlive c'), hfailed, hsettles.2⟩
    | .err error c' =>
        rw [hrun] at hsettles
        exact ⟨precedes_of_reaches hsettles.1 (hlive c'), hsettles.2,
          fun reason h => by rw [hfailed] at h; cases h⟩
    | .trap c' =>
        rw [hrun] at hsettles
        exact ⟨precedes_of_reaches hsettles.1 (hlive c'), hsettles.2.2⟩
  · rcases Decoder.run_of_failed hguarded hfailed with herr | ⟨htrap, hstuck⟩
    · rw [herr]
      exact ⟨.refl _, hfailed, fun _ _ => rfl⟩
    · rw [htrap]
      exact ⟨.refl _, hstuck⟩

theorem answers_latch {c c' : Cursor Error} (h : c.Reaches c') (hlive : c.Live) (hlive' : c'.Live)
    (error : Error) : Answers c (c'.latch error : Outcome Error (Cursor Error) α) := by
  have habsurd : ∀ reason, c.failed ≠ some reason := fun reason hfailed => by
    rw [show c.failed = none from hlive] at hfailed
    cases hfailed
  rw [Cursor.latch_of_live hlive']
  exact ⟨precedes_of_reaches (h.trans (.of_eq rfl rfl)) fun reason hfailed =>
    (habsurd reason hfailed).elim, rfl, fun reason hfailed => (habsurd reason hfailed).elim⟩

theorem answers_fail (c : Cursor Error) (error : Error) :
    Answers c (c.latch error : Outcome Error (Cursor Error) α) := by
  rcases hfailed : c.failed with - | reason
  · exact answers_latch (.refl c) hfailed hfailed error
  · rw [Cursor.latch_of_failed hfailed]
    exact ⟨.refl _, hfailed, fun _ _ => rfl⟩

theorem answers_finish (c : Cursor Error) : Answers c (finishAt c) := by
  have hall := Cursor.reaches_advance (le_refl c.remaining.length)
  rw [finishAt]
  rcases hfailed : c.failed with - | reason
  · dsimp only
    split
    · exact answers_latch (.refl c) hfailed hfailed _
    split
    · exact ⟨precedes_of_reaches hall fun reason h => h, hfailed, hfailed⟩
    · exact answers_latch hall hfailed hfailed _
  · exact ⟨.refl _, hfailed, fun _ _ => rfl⟩

/-! ### Logging -/

namespace Client

theorem look_follows (p : Cursor Error × Log ω) :
    Follows p (p.1, p.2.notice (Reader.observation p.1)) := by
  refine ⟨fun hkept => ⟨?_, ?_, ?_, hkept.sound⟩, .refl _⟩
  · refine List.pairwise_append.mpr ⟨hkept.ordered, List.pairwise_singleton _ _, ?_⟩
    intro seen hseen last hlast
    rw [List.mem_singleton.mp hlast]
    exact hkept.current seen hseen
  · intro seen hseen
    rcases List.mem_append.mp hseen with hold | hnew
    · exact hkept.current seen hold
    · rw [List.mem_singleton.mp hnew]
      exact .refl _
  · intro seen hseen
    rcases List.mem_append.mp hseen with hold | hnew
    · exact hkept.inside seen hold
    · rw [List.mem_singleton.mp hnew]
      exact Nat.le_add_right p.1.position p.1.remaining.length

theorem look_keeps : Keeps (look : Action (Cursor Error × Log ω) Observation) :=
  fun _ p => ⟨look_follows p, fun _ h => nomatch h⟩

theorem record_follows {p : Cursor Error × Log ω} {event : Event ω} (h : event.Sound) :
    Follows p (p.1, p.2.record event) := by
  refine ⟨fun hkept => ⟨hkept.ordered, hkept.current, hkept.inside, ?_⟩, .refl _⟩
  intro event' hevent
  rcases List.mem_append.mp hevent with hold | hnew
  · exact hkept.sound event' hold
  · rw [List.mem_singleton.mp hnew]
    exact h

/-- A call that keeps the log sound is logged soundly where its event is sound. -/
theorem logged_keeps {describe : δ → Call ω} {call : Action (Cursor Error × Log ω) (Result × δ)}
    (hcall : Keeps call)
    (hevent : ∀ profile p answer q, call profile p = .ok answer q → Event.Sound
      { call := describe answer.2
        result := answer.1
        before := Reader.observation p.1
        after := Reader.observation q.1 }) : Keeps (logged describe call) := by
  intro profile p
  have hbefore := look_follows p
  obtain ⟨hfollows, hstuck⟩ := hcall profile (p.1, p.2.notice (Reader.observation p.1))
  simp only [logged, bind_apply, look, Outcome.bind_ok]
  rcases hm : call profile (p.1, p.2.notice (Reader.observation p.1)) with ⟨answer, q⟩ | ⟨error, q⟩ | q
  · rw [hm] at hfollows
    exact ⟨hbefore.trans (hfollows.trans ((look_follows q).trans
      (record_follows (hevent profile (p.1, p.2.notice _) answer q hm)))), fun _ h => by cases h⟩
  · rw [hm] at hfollows
    exact ⟨hbefore.trans hfollows, fun _ h => by cases h⟩
  · rw [hm] at hfollows
    exact ⟨hbefore.trans hfollows, fun q' h => by cases h; exact hstuck q hm⟩

/-! ### Each call -/

section Storing

variable {f : Cursor Error → Outcome Error (Cursor Error) δ}

theorem storing_keeps (hf : ∀ c, Answers c (f c)) (prior : δ) :
    Keeps (handing prior (quietly (storing f)) : Action (Cursor Error × Log ω) (Result × δ)) := by
  intro profile p
  have hanswers := hf p.1
  rw [handing_storing]
  match hp : f p.1 with
  | .ok value c =>
      rw [hp] at hanswers
      exact ⟨.of_precedes p.2 hanswers.1, fun _ h => nomatch h⟩
  | .err error c =>
      rw [hp] at hanswers
      exact ⟨.of_precedes p.2 hanswers.1, fun _ h => nomatch h⟩
  | .trap c =>
      rw [hp] at hanswers
      exact ⟨.of_precedes p.2 hanswers.1, fun q h => by cases h; exact hanswers.2⟩

theorem storing_logged {describe : δ → Call ω} {prior : δ} (hf : ∀ c, Answers c (f c))
    (huntouched : (describe prior).Untouched)
    (hunwritten : ∀ result before after final, (∀ error, result = .error error → final = prior) →
      Event.RefusedUnwritten { call := describe final, result, before, after })
    (hvalidated : ∀ c c' value before after, c.Live → f c = .ok value c' →
      Event.Validated { call := describe value, result := .ok (), before, after })
    (hrefused : ∀ error final before after,
      Event.Validated { call := describe final, result := .error error, before, after }) :
    Keeps (logged describe (handing prior (quietly (storing f)))) := by
  refine logged_keeps (storing_keeps hf prior) fun profile p answer q hanswer => ?_
  have hanswers := hf p.1
  rw [handing_storing] at hanswer
  match hp : f p.1 with
  | .ok value c =>
      rw [hp] at hanswer hanswers
      obtain ⟨-, hlive, hlive'⟩ := hanswers
      cases hanswer
      refine ⟨fun error => iff_of_false (fun h => nomatch h) fun h => ?_, fun reason h => ?_,
        hunwritten _ _ _ _ (fun error h => nomatch h), hvalidated _ _ _ _ _ hlive hp⟩
      · cases (show c.failed = none from hlive').symm.trans h
      · cases (show p.1.failed = none from hlive).symm.trans h
  | .err error c =>
      rw [hp] at hanswer hanswers
      obtain ⟨-, hfailed, hechoed⟩ := hanswers
      cases hanswer
      refine ⟨fun error' => ?_, fun reason h => ?_, hunwritten _ _ _ _ fun _ _ => rfl,
        hrefused _ _ _ _⟩
      · show Except.error error = Except.error error' ↔ c.failed = some error'
        rw [hfailed, Option.some_inj]
        exact ⟨fun heq => Except.error.inj heq, fun heq => congrArg _ heq⟩
      · have heq := hechoed reason h
        subst heq
        obtain rfl : error = reason := Option.some_inj.mp (hfailed.symm.trans h)
        exact ⟨rfl, rfl, huntouched⟩
  | .trap c =>
      rw [hp] at hanswer
      cases hanswer

theorem plain_logged {call : Call ω} {f : Cursor Error → Outcome Error (Cursor Error) Unit}
    (hf : ∀ c, Answers c (f c)) (huntouched : call.Untouched)
    (hunwritten : ∀ result before after, Event.RefusedUnwritten { call, result, before, after })
    (hvalidated : ∀ result before after, Event.Validated { call, result, before, after }) :
    Keeps (logged (fun _ => call) (handing () (quietly (onState fun _ c => f c)))) := by
  have hstoring : (onState fun _ c => f c : Action (Cursor Error × Unit) Unit) = storing f := by
    funext profile p
    rw [storing]
    show (f p.1).mapState _ = _
    cases f p.1 with
    | ok value c => rfl
    | err error c => rfl
    | trap c => rfl
  rw [hstoring]
  exact storing_logged hf huntouched (fun _ _ _ _ _ => hunwritten _ _ _)
    (fun _ _ _ _ _ _ _ => hvalidated _ _ _) fun _ _ _ _ => hvalidated _ _ _

end Storing

/-- A nested object: what its method left, and the refusal the cursor holds afterwards. -/
def leave (answer : Result × ω) (c : Cursor Error) : Cursor Error :=
  match answer.1 with
  | .ok () => c
  | .error error => { c with failed := some (c.failed.getD error) }

omit [Arithmetic] in
theorem handing_enter (body : Action (Cursor Error × Log ω) (Result × ω)) (prior : ω) (profile : Profile)
    {p : Cursor Error × Log ω} (h : p.1.Live) :
    handing (prior, false) (enter (method body)) profile p = match body profile p with
      | .ok answer q => .ok ((leave answer q.1).failed.elim (.ok ()) .error, answer.2, true)
          (leave answer q.1, q.2)
      | .err error q => .ok (.error (q.1.failed.getD error), prior, true)
          ({ q.1 with failed := some (q.1.failed.getD error) }, q.2)
      | .trap q => .trap q := by
  rw [handing, enter, show p.1.failed = none from h]
  dsimp only [method]
  rcases body profile p with ⟨⟨⟨error⟩ | ⟨⟨⟩⟩, memory⟩, c, log⟩ | ⟨error, q⟩ | q
  · rfl
  · dsimp only [leave]
    cases c.failed with
    | none => rfl
    | some reason => rfl
  · rfl
  · rfl

omit [Arithmetic] in
theorem handing_enter_failed (body : Action (Cursor Error × Log ω) (Result × ω)) (prior : ω)
    (profile : Profile) {p : Cursor Error × Log ω} {reason : Error} (h : p.1.failed = some reason) :
    handing (prior, false) (enter (method body)) profile p = .ok (.error reason, prior, false) p := by
  rw [handing, enter, h]

omit [Arithmetic] in
theorem elim_eq_error_iff {failed : Option Error} (error : Error) :
    failed.elim (Except.ok ()) Except.error = (.error error : Result) ↔ failed = some error := by
  cases failed with
  | none => exact iff_of_false (fun h => nomatch h) fun h => nomatch h
  | some reason =>
      rw [Option.elim_some, Option.some_inj]
      exact ⟨fun heq => Except.error.inj heq, fun heq => congrArg _ heq⟩

theorem latched_precedes (c : Cursor Error) (error : Error) : (Reader.observation c).Precedes
    (Reader.observation { c with failed := some (c.failed.getD error) }) :=
  precedes_of_reaches (.of_eq rfl rfl) fun reason h => by
    rw [h]
    rfl

theorem leave_precedes (answer : Result × ω) (c : Cursor Error) :
    (Reader.observation c).Precedes (Reader.observation (leave answer c)) := by
  match answer with
  | (.ok (), _) => exact .refl _
  | (.error error, _) => exact latched_precedes c error

theorem object_keeps {body : Action (Cursor Error × Log ω) (Result × ω)} (h : Keeps body)
    (prior : ω) : Keeps (handing (prior, false) (enter (method body))) := by
  intro profile p
  obtain ⟨hfollows, hstuck⟩ := h profile p
  rcases hfailed : p.1.failed with - | reason
  · rw [handing_enter body prior profile hfailed]
    match hm : body profile p with
    | .ok answer q =>
        rw [hm] at hfollows
        exact ⟨hfollows.trans (.of_precedes q.2 (leave_precedes answer q.1)), fun _ h => nomatch h⟩
    | .err error q =>
        rw [hm] at hfollows
        exact ⟨hfollows.trans (.of_precedes q.2 (latched_precedes q.1 error)), fun _ h => nomatch h⟩
    | .trap q =>
        rw [hm] at hfollows
        exact ⟨hfollows, fun q' h => by cases h; exact hstuck q hm⟩
  · rw [handing_enter_failed body prior profile hfailed]
    exact ⟨.refl p, fun _ h => nomatch h⟩

theorem object_logged {body : Action (Cursor Error × Log ω) (Result × ω)} (h : Keeps body)
    (prior : ω) : Keeps (logged (fun final => .object prior final.1 final.2)
      (handing (prior, false) (enter (method body)))) := by
  refine logged_keeps (object_keeps h prior) fun profile p answer q hanswer => ?_
  rcases hfailed : p.1.failed with - | reason
  · have hlive : ∀ reason, ¬p.1.failed = some reason := fun reason h => by
      rw [hfailed] at h
      cases h
    rw [handing_enter body prior profile hfailed] at hanswer
    match hm : body profile p with
    | .ok left q' =>
        rw [hm] at hanswer
        cases hanswer
        exact ⟨fun error => elim_eq_error_iff error, fun reason h => (hlive reason h).elim, trivial,
          trivial⟩
    | .err error q' =>
        rw [hm] at hanswer
        cases hanswer
        exact ⟨fun error' => @elim_eq_error_iff (some _) error',
          fun reason h => (hlive reason h).elim, trivial, trivial⟩
    | .trap q' =>
        rw [hm] at hanswer
        cases hanswer
  · rw [handing_enter_failed body prior profile hfailed] at hanswer
    cases hanswer
    refine ⟨fun error => ?_, fun reason' h => ?_, trivial, trivial⟩
    · show Except.error reason = Except.error error ↔ p.1.failed = some error
      rw [hfailed, Option.some_inj]
      exact ⟨fun heq => Except.error.inj heq, fun heq => congrArg _ heq⟩
    · obtain rfl : reason = reason' := Option.some_inj.mp (hfailed.symm.trans h)
      exact ⟨rfl, rfl, rfl, rfl⟩

/-- **Main result.** Whatever a client does, its run on a cursor keeps the log sound and panics only
where it is stuck. -/
theorem run_keeps (client : Client ω) :
    Keeps (client.run : Action (Cursor Error × Log ω) (Result × ω)) := by
  induction client with
  | done result memory => exact Keeps.pure _
  | observe next ih => exact Keeps.bind look_keeps ih
  | call operation prior next ih =>
      refine Keeps.bind (storing_logged (answers_decoder operation.decoder_guarded) rfl
        (fun _ _ _ _ h => h) (fun c c' value _ _ hlive hrun _ => ?_)
        fun _ _ _ _ h => nomatch h) fun answer => ih answer.1 answer.2
      exact Operation.decoder_sound (Decoder.parse_of_run_eq_ok hlive hrun)
  | finish next ih =>
      exact Keeps.bind (plain_logged answers_finish trivial (fun _ _ _ => trivial)
        fun _ _ _ => trivial) fun answer => ih answer.1
  | fail error next ih =>
      exact Keeps.bind (plain_logged (fun c => answers_fail c error) trivial (fun _ _ _ => trivial)
        fun _ _ _ => trivial) fun answer => ih answer.1
  | reject next ih =>
      exact Keeps.bind (plain_logged (fun c => answers_fail c .rejected) trivial
        (fun _ _ _ => trivial) fun _ _ _ => trivial) fun answer => ih answer.1
  | object prior body next ihbody ih =>
      exact Keeps.bind (object_logged ihbody prior) fun answer => ih answer.1 answer.2.1

end Client

/-! ### Runs on a stream -/

theorem kept_empty (c : Cursor Error) : Kept (c, (Log.empty : Log ω)) :=
  ⟨.nil, (fun _ h => nomatch h), (fun _ h => nomatch h), (fun _ h => nomatch h)⟩

/-- What a client's run leaves of a stream, however it ended. -/
structure LeavesSound (stream : ReadStream) (outcome : Outcome Error (ReadStream × Log ω) α) :
    Prop where
  valid : outcome.state.1.Valid
  kept : Kept (outcome.state.1.cursor, outcome.state.2)
  stuck : ∀ p, outcome = .trap p →
    p.1.cursor.limit = stream.reader.numBits ∧ Stuck p.1.cursor
  limit : ∀ seen ∈ outcome.state.2.trail, seen.bitLimit = stream.reader.numBits

theorem Client.run_leaves_sound {stream : ReadStream} (h : stream.Valid) (client : Client ω)
    (build : Build) : LeavesSound stream (client.run build (stream, Log.empty)) := by
  obtain ⟨⟨hkept, hprecedes⟩, hstuck⟩ := client.run_keeps build (stream.cursor, Log.empty)
  have hkept := hkept (kept_empty stream.cursor)
  have hmatch := client.run_sim build (stream, Log.empty) (stream.cursor, Log.empty) ⟨⟨h, rfl⟩, rfl⟩
  have hlimit : ∀ q : Cursor Error × Log ω, Kept q →
      (Reader.observation stream.cursor).Precedes (Reader.observation q.1) →
      ∀ seen ∈ q.2.trail, seen.bitLimit = stream.reader.numBits := by
    intro q hq hfollows seen hseen
    rw [← (hq.current seen hseen).bitLimit_eq, hfollows.bitLimit_eq]
    exact h.limit_cursor
  match hm : client.run build (stream, Log.empty),
      hn : client.run build (stream.cursor, (Log.empty : Log ω)), hmatch with
  | .ok answer p, .ok _ q, ⟨_, ⟨hvalid, hcursor⟩, hlog⟩ =>
      obtain rfl : (p.1.cursor, p.2) = q := Prod.ext hcursor hlog
      rw [hn] at hkept hprecedes
      exact ⟨hvalid, hkept, (fun _ heq => nomatch heq), hlimit _ hkept hprecedes⟩
  | .err error p, _, .inr ⟨q, hright, ⟨hvalid, hcursor⟩, hlog⟩ =>
      obtain rfl : (p.1.cursor, p.2) = q := Prod.ext hcursor hlog
      subst hright
      rw [hn] at hkept hprecedes
      exact ⟨hvalid, hkept, (fun _ heq => nomatch heq), hlimit _ hkept hprecedes⟩
  | .trap p, .trap q, ⟨⟨hvalid, hcursor⟩, hlog⟩ =>
      obtain rfl : (p.1.cursor, p.2) = q := Prod.ext hcursor hlog
      rw [hn] at hkept hprecedes
      refine ⟨hvalid, hkept, fun _ heq => ?_, hlimit _ hkept hprecedes⟩
      cases heq
      exact ⟨hprecedes.bitLimit_eq.trans h.limit_cursor, hstuck _ hn⟩

end Arithmetic

end Serialize
