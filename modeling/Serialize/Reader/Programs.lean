import Serialize.Format.Codes
import Serialize.Model.Program
import Serialize.Reader.Runs

/-!
# Programs on a cursor

A program's run on a read stream is its run on the cursor the stream stands for, where an operation
is its decoder. On the cursor a program accepts exactly the encodings of what it carries, sees
nothing of what follows the bits it takes, and refuses a packet that is cut short as past the end.
-/

namespace Serialize

open Machine BitString Decode
open Binary32 (Arithmetic)
open ReadStream

variable {δ α : Type}

namespace Program

variable [Arithmetic]

/-- The program's run on a cursor. -/
def trace : Program → Action (Cursor Error × List Carried) Unit
  | .done => pure ()
  | .step operation next => do
      let log ← load
      let value ← onState fun _ c => operation.decoder.run c
      store (log ++ [⟨operation, value⟩])
      (next value).trace
  | .object body next => do
      let log ← load
      enter body.trace
      let log' ← load
      (next (log'.drop log.length)).trace
  | .finish next => do
      onState fun _ c => finishAt c
      next.trace

end Program

/-! ### The run on a stream -/

theorem Realizes.callSim {m : Action (ReadStream × δ) α} {d : Decoder Error α} (h : Realizes m d) :
    CallSim Stands NoEscape m (Machine.onState fun _ c => d.run c) := by
  rintro build ⟨stream, value⟩ ⟨c, _⟩ ⟨⟨hvalid, rfl⟩, rfl⟩
  have hmatch := h build stream value hvalid
  unfold Machine.onState
  dsimp only
  match hm : m build (stream, value), hd : d.run stream.cursor, hmatch with
  | .ok part p, .ok part' c, ⟨hpart, hvalid', hcursor, hvalue⟩ =>
      exact ⟨hpart, ⟨hvalid', hcursor⟩, hvalue⟩
  | .err error p, _, .inr ⟨c, rfl, hvalid', hcursor, hvalue⟩ =>
      exact Or.inr ⟨_, rfl, ⟨hvalid', hcursor⟩, hvalue⟩
  | .trap p, .trap c, ⟨hvalid', hcursor, hvalue⟩ => exact ⟨⟨hvalid', hcursor⟩, hvalue⟩

theorem load_sim : CallSim Stands NoEscape (load : Action (ReadStream × δ) δ) load := by
  rintro build ⟨stream, value⟩ ⟨c, _⟩ ⟨hstands, rfl⟩
  exact ⟨rfl, hstands, rfl⟩

theorem store_sim (value : δ) :
    CallSim Stands NoEscape (store value : Action (ReadStream × δ) Unit) (store value) := by
  rintro build ⟨stream, _⟩ ⟨c, _⟩ ⟨hstands, rfl⟩
  exact ⟨rfl, hstands, rfl⟩

section Step

variable [Arithmetic] {S : Type} [Stream S] {operation : Operation} {next : operation.Value → Program}
  {memory : Memory} {profile : Profile} {state state' : S} {log : List Carried}

theorem Program.run_step_of_ok {value : operation.Value}
    (h : operation.run profile (state, memory log.length operation) = .ok () (state', value)) :
    (Program.step operation next).run memory profile (state, log)
      = (next value).run memory profile (state', log ++ [⟨operation, value⟩]) := by
  rw [Program.run, bind_apply, load_apply, Outcome.bind_ok, bind_apply, inLocal_of_ok h,
    Outcome.bind_ok, bind_apply, store_apply, Outcome.bind_ok]

theorem Program.run_step_of_err {error : Error} {value : operation.Value}
    (h : operation.run profile (state, memory log.length operation) = .err error (state', value)) :
    (Program.step operation next).run memory profile (state, log) = .err error (state', log) := by
  rw [Program.run, bind_apply, load_apply, Outcome.bind_ok, bind_apply, inLocal_of_err h,
    Outcome.bind_err]

end Step

theorem Program.run_sim [Arithmetic] (program : Program) (memory : Memory) :
    CallSim Stands NoEscape (program.run memory : Action (ReadStream × List Carried) Unit)
      program.trace := by
  induction program with
  | done => exact Sim.pure ()
  | step operation next ih =>
      exact Sim.bind load_sim fun log =>
        Sim.bind (Stores.inLocal _ operation.run_stores).callSim fun value =>
          Sim.bind (store_sim _) fun _ => ih value
  | object body next ihbody ih =>
      exact Sim.bind load_sim fun log => Sim.bind (fun build => enter_sim (ihbody build)) fun _ =>
        Sim.bind load_sim fun log' => ih _
  | finish next ih => exact Sim.bind (CallSim.onState readEnd_sim) fun _ => ih

/-! ### The run on a cursor, call by call -/

namespace Program

variable [Arithmetic] {build : Build} {c c' : Cursor Error} {log log' : List Carried}

section Step

variable {operation : Operation} {next : operation.Value → Program}

theorem trace_step : (step operation next).trace build (c, log)
    = ((operation.decoder.run c).mapState fun c' => (c', log)).bind fun value p =>
        (next value).trace build (p.1, p.2 ++ [⟨operation, value⟩]) := by
  rw [trace, bind_apply, load_apply, Outcome.bind_ok]
  show Outcome.bind ((operation.decoder.run c).mapState _) _ = _
  cases operation.decoder.run c with
  | ok value c' => rfl
  | err error c' => rfl
  | trap c' => rfl

theorem trace_step_of_ok {value : operation.Value} (h : operation.decoder.run c = .ok value c') :
    (step operation next).trace build (c, log)
      = (next value).trace build (c', log ++ [⟨operation, value⟩]) := by
  rw [trace_step, h, Outcome.mapState_ok, Outcome.bind_ok]

theorem trace_step_of_err {error : Error} (h : operation.decoder.run c = .err error c') :
    (step operation next).trace build (c, log) = .err error (c', log) := by
  rw [trace_step, h, Outcome.mapState_err, Outcome.bind_err]

theorem trace_step_of_trap (h : operation.decoder.run c = .trap c') :
    (step operation next).trace build (c, log) = .trap (c', log) := by
  rw [trace_step, h, Outcome.mapState_trap, Outcome.bind_trap]

end Step

section Object

variable {body : Program} {next : List Carried → Program}

theorem trace_object_of_ok (hlive : c.Live) (hlive' : c'.Live)
    (h : body.trace build (c, log) = .ok () (c', log')) :
    (object body next).trace build (c, log)
      = (next (log'.drop log.length)).trace build (c', log') := by
  rw [trace, bind_apply, load_apply, Outcome.bind_ok, bind_apply, enter]
  dsimp only
  rw [show c.failed = none from hlive, h]
  dsimp only
  rw [show c'.failed = none from hlive', Option.elim_none, Outcome.bind_ok, bind_apply, load_apply,
    Outcome.bind_ok]

theorem trace_object_of_err {error : Error} (hlive : c.Live) (hfailed : c'.failed = some error)
    (h : body.trace build (c, log) = .err error (c', log')) :
    (object body next).trace build (c, log) = .err error (c', log') := by
  rw [trace, bind_apply, load_apply, Outcome.bind_ok, bind_apply, enter]
  dsimp only
  rw [show c.failed = none from hlive, h]
  dsimp only
  rw [hfailed, Option.getD_some, Outcome.bind_err, ← hfailed]

theorem trace_object_of_trap {p : Cursor Error × List Carried} (hlive : c.Live)
    (h : body.trace build (c, log) = .trap p) :
    (object body next).trace build (c, log) = .trap p := by
  rw [trace, bind_apply, load_apply, Outcome.bind_ok, bind_apply, enter]
  dsimp only
  rw [show c.failed = none from hlive, h]
  dsimp only
  rw [Outcome.bind_trap]

end Object

/-- How a program may leave a live cursor and a log. -/
def Leaves (log : List Carried) : Outcome Error (Cursor Error × List Carried) Unit → Prop
  | .ok () p => p.1.Live ∧ log <+: p.2
  | .err error p => p.1.failed = some error ∧ log <+: p.2
  | .trap p => log <+: p.2

omit [Arithmetic] in
theorem Leaves.of_grown (h : log <+: log') {outcome : Outcome Error (Cursor Error × List Carried) Unit}
    (hleaves : Leaves log' outcome) : Leaves log outcome := by
  cases outcome with
  | ok result p => exact ⟨hleaves.1, h.trans hleaves.2⟩
  | err error p => exact ⟨hleaves.1, h.trans hleaves.2⟩
  | trap p => exact h.trans hleaves

omit [Arithmetic] in
theorem Leaves.grown {outcome : Outcome Error (Cursor Error × List Carried) Unit}
    (h : Leaves log outcome) : log <+: outcome.state.2 := by
  cases outcome with
  | ok result p => exact h.2
  | err error p => exact h.2
  | trap p => exact h

/-- A program accepts and leaves the cursor live, or refuses and latches the reason it reports; and
its log only grows. -/
theorem trace_leaves (program : Program) (build : Build) (hlive : c.Live) (log : List Carried) :
    Leaves log (program.trace build (c, log)) := by
  induction program generalizing c log with
  | done => exact ⟨hlive, List.prefix_rfl⟩
  | step operation next ih =>
      have hsettles := Decoder.run_settles operation.decoder hlive
      rcases hrun : operation.decoder.run c with ⟨value, c'⟩ | ⟨error, c'⟩ | c'
      · rw [hrun] at hsettles
        rw [trace_step_of_ok hrun]
        exact (ih value hsettles.2 _).of_grown (List.prefix_append _ _)
      · rw [hrun] at hsettles
        rw [trace_step_of_err hrun]
        exact ⟨hsettles.2, List.prefix_rfl⟩
      · rw [trace_step_of_trap hrun]
        exact List.prefix_rfl
  | object body next ihbody ih =>
      have hbody := ihbody hlive log
      rcases hrun : body.trace build (c, log) with ⟨⟨⟩, c', log'⟩ | ⟨error, c', log'⟩ | p
      · rw [hrun] at hbody
        rw [trace_object_of_ok hlive hbody.1 hrun]
        exact (ih _ hbody.1 _).of_grown hbody.2
      · rw [hrun] at hbody
        rw [trace_object_of_err hlive hbody.1 hrun]
        exact hbody
      · rw [hrun] at hbody
        rw [trace_object_of_trap hlive hrun]
        exact hbody
  | finish next ih =>
      have hanswers := answers_finish c
      rw [trace, bind_apply]
      show Leaves log (Outcome.bind ((finishAt c).mapState _) _)
      rcases hrun : finishAt c with ⟨⟨⟩, c'⟩ | ⟨error, c'⟩ | c'
      · rw [hrun] at hanswers
        rw [Outcome.mapState_ok, Outcome.bind_ok]
        exact ih hanswers.2.2 log
      · rw [hrun] at hanswers
        rw [Outcome.mapState_err, Outcome.bind_err]
        exact ⟨hanswers.2.1, List.prefix_rfl⟩
      · rw [Outcome.mapState_trap, Outcome.bind_trap]
        exact List.prefix_rfl

/-! ### What a run that accepts did -/

theorem trace_step_eq_ok {operation : Operation} {next : operation.Value → Program}
    {p : Cursor Error × List Carried} (h : (step operation next).trace build (c, log) = .ok () p) :
    ∃ value c₁, operation.decoder.run c = .ok value c₁
      ∧ (next value).trace build (c₁, log ++ [⟨operation, value⟩]) = .ok () p := by
  rcases hrun : operation.decoder.run c with ⟨value, c₁⟩ | ⟨error, c₁⟩ | c₁
  · rw [trace_step_of_ok hrun] at h
    exact ⟨value, c₁, rfl, h⟩
  · rw [trace_step_of_err hrun] at h
    cases h
  · rw [trace_step_of_trap hrun] at h
    cases h

theorem trace_object_eq_ok {body : Program} {next : List Carried → Program}
    {p : Cursor Error × List Carried} (hlive : c.Live)
    (h : (object body next).trace build (c, log) = .ok () p) :
    ∃ c₁ log₁, body.trace build (c, log) = .ok () (c₁, log₁) ∧ c₁.Live
      ∧ (next (log₁.drop log.length)).trace build (c₁, log₁) = .ok () p := by
  have hbody := trace_leaves body build hlive log
  rcases hrun : body.trace build (c, log) with ⟨⟨⟩, c₁, log₁⟩ | ⟨error, c₁, log₁⟩ | q
  · rw [hrun] at hbody
    rw [trace_object_of_ok hlive hbody.1 hrun] at h
    exact ⟨c₁, log₁, rfl, hbody.1, h⟩
  · rw [hrun] at hbody
    rw [trace_object_of_err hlive hbody.1 hrun] at h
    cases h
  · rw [trace_object_of_trap hlive hrun] at h
    cases h

/-! ### What a program accepts -/

section Encoding

/-- From one live cursor to the other lies the encoding of the values carried, which conform. -/
structure Takes (c c' : Cursor Error) (carried : List Carried) : Prop where
  conforming : Conforming carried
  remaining : c.remaining = encodeAll byteBoundary c.position carried ++ c'.remaining
  position : c'.position = c.position + (encodeAll byteBoundary c.position carried).length
  live : c'.Live

namespace Takes

variable {memory : Memory} {first second : List Carried} {c₁ : Cursor Error}

theorem nil_iff (hlive : c.Live) : Takes c c' [] ↔ c' = c := by
  constructor
  · rintro ⟨-, hremaining, hposition, hlive'⟩
    obtain ⟨remaining, position, failed⟩ := c
    obtain ⟨remaining', position', failed'⟩ := c'
    obtain rfl : remaining = remaining' := hremaining
    obtain rfl : position' = position := hposition
    obtain rfl : failed = none := hlive
    obtain rfl : failed' = none := hlive'
    rfl
  · rintro rfl
    refine ⟨?_, rfl, rfl, hlive⟩
    intro entry hentry
    exact absurd hentry List.not_mem_nil

theorem append (h : Takes c c₁ first) (h' : Takes c₁ c' second) : Takes c c' (first ++ second) := by
  obtain ⟨hconforming, hremaining, hposition, -⟩ := h
  obtain ⟨hconforming', hremaining', hposition', hlive'⟩ := h'
  rw [hposition] at hremaining' hposition'
  refine ⟨?_, ?_, ?_, hlive'⟩
  · intro entry hentry
    rcases List.mem_append.mp hentry with hfirst | hsecond
    · exact hconforming entry hfirst
    · exact hconforming' entry hsecond
  · rw [hremaining, hremaining', encodeAll_append, List.append_assoc]
  · rw [hposition', encodeAll_append, List.length_append, Nat.add_assoc]

theorem split (h : Takes c c' (first ++ second)) :
    ∃ c₁, Takes c c₁ first ∧ Takes c₁ c' second := by
  obtain ⟨hconforming, hremaining, hposition, hlive⟩ := h
  rw [encodeAll_append] at hremaining hposition
  rw [List.append_assoc] at hremaining
  rw [List.length_append, ← Nat.add_assoc] at hposition
  exact ⟨{ remaining := _, position := _, failed := none },
    ⟨hconforming.left, hremaining, rfl, rfl⟩, ⟨hconforming.right, rfl, hposition, hlive⟩⟩

theorem limit (h : Takes c c' first) : c'.limit = c.limit := by
  rw [Cursor.limit, Cursor.limit, h.position, h.remaining, List.length_append, Nat.add_assoc]

section Call

variable {operation : Operation} {value : operation.Value}

theorem of_run (hexact : operation.Exact) (hlive : c.Live)
    (hrun : operation.decoder.run c = .ok value c') : Takes c c' [⟨operation, value⟩] := by
  have hsettles := Decoder.run_settles operation.decoder hlive
  rw [hrun] at hsettles
  obtain ⟨⟨hlegal, hdomain⟩, hbits, hposition⟩ := (Operation.decoder_codes hexact c.position
    c.remaining value c'.position c'.remaining).mp (Decoder.parse_of_run_eq_ok hlive hrun)
  refine ⟨?_, ?_, ?_, hsettles.2⟩
  · intro entry hentry
    obtain rfl := List.mem_singleton.mp hentry
    exact ⟨hlegal, hdomain, Operation.topDecodes_of_exact hexact⟩
  · rw [encodeAll_singleton, hbits]
  · rw [encodeAll_singleton, hposition]

theorem run_eq_ok (h : Takes c c' [⟨operation, value⟩]) (hexact : operation.Exact)
    (hlive : c.Live) (hlimit : c.limit < 2 ^ 64) : operation.decoder.run c = .ok value c' := by
  obtain ⟨hconforming, hremaining, hposition, hlive'⟩ := h
  obtain ⟨hlegal, hdomain, -⟩ := hconforming _ (List.mem_singleton_self _)
  rw [encodeAll_singleton] at hremaining hposition
  have hparse := (Operation.decoder_codes hexact c.position c.remaining value c'.position
    c'.remaining).mpr ⟨⟨hlegal, hdomain⟩, hremaining, hposition⟩
  rw [Decoder.run_of_parse hlive hlimit hparse, ← show c'.failed = none from hlive']

end Call

end Takes

/-- **A program accepts the encoding of what it carries**, and stops behind it. -/
theorem trace_of_takes {program : Program} {memory : Memory} (hopen : program.Open)
    (hlive : c.Live) (hlimit : c.limit < 2 ^ 64)
    (hexact : ∀ entry ∈ program.carries memory log.length, entry.1.Exact)
    (htakes : Takes c c' (program.carries memory log.length)) :
    program.trace build (c, log) = .ok () (c', log ++ program.carries memory log.length) := by
  induction program generalizing c c' log with
  | done =>
      rw [carries, Takes.nil_iff hlive] at htakes
      rw [trace, carries, List.append_nil, htakes, pure_apply]
  | step operation next ih =>
      rw [carries] at hexact htakes ⊢
      set entry : Carried := ⟨operation, memory log.length operation⟩ with hentry
      obtain ⟨c₁, hfirst, hrest⟩ :=
        Takes.split (show Takes c c' ([entry] ++ (next entry.2).carries memory _) from htakes)
      have hrun := hfirst.run_eq_ok (hexact entry List.mem_cons_self) hlive hlimit
      have hlength : (log ++ [entry]).length = log.length + 1 := List.length_append
      rw [← hfirst.limit] at hlimit
      rw [← hlength] at hexact hrest ⊢
      rw [trace_step_of_ok hrun, ih _ (hopen _) hfirst.live hlimit
        (fun entry' hmore => hexact entry' (List.mem_cons_of_mem _ hmore)) hrest, List.append_assoc]
      rfl
  | object body next ihbody ih =>
      rw [carries] at hexact htakes ⊢
      set inner := body.carries memory log.length with hinner
      obtain ⟨c₁, hfirst, hrest⟩ := htakes.split
      have hbody : body.trace build (c, log) = .ok () (c₁, log ++ inner) :=
        ihbody hopen.1 hlive hlimit
          (fun entry hentry => hexact entry (List.mem_append_left _ hentry)) hfirst
      have hlength : (log ++ inner).length = log.length + inner.length := List.length_append
      rw [← hfirst.limit] at hlimit
      rw [← hlength] at hexact hrest ⊢
      rw [trace_object_of_ok hlive hfirst.live hbody, List.drop_left, ih inner (hopen.2 inner)
        hfirst.live hlimit (fun entry hentry => hexact entry (List.mem_append_right _ hentry)) hrest,
        List.append_assoc]
  | finish next ih => exact hopen.elim

/-- **A program accepts only encodings**: what it took is the encoding of what it carried, and
variables that hold this carry it again. -/
theorem takes_of_trace {program : Program} (hopen : program.Open) (hlive : c.Live)
    (h : program.trace build (c, log) = .ok () (c', log'))
    (hexact : ∀ entry ∈ log', entry.1.Exact) :
    ∃ carried, log' = log ++ carried ∧ Takes c c' carried
      ∧ ∀ memory : Memory, memory.Holds log' → program.carries memory log.length = carried := by
  induction program generalizing c log c' log' with
  | done =>
      rw [trace, pure_apply] at h
      cases h
      exact ⟨[], (List.append_nil _).symm, (Takes.nil_iff hlive).mpr rfl, fun _ _ => rfl⟩
  | step operation next ih =>
      obtain ⟨value, c₁, hrun, h⟩ := trace_step_eq_ok h
      set entry : Carried := ⟨operation, value⟩ with hentry
      have hlive₁ : c₁.Live := by
        have hsettles := Decoder.run_settles operation.decoder hlive
        rw [hrun] at hsettles
        exact hsettles.2
      obtain ⟨more, rfl, hmore, hcarries⟩ := ih value (hopen value) hlive₁ h hexact
      have hfirst : Takes c c₁ [entry] :=
        Takes.of_run (hexact entry (List.mem_append_left _ (List.mem_append_right _
          (List.mem_singleton_self _)))) hlive hrun
      refine ⟨[entry] ++ more, List.append_assoc _ _ _, hfirst.append hmore, ?_⟩
      intro memory hholds
      have hvalue : memory log.length operation = value := by
        refine hholds log.length entry ?_
        rw [List.append_assoc, List.getElem?_append_right (Nat.le_refl _), Nat.sub_self]
        rfl
      have hlength : (log ++ [entry]).length = log.length + 1 := List.length_append
      have hrest := hcarries memory hholds
      rw [hlength] at hrest
      rw [carries, hvalue, hrest]
      rfl
  | object body next ihbody ih =>
      obtain ⟨c₁, log₁, hbody, hlive₁, h⟩ := trace_object_eq_ok hlive h
      have hgrown := trace_leaves (next (log₁.drop log.length)) build hlive₁ log₁
      rw [h] at hgrown
      obtain ⟨inner, rfl, hfirst, hcarries₁⟩ := ihbody hopen.1 hlive hbody
        fun entry hentry => hexact entry (hgrown.2.subset hentry)
      obtain ⟨outer, rfl, hrest, hcarries⟩ := ih _ (hopen.2 _) hlive₁ h hexact
      rw [List.drop_left] at hcarries
      refine ⟨inner ++ outer, List.append_assoc _ _ _, hfirst.append hrest, ?_⟩
      intro memory hholds
      have hlength : (log ++ inner).length = log.length + inner.length := List.length_append
      have hmore := hcarries memory hholds
      rw [hlength] at hmore
      rw [carries, hcarries₁ memory hholds.left, hmore]
  | finish next ih => exact hopen.elim

end Encoding

/-! ### A bit string cut short -/

/-- A run on a bit string against the run on the same string with more behind it. They match, or the
first one is refused as past the end of its string, with fewer values than the second one carries. -/
def CutShort (extra : List Bool) (left right : Outcome Error (Cursor Error × List Carried) Unit) :
    Prop :=
  left.Matches (fun p q => q = (p.1.extend extra, p.2))
    (fun error p => error = .pastEnd ∧ p.1.failed = some .pastEnd ∧ p.2 <+: right.state.2
      ∧ ∀ q, right = .ok () q → p.2.length < q.2.length) right

omit [Arithmetic] in
theorem cutShort_of_err {extra : List Bool} {p : Cursor Error × List Carried}
    {right : Outcome Error (Cursor Error × List Carried) Unit} (hfailed : p.1.failed = some .pastEnd)
    (hgrown : p.2 <+: right.state.2) (hlonger : ∀ q, right = .ok () q → p.2.length < q.2.length) :
    CutShort extra (.err .pastEnd p) right :=
  Or.inl ⟨rfl, hfailed, hgrown, hlonger⟩

/-- **A program does on a bit string what it does on a longer one**, unless it is refused as past
the end. -/
theorem trace_cutShort {program : Program} (hopen : program.Open) (hlive : c.Live)
    (extra : List Bool) (log : List Carried) :
    CutShort extra (program.trace build (c, log)) (program.trace build (c.extend extra, log)) := by
  induction program generalizing c log with
  | done => exact ⟨rfl, rfl⟩
  | step operation next ih =>
      have hsettles := Decoder.run_settles operation.decoder hlive
      have hmatch := Decoder.run_extend operation.decoder hlive extra
      have hlive' : (c.extend extra).Live := hlive
      rcases hrun : operation.decoder.run c with ⟨value, c'⟩ | ⟨error, c'⟩ | c'
      · rw [hrun] at hmatch hsettles
        obtain ⟨c'', hrun', rfl⟩ := hmatch.ok_left
        rw [trace_step_of_ok hrun, trace_step_of_ok hrun']
        exact ih value (hopen value) hsettles.2 _
      · rw [hrun] at hmatch hsettles
        rw [trace_step_of_err hrun]
        obtain rfl | ⟨c'', hrun', rfl⟩ := hmatch.err_left
        · -- the string ends inside this operation, which the longer one may carry
          have hgrown := (trace_leaves (step operation next) build hlive' log).grown
          refine cutShort_of_err hsettles.2 hgrown fun q hright => ?_
          obtain ⟨value, c₁, hrun', hright⟩ := trace_step_eq_ok hright
          have hsettles' := Decoder.run_settles operation.decoder hlive'
          rw [hrun'] at hsettles'
          have hlonger := trace_leaves (next value) build hsettles'.2 (log ++ [⟨operation, value⟩])
          rw [hright] at hlonger
          have hlength := hlonger.2.length_le
          rw [List.length_append, List.length_singleton] at hlength
          exact hlength
        · rw [trace_step_of_err hrun']
          exact Or.inr ⟨_, rfl, rfl⟩
      · rw [hrun] at hmatch
        obtain ⟨c'', hrun', rfl⟩ := hmatch.trap_left
        rw [trace_step_of_trap hrun, trace_step_of_trap hrun']
        exact rfl
  | object body next ihbody ih =>
      have hbody := trace_leaves body build hlive log
      have hmatch := ihbody hopen.1 hlive log
      have hlive' : (c.extend extra).Live := hlive
      rcases hrun : body.trace build (c, log) with ⟨⟨⟩, c', log'⟩ | ⟨error, c', log'⟩ | ⟨c', log'⟩
      · rw [hrun] at hmatch hbody
        obtain ⟨p, hrun', rfl⟩ := hmatch.ok_left
        rw [trace_object_of_ok hlive hbody.1 hrun,
          trace_object_of_ok hlive' (show (c'.extend extra).Live from hbody.1) hrun']
        exact ih _ (hopen.2 _) hbody.1 _
      · rw [hrun] at hmatch hbody
        rw [trace_object_of_err hlive hbody.1 hrun]
        obtain ⟨rfl, hfailed, hgrown, hlonger⟩ | ⟨p, hrun', rfl⟩ := hmatch.err_left
        · have hbody' := trace_leaves body build hlive' log
          rcases hrun' : body.trace build (c.extend extra, log) with ⟨⟨⟩, c₁, log₁⟩ |
            ⟨error, c₁, log₁⟩ | p
          · rw [hrun'] at hbody' hgrown hlonger
            rw [trace_object_of_ok hlive' hbody'.1 hrun']
            have hrest := trace_leaves (next (log₁.drop log.length)) build hbody'.1 log₁
            refine cutShort_of_err hfailed (hgrown.trans hrest.grown) fun q hright => ?_
            rw [hright] at hrest
            exact (hlonger _ rfl).trans_le hrest.2.length_le
          · rw [hrun'] at hbody' hgrown
            rw [trace_object_of_err hlive' hbody'.1 hrun']
            exact cutShort_of_err hfailed hgrown fun q hright => nomatch hright
          · rw [hrun'] at hgrown
            rw [trace_object_of_trap hlive' hrun']
            exact cutShort_of_err hfailed hgrown fun q hright => nomatch hright
        · rw [trace_object_of_err hlive' (show (c'.extend extra).failed = some error from hbody.1) hrun']
          exact Or.inr ⟨_, rfl, rfl⟩
      · rw [hrun] at hmatch
        obtain ⟨p, hrun', rfl⟩ := hmatch.trap_left
        rw [trace_object_of_trap hlive hrun, trace_object_of_trap hlive' hrun']
        exact rfl
  | finish next ih => exact hopen.elim

end Program

/-! ### Whole packets -/

theorem finishAt_eq_ok_iff {c c' : Cursor Error} : finishAt c = .ok () c' ↔
    c.Live ∧ c.remaining.length < 8 ∧ ofBits c.remaining = 0
      ∧ c' = c.advance c.remaining.length := by
  rw [finishAt, Cursor.Live]
  rcases hfailed : c.failed with - | reason
  · dsimp only
    by_cases hlong : 8 ≤ c.remaining.length
    · rw [if_pos hlong, Cursor.latch_of_live hfailed]
      refine iff_of_false (fun h => ?_) fun h => ?_
      · cases h
      · omega
    · rw [if_neg hlong]
      by_cases hzero : ofBits c.remaining = 0
      · rw [if_pos hzero]
        constructor
        · intro h
          cases h
          exact ⟨rfl, Nat.not_le.mp hlong, hzero, rfl⟩
        · rintro ⟨-, -, -, rfl⟩
          rfl
      · rw [if_neg hzero, Cursor.latch_of_live (show (c.advance _).Live from hfailed)]
        refine iff_of_false (fun h => ?_) fun h => hzero h.2.2.1
        cases h
  · refine iff_of_false (fun h => ?_) fun h => ?_
    · cases h
    · cases h.1

namespace Program

variable [Arithmetic] {build : Build} {memory : Memory} {program : Program}
  {stream final : ReadStream} {packet : List U8} {log : List Carried}

theorem run_over (hover : stream.Over packet build) (program : Program) (memory : Memory)
    (build' : Build) :
    (program.run memory build' (stream, [])).Matches (Carrying Stands)
      (fun error p => NoEscape error p.1) (program.trace build' (startOf packet, [])) := by
  obtain ⟨hvalid, hcursor⟩ := hover.cursor
  exact program.run_sim memory build' _ _ ⟨⟨hvalid, hcursor⟩, rfl⟩

theorem runToEnd_eq_ok (hover : stream.Over packet build)
    (h : program.runToEnd memory build (stream, []) = .ok () (final, log)) :
    ∃ c, program.trace build (startOf packet, []) = .ok () (c, log)
      ∧ c.remaining.length < 8 ∧ ofBits c.remaining = 0 := by
  have hmatch := run_over hover program memory build
  rw [runToEnd, bind_apply] at h
  obtain ⟨_, ⟨stream', log'⟩, hrun, hend⟩ := Outcome.bind_eq_ok.mp h
  rw [hrun] at hmatch
  obtain ⟨⟨c, _⟩, htrace, ⟨hstands, rfl⟩⟩ := hmatch.ok_left
  have hfinish := readEnd_sim build stream' c hstands
  rw [onState_apply] at hend
  rcases hread : readEnd build stream' with ⟨⟨⟩, ended⟩ | ⟨error, ended⟩ | ended
  · rw [show serializeEnd build stream' = _ from hread, Outcome.mapState_ok] at hend
    cases hend
    rw [hread] at hfinish
    obtain ⟨c', hfinishAt, -⟩ := hfinish.ok_left
    obtain ⟨-, hshort, hzero, -⟩ := finishAt_eq_ok_iff.mp hfinishAt
    exact ⟨c, htrace, hshort, hzero⟩
  · rw [show serializeEnd build stream' = _ from hread, Outcome.mapState_err] at hend
    cases hend
  · rw [show serializeEnd build stream' = _ from hread, Outcome.mapState_trap] at hend
    cases hend

end Program

end Serialize
