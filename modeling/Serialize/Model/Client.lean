import Serialize.Model.Operation

/-!
# Clients of a reader

A client is the code that calls a reader. It makes one call after another, sees the result of each
and what the variable it handed over holds afterwards, may look at the reader in between, and picks
its next step from everything it has seen. A nested object is a client of its own: its serialize
method ends with a result and leaves something in the object's memory, whatever its calls returned.

A run keeps a log for statements about runs to speak of. No step of a client reads it.
-/

namespace Serialize

open Machine
open Binary32 (Arithmetic)

/-- What a reader shows between two calls. -/
structure Observation where
  failure : Option Error
  bitsProcessed : Nat
  bitLimit : Nat
  deriving DecidableEq, Repr

/-- The code that calls a reader, with objects whose memory is of type `ω`. -/
inductive Client (ω : Type) where
  /-- Return a result, leaving `memory` in the object. -/
  | done (result : Result) (memory : ω)
  | observe (next : Observation → Client ω)
  /-- Call an operation on a variable that holds `prior`. -/
  | call (operation : Operation) (prior : operation.Value)
      (next : Result → operation.Value → Client ω)
  | finish (next : Result → Client ω)
  | fail (error : Error) (next : Result → Client ω)
  | reject (next : Result → Client ω)
  /-- Hand over an object whose memory holds `prior` and whose serialize method is `body`. -/
  | object (prior : ω) (body : Client ω) (next : Result → ω → Client ω)

/-- A call, with what the variable handed over held before and after it. -/
inductive Call (ω : Type) where
  | operation (operation : Operation) (prior final : operation.Value)
  | finish
  | fail (error : Error)
  | reject
  | object (prior final : ω) (invoked : Bool)

/-- A call that came back. -/
structure Event (ω : Type) where
  call : Call ω
  result : Result
  before : Observation
  after : Observation

/-- What the reader showed so far, and the calls that came back, both in order of time. -/
structure Log (ω : Type) where
  trail : List Observation
  events : List (Event ω)

namespace Log

variable {ω : Type}

def empty : Log ω := { trail := [], events := [] }

def notice (log : Log ω) (observation : Observation) : Log ω :=
  { log with trail := log.trail ++ [observation] }

def record (log : Log ω) (event : Event ω) : Log ω := { log with events := log.events ++ [event] }

end Log

/-- What a client calls a reader for. -/
class Reader (R : Type) where
  observation : R → Observation
  operation : (operation : Operation) → Action (R × operation.Value) Unit
  finish : Action R Unit
  fail : Error → Action R Unit
  reject : Action R Unit
  object : {δ : Type} → Action (R × δ) Unit → Action (R × δ) Unit

instance [Arithmetic] : Reader ReadStream where
  observation stream :=
    { failure := stream.failure
      bitsProcessed := bitsProcessed stream
      bitLimit := stream.reader.numBits }
  operation operation := operation.run
  finish := serializeEnd
  fail := fail
  reject := reject
  object := serializeObject

namespace Client

variable {R ω δ : Type} [Reader R]

/-- Look at the reader, which the log takes notice of. -/
def look : Action (R × Log ω) Observation := fun _ p =>
  .ok (Reader.observation p.1) (p.1, p.2.notice (Reader.observation p.1))

/-- Hand a call a variable that holds `prior`, and go on with its result and what the variable
holds then. -/
def handing (prior : δ) (call : Action (R × (Log ω × δ)) Unit) :
    Action (R × Log ω) (Result × δ) :=
  fun build p => match call build (p.1, p.2, prior) with
    | .ok () (reader, log, final) => .ok (.ok (), final) (reader, log)
    | .err error (reader, log, final) => .ok (.error error, final) (reader, log)
    | .trap (reader, log, _) => .trap (reader, log)

/-- A call that leaves the log alone. -/
def quietly (call : Action (R × δ) Unit) : Action (R × (Log ω × δ)) Unit :=
  focus (fun p => (p.1, p.2.2)) (fun p q => (q.1, p.2.1, q.2)) call

/-- The serialize method of an object: it notes that it was entered, and leaves what the client
leaves. -/
def method (body : Action (R × Log ω) (Result × ω)) : Action (R × (Log ω × (ω × Bool))) Unit :=
  fun build p => match body build (p.1, p.2.1) with
    | .ok (.ok (), memory) (reader, log) => .ok () (reader, log, memory, true)
    | .ok (.error error, memory) (reader, log) => .err error (reader, log, memory, true)
    | .err error (reader, log) => .err error (reader, log, p.2.2.1, true)
    | .trap (reader, log) => .trap (reader, log, p.2.2.1, true)

/-- Make a call and log it when it comes back. -/
def logged (describe : δ → Call ω) (call : Action (R × Log ω) (Result × δ)) :
    Action (R × Log ω) (Result × δ) := do
  let before ← look
  let answer ← call
  let after ← look
  modifyState fun p =>
    (p.1, p.2.record { call := describe answer.2, result := answer.1, before, after })
  pure answer

/-- The client's run on a reader. -/
def run : Client ω → Action (R × Log ω) (Result × ω)
  | .done result memory => pure (result, memory)
  | .observe next => do
      let seen ← look
      (next seen).run
  | .call operation prior next => do
      let answer ← logged (.operation operation prior)
        (handing prior (quietly (Reader.operation operation)))
      (next answer.1 answer.2).run
  | .finish next => do
      let answer ← logged (fun _ => .finish) (handing () (quietly (onState Reader.finish)))
      (next answer.1).run
  | .fail error next => do
      let answer ← logged (fun _ => .fail error)
        (handing () (quietly (onState (Reader.fail error))))
      (next answer.1).run
  | .reject next => do
      let answer ← logged (fun _ => .reject) (handing () (quietly (onState Reader.reject)))
      (next answer.1).run
  | .object prior body next => do
      let answer ← logged (fun final => .object prior final.1 final.2)
        (handing (prior, false) (Reader.object (method body.run)))
      (next answer.1 answer.2.1).run

end Client

end Serialize
