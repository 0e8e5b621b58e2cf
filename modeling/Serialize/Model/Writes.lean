import Serialize.Model.Client
import Serialize.Model.Program

/-!
# The write side

A write stream has by-value twins of the unified operations, for callers that hold the value behind
a shared reference or would have to copy it. A caller writes or measures through the same interface
as it reads, so a client of a reader is a client of the two other streams as well.
-/

namespace Serialize

open Machine
open Binary32 (Arithmetic)

namespace WriteStream

/-- `let _ = self.serialize(&mut value)`: the operation on a copy of the value, its result
dropped. -/
def dropResult {κ : Type} (value : κ) (m : Action (WriteStream × κ) Unit) : Action WriteStream Unit :=
  fun build stream => match m build (stream, value) with
    | .ok () (stream', _) => .ok () stream'
    | .err _ (stream', _) => .ok () stream'
    | .trap (stream', _) => .trap stream'

def writeBits (value bits : U32) : Action WriteStream Unit := onWriter (BitWriter.writeBits value bits)

def writeBits64 (value : U64) (bits : U32) : Action WriteStream Unit :=
  dropResult value (serializeBits64 bits)

def writeInt (value min max : I32) : Action WriteStream Unit := dropResult value (serializeInt min max)

def writeInt64 (value min max : I64) : Action WriteStream Unit :=
  dropResult value (serializeInt64 min max)

def writeBool (value : Bool) : Action WriteStream Unit :=
  onWriter (BitWriter.writeBits (if value then 1 else 0) 1)

def writeU8 (value : U8) : Action WriteStream Unit :=
  onWriter (BitWriter.writeBits (value.setWidth 32) 8)

def writeU16 (value : U16) : Action WriteStream Unit :=
  onWriter (BitWriter.writeBits (value.setWidth 32) 16)

def writeU32 (value : U32) : Action WriteStream Unit := onWriter (BitWriter.writeBits value 32)

def writeU64 (value : U64) : Action WriteStream Unit := writeBits64 value 64

def writeF32 (value : F32) : Action WriteStream Unit := dropResult value serializeF32

def writeF64 (value : F64) : Action WriteStream Unit := dropResult value serializeF64

end WriteStream

/-- A by-value call. -/
inductive Write where
  | bits (value width : U32)
  | bits64 (value : U64) (width : U32)
  | int (value min max : I32)
  | int64 (value min max : I64)
  | bool (value : Bool)
  | u8 (value : U8)
  | u16 (value : U16)
  | u32 (value : U32)
  | u64 (value : U64)
  | f32 (value : F32)
  | f64 (value : F64)
  | bytes (data : List U8)
  deriving DecidableEq, Repr

namespace Write

def run : Write → Action WriteStream Unit
  | .bits value width => WriteStream.writeBits value width
  | .bits64 value width => WriteStream.writeBits64 value width
  | .int value min max => WriteStream.writeInt value min max
  | .int64 value min max => WriteStream.writeInt64 value min max
  | .bool value => WriteStream.writeBool value
  | .u8 value => WriteStream.writeU8 value
  | .u16 value => WriteStream.writeU16 value
  | .u32 value => WriteStream.writeU32 value
  | .u64 value => WriteStream.writeU64 value
  | .f32 value => WriteStream.writeF32 value
  | .f64 value => WriteStream.writeF64 value
  | .bytes data => WriteStream.writeBytes data

/-- The operation a call is the twin of, and the value it carries. -/
def twin : Write → Carried
  | .bits value width => ⟨.bits width, value⟩
  | .bits64 value width => ⟨.bits64 width, value⟩
  | .int value min max => ⟨.int min max, value⟩
  | .int64 value min max => ⟨.int64 min max, value⟩
  | .bool value => ⟨.bool, value⟩
  | .u8 value => ⟨.u8, value⟩
  | .u16 value => ⟨.u16, value⟩
  | .u32 value => ⟨.u32, value⟩
  | .u64 value => ⟨.u64, value⟩
  | .f32 value => ⟨.f32, value⟩
  | .f64 value => ⟨.f64, value⟩
  | .bytes data => ⟨.bytes data.length, data, rfl⟩

def runAll : List Write → Action WriteStream Unit
  | [] => pure ()
  | write :: writes => do
      write.run
      runAll writes

/-- The operations the calls are the twins of. -/
def operations (writes : List Write) : List Operation := writes.map fun write => write.twin.1

end Write

/-- Variables that hold what the log records of them, and nothing yet past its end. -/
def Memory.ofLog (log : List Carried) : Memory := fun n operation =>
  match log[n]? with
  | some entry => if h : entry.1 = operation then h ▸ entry.2 else operation.blank
  | none => operation.blank

theorem Memory.ofLog_holds (log : List Carried) : (Memory.ofLog log).Holds log := by
  intro i entry hentry
  rw [ofLog, hentry]
  exact dif_pos rfl

/-- The program that makes these calls, one after another. -/
def Program.calls : List Operation → Program
  | [] => .done
  | operation :: operations => .step operation fun _ => calls operations

instance [Arithmetic] : Reader WriteStream where
  observation stream :=
    { failure := none
      bitsProcessed := bitsProcessed stream
      bitLimit := stream.writer.numBits }
  operation operation := operation.run
  finish := serializeEnd
  fail := fail
  reject := reject
  object := serializeObject

/-- A measure stream has no end, so what it shows of one is nothing. -/
instance [Arithmetic] : Reader MeasureStream where
  observation stream :=
    { failure := none
      bitsProcessed := bitsProcessed stream
      bitLimit := 0 }
  operation operation := operation.run
  finish := serializeEnd
  fail := fail
  reject := reject
  object := serializeObject

end Serialize
