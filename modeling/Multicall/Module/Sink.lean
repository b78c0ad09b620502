import Multicall.Json.Printer
import Multicall.Module.Course
/-!
How a module writes parts of its own into the response. Every call is queued in call order and
none waits or answers; stream names count up from zero over the whole batch. A sink that belongs
to no response takes the same calls and drops them.
-/
namespace Multicall

/-- The state that modules share: their own world, and the next stream name. -/
structure ModuleState (ω : Type) where
  world : ω
  nextStream : StreamId

/-- Whether anything written is kept. -/
structure Sink where
  attached : Bool
  deriving DecidableEq, Repr

/-- Code that runs inside a module. -/
abbrev ModuleCode (ω α : Type) := Activity (ModuleState ω) α

namespace Sink

variable {ω : Type}

def enqueue (sink : Sink) (c : PartCommand) : ModuleCode ω Unit :=
  if sink.attached then .send c else pure ()

def openPart (sink : Sink) (mime : MediaType) : ModuleCode ω StreamId := do
  let stream := (← Activity.get).nextStream
  Activity.modify fun s => { s with nextStream := stream + 1 }
  sink.enqueue (.openPart stream mime)
  return stream

def openText (sink : Sink) : ModuleCode ω StreamId := sink.openPart .text

def openJson (sink : Sink) : ModuleCode ω StreamId := sink.openPart .json

def print (sink : Sink) (stream : StreamId) (text : String) : ModuleCode ω Unit :=
  sink.enqueue (.write stream (Octets.ofText text))

/-- Writes the compact text of a value; one without a JSON form is dropped with a note. -/
def printJson (sink : Sink) (stream : StreamId) (value : Except String Json) :
    ModuleCode ω Unit :=
  match value with
  | .ok j => sink.enqueue (.write stream j.octets)
  | .error reason => .record (.valueDropped reason)

def close (sink : Sink) (stream : StreamId) : ModuleCode ω Unit :=
  sink.enqueue (.close stream)

end Sink
end Multicall
