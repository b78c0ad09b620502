import Multicall.Module.Search
import Multicall.Response.Encoder
/-!
The namespace `system`: operations that answer without looking at anything but their arguments. With
`search` it is what a registry starts from.
-/
namespace Multicall.System

variable {ω : Type}

def name : String := "system"

/-- The name and the version that the program gives itself. -/
def programName : String := "batch_rpc"

def programVersion : String := "0.1.0"

/-- The greatest count that `sequence` accepts. -/
def maxSequence : Nat := 100000

/-- Code whose failures are those of its arguments. -/
def answering (r : Except Failure (Payload ω)) : ModuleCode ω (Except Raised (Payload ω)) :=
  match r with
  | .ok payload => return .ok payload
  | .error f => return .error (.failure f [])

def ping : Operation ω where
  name := "ping"
  parameters := []
  returns := "string"
  invoke _ := answering (.ok (.json (.string "pong")))

def version : Operation ω where
  name := "version"
  parameters := []
  returns := "object"
  invoke _ := answering (.ok (.json (.object
    [("name", .string programName), ("version", .string programVersion),
     ("protocol", .int protocolVersion)])))

def echo : Operation ω where
  name := "echo"
  parameters := [⟨"value", "mixed", false⟩]
  returns := "mixed"
  invoke arguments := answering do return .json (← arguments.required Reading.any "value")

/-- Whole numbers one after the other. -/
def countFrom (start : Int) (count : Nat) : Producer ω := fun index =>
  return if index < count then some (.ok (.int (start + index))) else none

def sequenceOf (arguments : Arguments) : Except Failure (Payload ω) := do
  let count ← arguments.required Reading.unsigned64 "count"
  let start ← arguments.optional Reading.signed64 "start"
  if (maxSequence : Int) < count then
    .error (.shown ("`count` must be at most " ++ Ascii.decimal maxSequence) [])
  else return .sequence (countFrom (start.getD 0) count.toNat)

def sequence : Operation ω where
  name := "sequence"
  parameters := [⟨"count", "int", false⟩, ⟨"start", "int", true⟩]
  returns := "iterable"
  invoke arguments := answering (sequenceOf arguments)

/-- Writes a text as a part of its own. -/
def print (sink : Sink) : Operation ω where
  name := "print"
  parameters := [⟨"text", "string", false⟩]
  returns := "void"
  invoke arguments := do
    match arguments.required Reading.text "text" with
    | .error f => answering (.error f)
    | .ok text =>
        let stream ← sink.openText
        sink.print stream text
        sink.close stream
        answering (.ok (.json .null))

def factory : Factory ω := fun ctx =>
  return Draft.build ⟨ctx.namespaceName, [ping, version, echo, sequence, print ctx.sink], none⟩

end Multicall.System

namespace Multicall

def Registry.builtin {ω : Type} : Registry ω :=
  (Registry.empty.register System.name System.factory).register Search.name Search.factory

end Multicall
