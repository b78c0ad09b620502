import Multicall.Batch.Call
import Multicall.Batch.Resolver
import Multicall.Response.Payload
/-!
Processing one entry. It goes through fixed stages, from the check of its id to the call of its
operation, and the first stage that fails decides the result; later stages leave no trace. A panic
anywhere in it, in loading a module too, fails this entry alone.
-/
namespace Multicall.Entry

variable {ω : Type}

/-- Calls an operation of a loaded handler. -/
def invoke (handler : Handler ω) (name : String) (supplied : Members) : BatchCode ω (EntryResult ω) :=
  match handler.operation? name with
  | none => return .error (.shown "Invalid operation" [])
  | some op =>
      match Operation.bindArguments op.name op.parameters supplied with
      | .error f => return .error f
      | .ok arguments => do
          match ← Workshop.inModules (op.invoke arguments) with
          | .ok payload => return .ok payload
          | .error raised => return .error (.ofRaised raised)

/-- Answers a checked call. -/
def answer (registry : Registry ω) (ctx : LoadContext) (call : Call) : BatchCode ω (EntryResult ω) := do
  match ← Workshop.resolve registry ctx call.namespaceName with
  | .error e => return .error (.ofLoad e)
  | .ok handler =>
      match call.invocation with
      | .list => return .ok (.json handler.listing)
      | .describe name => return .ok (.json (handler.description name))
      | .call name => invoke handler name call.arguments

def attempt (registry : Registry ω) (ctx : LoadContext) (id : String) (body : Json) :
    BatchCode ω (EntryResult ω) :=
  match Call.ofEntry id body with
  | .error f => return .error f
  | .ok call => answer registry ctx call

/-- Processes one entry. -/
def process (registry : Registry ω) (ctx : LoadContext) (id : String) (body : Json) :
    BatchCode ω (EntryResult ω) := do
  match ← (attempt registry ctx id body).attempt with
  | .ok result => return result
  | .error p => return .error (.ofPanic p)

end Multicall.Entry
