import Multicall.Proofs.Upkeep
/-!
Failing transports, as the modules notice them. A transport that never panics lets a run take the turns
of all its entries, whatever becomes of the calls. It has a say in one thing only, and that is how far
each sequence is pulled: counts, and all that is asked of the modules, are what the turns come to. Where
no code can tell how far a sequence has been pulled, they are the same over all such transports.
-/
namespace Multicall

open Multicall.Action

namespace Batch

variable {ω : Type}

/-- A run counts, and asks of its modules, what an account of the watched modules says. -/
structure ComesTo (setting : Setting ω) (world : ω) (body : Octets) (info : RequestInfo) (peer : Peer)
    (boundary : Boundary) (a : Account (Watched ω)) : Prop where
  summary : (run setting world body info peer boundary).state.summary = a.summary
  requests : requests setting world body info peer boundary = a.closing.finalState.modules.world.log

def tableOperation : Operation Unit where
  name := "rows"
  parameters := []
  returns := Operation.noReturn
  invoke _ := return .ok (.sequence (.ofList ((List.range 9).map fun i => .ok (.int i))))

def table : Registry Unit := Registry.empty.register "table" fun _ =>
  return Draft.build ⟨"table", [tableOperation], none⟩

end Batch
end Multicall
