import Multicall.Batch.Settings
import Multicall.Module.Handler
import Multicall.Module.Manifest
/-!
The modules that a program knows, by namespace. A module is a factory, called with all it may need;
with a route directory, a namespace loads only if its manifest is there and can be read. A factory
that builds a handler of another name is refused, and that handler is given up at once.
-/
namespace Multicall

/-- What the embedding program hands to every factory. -/
inductive AppContext
  | empty
  | text (value : String)
  | integer (value : Int)
  deriving DecidableEq, Repr

/-- What a factory is called with. -/
structure ModuleContext where
  namespaceName : String
  settings : BatchSettings
  app : AppContext
  sink : Sink
  manifest : Option Toml.Table

abbrev Factory (ω : Type) := ModuleContext → ModuleCode ω (Except LoadError (Handler ω))

structure Registry (ω : Type) where
  factories : Assoc (Factory ω)
  routes : Option RouteDirectory

/-- The surroundings in which namespaces are loaded. -/
structure LoadContext where
  settings : BatchSettings
  app : AppContext
  sink : Sink

namespace Registry

variable {ω : Type}

def empty : Registry ω := ⟨[], none⟩

/-- A later factory for a namespace takes the place of an earlier one. -/
def register (name : String) (factory : Factory ω) (r : Registry ω) : Registry ω :=
  { r with factories := r.factories.set name factory }

/-- The namespaces that are known. Their order means nothing. -/
def namespaces (r : Registry ω) : List String := r.factories.keys

/-- The manifest of a namespace; without a route directory there is none, and none is needed. -/
def manifest (name : String) (r : Registry ω) : Except LoadError (Option Toml.Table) :=
  match r.routes with
  | none => .ok none
  | some directory => (directory.manifest name).map some

/-- Accepts a handler of the right name and gives up any other. -/
def check (name : String) (built : Except LoadError (Handler ω)) :
    ModuleCode ω (Except LoadError (Handler ω)) := do
  match built with
  | .error e => return .error e
  | .ok handler =>
      if handler.name = name then return .ok handler
      else
        handler.close
        return .error (.invalidHandler name ("factory built a handler for `" ++ handler.name ++ "`"))

def load (r : Registry ω) (ctx : LoadContext) (name : String) :
    ModuleCode ω (Except LoadError (Handler ω)) :=
  match r.factories.get? name with
  | none => return .error (.unknownNamespace name)
  | some factory =>
      match r.manifest name with
      | .error e => return .error e
      | .ok manifest => do
          check name (← factory ⟨name, ctx.settings, ctx.app, ctx.sink, manifest⟩)

end Registry
end Multicall
