import Multicall.Batch.Call
import Multicall.Module.Operation
/-!
Handlers: the operations of one namespace, in registration order. A handler is built from a draft,
which is refused when a name cannot be called, asks for help, or occurs twice. What a handler says
about itself comes from the same table that calls go through.
-/
namespace Multicall

/-- Runs once when a handler is given up, with the handler's own name. -/
abbrev CloseHook (ω : Type) := String → ModuleCode ω Unit

structure Handler (ω : Type) where
  name : String
  operations : Assoc (Operation ω)
  onClose : Option (CloseHook ω)

/-- A handler in the making. -/
structure Draft (ω : Type) where
  name : String
  operations : List (Operation ω)
  onClose : Option (CloseHook ω)

/-- Whether calls can reach an operation of this name. -/
def isCallable (name : String) : Bool :=
  Call.isFunction name && name ≠ helpWord && (Ascii.dropWord? helpColon name).isNone

namespace Draft

variable {ω : Type}

/-- Enters operations one by one into a table. -/
def enter (draftName : String) (table : Assoc (Operation ω)) :
    List (Operation ω) → Except LoadError (Assoc (Operation ω))
  | [] => .ok table
  | op :: rest =>
      if !isCallable op.name then
        .error (.invalidHandler draftName ("operation name `" ++ op.name ++ "` is not allowed"))
      else if (table.get? op.name).isSome then
        .error (.invalidHandler draftName ("operation `" ++ op.name ++ "` registered twice"))
      else enter draftName (table.set op.name op) rest

/-- The handler, with the hook; a refused draft takes its hook with it. -/
def build (d : Draft ω) : Except LoadError (Handler ω) := do
  return ⟨d.name, ← enter d.name [] d.operations, d.onClose⟩

end Draft

namespace Handler

variable {ω : Type}

def operation? (name : String) (h : Handler ω) : Option (Operation ω) := h.operations.get? name

def operationNames (h : Handler ω) : List String := h.operations.keys

def size (h : Handler ω) : Nat := h.operations.length

/-- Gives a handler up. -/
def close (h : Handler ω) : ModuleCode ω Unit :=
  match h.onClose with
  | some hook => hook h.name
  | none => pure ()

/-- The names of all operations. -/
def listing (h : Handler ω) : Json :=
  .object [("functions", .array (h.operationNames.map .string))]

def declarationJson (p : Declaration) : Json :=
  .object [("name", .string p.name), ("type", .string p.type), ("optional", .bool p.optional)]

def descriptionJson (function : String) (parameters : List Declaration) (returns : String) : Json :=
  .object [("function", .string function), ("args", .array (parameters.map declarationJson)),
    ("return", .string returns)]

/-- What is said of an operation that does not exist. -/
def noDescription : Json := descriptionJson "Invalid operation" [] Operation.noReturn

def description (name : String) (h : Handler ω) : Json :=
  match h.operation? name with
  | some op => descriptionJson op.name op.parameters op.returns
  | none => noDescription

end Handler
end Multicall
