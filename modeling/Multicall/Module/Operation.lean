import Multicall.Module.Arguments
import Multicall.Module.Sink
import Multicall.Response.Payload
/-!
Operations: a name, declared parameters, a declared return type and the code to run. Declared
types only inform; what counts is which parameters must be there. Binding takes the declared
arguments out of those supplied, unchanged and in declaration order.
-/
namespace Multicall

/-- A declared parameter. -/
structure Declaration where
  name : String
  type : String
  optional : Bool
  deriving DecidableEq, Repr

structure Operation (ω : Type) where
  name : String
  parameters : List Declaration
  returns : String
  invoke : Arguments → ModuleCode ω (Except Raised (Payload ω))

namespace Operation

/-- The return type of an operation that declares none. -/
def noReturn : String := "void"

def missing (parameter operation : String) : Failure :=
  .shown ("Missing argument `" ++ parameter ++ "` `" ++ operation ++ "`") []

/-- Binds the declared parameters one by one on top of what is bound. -/
def bindAll (operation : String) (supplied : Members) :
    List Declaration → Arguments → Except Failure Arguments
  | [], bound => .ok bound
  | p :: rest, bound =>
      match Json.present? (supplied.get? p.name) with
      | some value => bindAll operation supplied rest (bound.bind p.name value)
      | none =>
          if p.optional then bindAll operation supplied rest bound
          else .error (missing p.name operation)

def bindArguments (name : String) (parameters : List Declaration) (supplied : Members) :
    Except Failure Arguments :=
  bindAll name supplied parameters .empty

end Operation
end Multicall
