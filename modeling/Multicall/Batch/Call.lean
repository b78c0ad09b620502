import Multicall.Failure.Basic
/-!
One entry of a batch, checked by itself: its id, its namespace, its operation and its arguments,
in this order. The first fault decides the failure.
-/
namespace Multicall

/-- Words that ask a handler about itself. -/
def helpWord : String := "HELP"

def helpColon : String := "HELP:"

structure Call where
  namespaceName : String
  function : String
  arguments : Members

/-- What a call asks of its handler. -/
inductive Invocation
  | list
  | describe (name : String)
  | call (name : String)
  deriving DecidableEq, Repr

namespace Call

def isIdChar (c : Char) : Bool := c.isAlphanum || c == ':' || c == '.' || c == '_' || c == '-'

def isId (s : String) : Bool := Ascii.consistsOf isIdChar s

def isNamespace (s : String) : Bool := Ascii.startsAlnumThen (fun c => c.isAlphanum || c == '_') s

def isFunction (s : String) : Bool :=
  Ascii.startsAlnumThen (fun c => c.isAlphanum || c == '_' || c == ':') s

/-- A member that is a text of the given form. -/
def textMember? (isForm : String → Bool) (name : String) (fields : Members) : Option String :=
  match fields.get? name with
  | some (.string s) => if isForm s then some s else none
  | _ => none

/-- The arguments of an entry; none and `null` are no arguments. -/
def argumentsOf? (fields : Members) : Option Members :=
  match fields.get? "arguments" with
  | none | some .null => some []
  | some (.object arguments) => some arguments
  | some _ => none

def ofMembers (fields : Members) : Except Failure Call :=
  match textMember? isNamespace "ns" fields with
  | none => .error (.shown "Invalid namespace" [])
  | some namespaceName =>
      match textMember? isFunction "function" fields with
      | none => .error (.shown "Invalid operation" [])
      | some function =>
          match argumentsOf? fields with
          | none => .error (.shown "Invalid arguments" [])
          | some arguments => .ok ⟨namespaceName, function, arguments⟩

def ofEntry (id : String) (body : Json) : Except Failure Call :=
  if !isId id then .error (.shown ("Invalid id " ++ id) [])
  else
    match body with
    | .object fields => ofMembers fields
    | _ => .error (.shown "Invalid namespace" [])

/-- What a function word asks for. -/
def invocationOf (function : String) : Invocation :=
  if function = helpWord then .list
  else
    match Ascii.dropWord? helpColon function with
    | some name => .describe name
    | none => .call function

def invocation (c : Call) : Invocation := invocationOf c.function

end Call
end Multicall
