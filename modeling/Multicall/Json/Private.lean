import Multicall.Json.Basic
/-!
Private members. A name that starts with an underscore marks a member that never leaves the
program; removing them keeps the order of all others, at every depth.
-/
namespace Multicall.Json

def isPrivate (name : String) : Bool := name.toList.head? == some '_'

mutual
/-- The document without its private members, at any depth. -/
def withoutPrivate : Json → Json
  | .array items => .array (itemsWithoutPrivate items)
  | .object members => .object (membersWithoutPrivate members)
  | scalar => scalar

def itemsWithoutPrivate : List Json → List Json
  | [] => []
  | item :: rest => withoutPrivate item :: itemsWithoutPrivate rest

def membersWithoutPrivate : List (String × Json) → List (String × Json)
  | [] => []
  | (name, value) :: rest =>
      if isPrivate name then membersWithoutPrivate rest
      else (name, withoutPrivate value) :: membersWithoutPrivate rest
end

end Multicall.Json
