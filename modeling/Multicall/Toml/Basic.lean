import Multicall.Binary64.Reading
import Multicall.Json.Basic
/-!
TOML values. As a JSON document a table has its names in order of their characters, a moment keeps
its text under a name of its own, and a double that is not finite becomes `null`.
-/
namespace Multicall.Toml

inductive Value
  | string (value : String)
  | integer (value : Int)
  | float (value : Extended)
  | boolean (value : Bool)
  | moment (text : String)
  | array (items : List Value)
  | table (entries : List (String × Value))

/-- The entries of a table. -/
abbrev Table := Assoc Value

/-- The name under which a moment keeps its text. -/
def momentName : String := "$__toml_private_datetime"

def inNameOrder (members : Members) : Members := members.mergeSort fun a b => !(b.1 < a.1)

mutual
def Value.toJson : Value → Json
  | .string s => .string s
  | .integer n => .int n
  | .float (.finite x) => .number (.double x)
  | .float _ => .null
  | .boolean b => .bool b
  | .moment text => .object [(momentName, .string text)]
  | .array items => .array (itemsToJson items)
  | .table entries => .object (inNameOrder (entriesToJson entries))

def itemsToJson : List Value → List Json
  | [] => []
  | item :: rest => item.toJson :: itemsToJson rest

def entriesToJson : List (String × Value) → Members
  | [] => []
  | (name, value) :: rest => (name, value.toJson) :: entriesToJson rest
end

def Table.toJson (t : Table) : Json := (Value.table t).toJson

end Multicall.Toml
