import Multicall.Integer64
import Multicall.Json.Basic
import Multicall.Toml.Basic
/-!
Setting values, whatever kind of file they come from. An integer that fits no signed word of 64
bits is taken as a double.
-/
namespace Multicall.Settings

inductive Value
  | null
  | boolean (value : Bool)
  | integer (value : Int)
  | float (value : Extended)
  | text (value : String)
  | list (items : List Value)
  | group (entries : List (String × Value))

/-- The entries of a group. -/
abbrev Group := Assoc Value

/-- An integer as a setting. -/
def Value.ofInt (n : Int) : Value :=
  if Integer64.fits n then .integer n
  else .float ((Binary64.ofInt n).elim (.infinite (n < 0)) .finite)

mutual
def Value.ofToml : Toml.Value → Value
  | .string s | .moment s => .text s
  | .integer n => .integer n
  | .float x => .float x
  | .boolean b => .boolean b
  | .array items => .list (itemsOfToml items)
  | .table entries => .group (entriesOfToml entries)

def itemsOfToml : List Toml.Value → List Value
  | [] => []
  | item :: rest => Value.ofToml item :: itemsOfToml rest

def entriesOfToml : List (String × Toml.Value) → List (String × Value)
  | [] => []
  | (name, value) :: rest => (name, Value.ofToml value) :: entriesOfToml rest
end

mutual
def Value.ofJson : Json → Value
  | .null => .null
  | .bool b => .boolean b
  | .number (.int n) => .ofInt n
  | .number (.double x) => .float (.finite x)
  | .string s => .text s
  | .array items => .list (itemsOfJson items)
  | .object members => .group (entriesOfJson members)

def itemsOfJson : List Json → List Value
  | [] => []
  | item :: rest => Value.ofJson item :: itemsOfJson rest

def entriesOfJson : List (String × Json) → List (String × Value)
  | [] => []
  | (name, value) :: rest => (name, Value.ofJson value) :: entriesOfJson rest
end

end Multicall.Settings
