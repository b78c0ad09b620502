import Multicall.Settings.Value
/-!
The nodes of a YAML document, and the settings that they stand for. Any node may be the key of an
entry, but only an entry whose key is a text is a setting; what stands in another is not looked at.
-/
namespace Multicall.Settings.Yaml

/-- A node. A float keeps its word, and a node whose tag or name promises what is not there is
`unknown`. -/
inductive Node
  | null
  | boolean (value : Bool)
  | integer (value : Int)
  | float (word : String)
  | text (value : String)
  | list (items : List Node)
  | mapping (entries : List (String × Node))
  | unknown

def based? (base : Nat) (cs : List Char) : Option Int := do
  let (negative, ds) := Ascii.splitSign cs
  let magnitude ← Ascii.valueIn? base ds
  let n : Int := if negative then -magnitude else magnitude
  if ds.isEmpty || !Integer64.fits n then none else some n

def integer? (word : String) : Option Int :=
  let inBase : Option Int := match word.toList with
    | '0' :: 'x' :: ds => based? 16 ds
    | '0' :: 'o' :: ds => based? 8 ds
    | '+' :: rest => Integer64.parse? (String.ofList rest)
    | _ => none
  inBase <|> Integer64.parse? word

def unboundedWords : List String :=
  [".inf", ".Inf", ".INF", "+.inf", "+.Inf", "+.INF", "-.inf", "-.Inf", "-.INF", ".nan", ".NAN"]

def isFloat (word : String) : Bool :=
  unboundedWords.contains word || (Extended.parse? word).isSome

def boolean? : String → Option Bool
  | "true" => some true
  | "false" => some false
  | _ => none

def Node.ofPlain (word : String) : Node :=
  if word = "~" || word = "null" then .null
  else
    match boolean? word, integer? word with
    | some b, _ => .boolean b
    | none, some n => .integer n
    | none, none => if isFloat word then .float word else .text word

def Node.ofKind (kind word : String) : Node :=
  match kind with
  | "bool" => (boolean? word).elim .unknown .boolean
  | "int" => (Integer64.parse? word).elim .unknown .integer
  | "float" => if isFloat word then .float word else .unknown
  | "null" => if word = "~" || word = "null" then .null else .unknown
  | _ => .text word

/-- The entries of a mapping from its nodes in order, each key in front of its value. What is
unknown is no key. -/
def entriesOfNodes : List Node → Assoc Node → Assoc Node
  | .unknown :: rest, entries => entriesOfNodes rest entries
  | .text name :: value :: rest, entries => entriesOfNodes rest (entries.set name value)
  | _ :: _ :: rest, entries => entriesOfNodes rest entries
  | _, entries => entries

mutual
/-- The setting that a node stands for. A float has to be written in digits, or as a word without a
point. -/
def Node.value? : Node → Option Value
  | .null | .unknown => some .null
  | .boolean b => some (.boolean b)
  | .integer n => some (.integer n)
  | .float word => (Extended.parse? word).map .float
  | .text s => some (.text s)
  | .list items => do return .list (← nodeValues? items)
  | .mapping entries => do return .group (← entryValues? entries)

def nodeValues? : List Node → Option (List Value)
  | [] => some []
  | item :: rest => do return (← item.value?) :: (← nodeValues? rest)

def entryValues? : List (String × Node) → Option (List (String × Value))
  | [] => some []
  | (name, node) :: rest => do return (name, ← node.value?) :: (← entryValues? rest)
end

end Multicall.Settings.Yaml
