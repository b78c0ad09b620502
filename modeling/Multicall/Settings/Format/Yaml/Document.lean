import Multicall.Settings.Format.Yaml.Node
import Multicall.Settings.Format.Yaml.Token
/-!
YAML documents. A name stands for the node it was last put in front of, and for nothing inside of
that node. A key that comes up twice has its last value. A file holds one document at most.
-/
namespace Multicall.Settings.Yaml

/-- A node that has been read, the nodes that names stand for, and the tokens behind it. -/
abbrev Reading := Node × Assoc Node × List Token

structure Properties where
  anchor : Option String
  tag : Option (Option String)

def properties : List Token → Properties × List Token
  | .anchor name :: .tag kind :: rest | .tag kind :: .anchor name :: rest =>
      (⟨some name, some kind⟩, rest)
  | .anchor name :: rest => (⟨some name, none⟩, rest)
  | .tag kind :: rest => (⟨none, some kind⟩, rest)
  | tokens => (⟨none, none⟩, tokens)

def Properties.areGiven (p : Properties) : Bool := p.anchor.isSome || p.tag.isSome

def Properties.scalar (p : Properties) (isPlain : Bool) (text : String) : Node :=
  match p.tag, isPlain with
  | none, true => .ofPlain text
  | some (some kind), true => .ofKind kind text
  | _, _ => .text text

def Properties.name (p : Properties) (node : Node) (names : Assoc Node) : Assoc Node :=
  match p.anchor with
  | some name => names.set name node
  | none => names

def startsWith (ends tokens : List Token) : Bool := tokens.head?.any ends.contains

def blockEnds : List Token := [.key, .value, .blockEnd]

/-- The tokens behind a comma, which only comes up behind a first item. -/
def afterComma? (isFirst : Bool) (tokens : List Token) : Option (List Token) :=
  match isFirst, tokens with
  | true, tokens => some tokens
  | false, .flowEntry :: rest => some rest
  | false, _ => none

mutual
/-- The node at the start of some tokens. Each token is come to a few times. -/
def node? : Nat → (inBlock indentless : Bool) → Assoc Node → List Token → Option Reading
  | 0, _, _, _, _ => none
  | _, _, _, names, .reference name :: rest => (names.get? name).map (·, names, rest)
  | steps + 1, inBlock, indentless, names, tokens => do
      let (p, tokens) := properties tokens
      let names := p.name .unknown names
      let (node, names, rest) ← match tokens, inBlock, indentless with
        | .blockEntry :: _, _, true => indentlessItems? steps [] names tokens
        | .scalar isPlain text :: rest, _, _ => some (p.scalar isPlain text, names, rest)
        | .flowSequenceStart :: rest, _, _ => flowItems? steps true [] names rest
        | .flowMappingStart :: rest, _, _ => flowEntries? steps true [] names rest
        | .blockSequenceStart :: rest, true, _ => blockItems? steps [] names rest
        | .blockMappingStart :: rest, true, _ => blockEntries? steps [] names rest
        | rest, _, _ => if p.areGiven then some (p.scalar true "", names, rest) else none
      return (node, p.name node names, rest)

def blockNode? : Nat → (ends : List Token) → (indentless : Bool) → Assoc Node → List Token →
    Option Reading
  | 0, _, _, _, _ => none
  | steps + 1, ends, indentless, names, tokens =>
      if startsWith ends tokens then some (.null, names, tokens)
      else node? steps true indentless names tokens

def flowNode? : Nat → (ends : List Token) → Assoc Node → List Token → Option Reading
  | 0, _, _, _ => none
  | steps + 1, ends, names, tokens =>
      if startsWith ends tokens then some (.null, names, tokens)
      else node? steps false false names tokens

def blockItems? : Nat → List Node → Assoc Node → List Token → Option Reading
  | 0, _, _, _ => none
  | _, read, names, .blockEnd :: rest => some (.list read.reverse, names, rest)
  | steps + 1, read, names, .blockEntry :: rest => do
      let (item, names, rest) ← blockNode? steps [.blockEntry, .blockEnd] false names rest
      blockItems? steps (item :: read) names rest
  | _, _, _, _ => none

def indentlessItems? : Nat → List Node → Assoc Node → List Token → Option Reading
  | 0, _, _, _ => none
  | steps + 1, read, names, .blockEntry :: rest => do
      let (item, names, rest) ← blockNode? steps (.blockEntry :: blockEnds) false names rest
      indentlessItems? steps (item :: read) names rest
  | _, read, names, tokens => some (.list read.reverse, names, tokens)

/-- The entries of a mapping in a block; the nodes read come last one first. A key may be left out
in front of its colon, and the colon with the value. -/
def blockEntries? : Nat → List Node → Assoc Node → List Token → Option Reading
  | 0, _, _, _ => none
  | _, read, names, .blockEnd :: rest =>
      some (.mapping (entriesOfNodes read.reverse []), names, rest)
  | steps + 1, read, names, .key :: rest => do
      let (key, names, rest) ← blockNode? steps blockEnds true names rest
      let (value, names, rest) ← blockValue? steps names rest
      blockEntries? steps (value :: key :: read) names rest
  | steps + 1, read, names, .value :: rest => do
      let (value, names, rest) ← blockValue? steps names (.value :: rest)
      blockEntries? steps (value :: .null :: read) names rest
  | _, _, _, _ => none

def blockValue? : Nat → Assoc Node → List Token → Option Reading
  | 0, _, _ => none
  | steps + 1, names, .value :: rest => blockNode? steps blockEnds true names rest
  | _, names, tokens => some (.null, names, tokens)

/-- The items of a list in brackets. One with a question mark in front or a colon behind its start
is a mapping of one entry; where its key is left out, the token behind is left out as well. -/
def flowItems? : Nat → (isFirst : Bool) → List Node → Assoc Node → List Token → Option Reading
  | 0, _, _, _, _ => none
  | _, _, read, names, .flowSequenceEnd :: rest => some (.list read.reverse, names, rest)
  | steps + 1, isFirst, read, names, tokens => do
      match ← afterComma? isFirst tokens with
      | .flowSequenceEnd :: rest => some (.list read.reverse, names, rest)
      | .key :: rest => do
          let ends : List Token := [.value, .flowEntry, .flowSequenceEnd]
          let (key, names, behind) ← flowNode? steps ends names rest
          let behind := if startsWith ends rest then behind.drop 1 else behind
          let (value, names, rest) ← flowValue? steps [.flowEntry, .flowSequenceEnd] names behind
          let item := Node.mapping (entriesOfNodes [key, value] [])
          flowItems? steps false (item :: read) names rest
      | rest => do
          let (item, names, rest) ← node? steps false false names rest
          flowItems? steps false (item :: read) names rest

def flowEntries? : Nat → (isFirst : Bool) → List Node → Assoc Node → List Token → Option Reading
  | 0, _, _, _, _ => none
  | _, _, read, names, .flowMappingEnd :: rest =>
      some (.mapping (entriesOfNodes read.reverse []), names, rest)
  | steps + 1, isFirst, read, names, tokens => do
      let ends : List Token := [.flowEntry, .flowMappingEnd]
      match ← afterComma? isFirst tokens with
      | .flowMappingEnd :: rest => some (.mapping (entriesOfNodes read.reverse []), names, rest)
      | .key :: rest => do
          let (key, names, rest) ← flowNode? steps (.value :: ends) names rest
          let (value, names, rest) ← flowValue? steps ends names rest
          flowEntries? steps false (value :: key :: read) names rest
      | .value :: rest => do
          let (value, names, rest) ← flowValue? steps ends names (.value :: rest)
          flowEntries? steps false (value :: .null :: read) names rest
      | rest => do
          let (key, names, rest) ← node? steps false false names rest
          flowEntries? steps false (.null :: key :: read) names rest

def flowValue? : Nat → (ends : List Token) → Assoc Node → List Token → Option Reading
  | 0, _, _, _ => none
  | steps + 1, ends, names, .value :: rest => flowNode? steps ends names rest
  | _, _, names, tokens => some (.null, names, tokens)
end

/-- The tokens of a document behind its mark, and whether it has a mark. There has to be one behind
directives. -/
def content? (tokens : List Token) : Option (Bool × List Token) :=
  match tokens.dropWhile (· == .directive) with
  | .documentStart :: rest => some (true, rest)
  | rest => if tokens.contains .directive then none else some (false, rest)

def document? (tokens : List Token) : Option (Node × List Token) := do
  let (isMarked, content) ← content? tokens
  let isEmpty := content.isEmpty ||
    startsWith [.directive, .documentStart, .documentEnd] content
  if isMarked && isEmpty then return (.null, content)
  let (node, _, rest) ← node? (4 * tokens.length + 4) true false [] content
  return (node, rest)

def parse? (text : String) : Option Value := do
  let tokens ← tokens? (text.toList.takeWhile (· != '\x00'))
  if tokens.isEmpty then return .group []
  let (node, rest) ← document? tokens
  if (rest.dropWhile (· == .documentEnd)).isEmpty then node.value? else none

end Multicall.Settings.Yaml
