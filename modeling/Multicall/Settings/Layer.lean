import Multicall.Settings.Conversion
/-!
Layers of settings. Each layer names its values by paths: words with a point between levels, and
numbers in brackets for the items of a list. A layer is put on top of those below it: a group is
merged name by name, and any other value takes the place of what was there. The environment is the
top layer; its names carry a fixed word in front and two underscores between levels, and are
compared in lower case.
-/
namespace Multicall.Settings

def entriesOf : Option Value → Group
  | some (.group entries) => entries
  | _ => []

def itemsOf : Value → List Value
  | .list items => items
  | _ => []

mutual
def layOver : Value → Option Value → Value
  | .group [], old => old.getD (.group [])
  | .group (entry :: entries), old => .group (layEntries (entry :: entries) (entriesOf old))
  | v, _ => v

def layEntries : List (String × Value) → Group → Group
  | [], group => group
  | (name, value) :: rest, group =>
      layEntries rest (group.set name (layOver value (group.get? name)))
end

inductive PathStep
  | entry (name : String)
  | item (position : Int)

/-- The place of an item in a list of some length; a negative one counts from the end. -/
def itemIndex? (position : Int) (length : Nat) : Option Nat :=
  if 0 ≤ position then some position.toNat
  else if position.natAbs ≤ length then some (length - position.natAbs)
  else none

/-- Changes what a step leads to. What is in the way is replaced, and a list grows as needed. -/
def PathStep.alter (f : Value → Value) : PathStep → Value → Value
  | .entry name, v =>
      let entries := entriesOf (some v)
      .group (entries.set name (f ((entries.get? name).getD .null)))
  | .item position, v =>
      let items := itemsOf v
      match itemIndex? position items.length with
      | none => v
      | some i =>
          .list ((items ++ List.replicate (i + 1 - items.length) Value.null).modify i f)

/-- Puts a value on top of what the last step of a path leads to. An item is always replaced. -/
def PathStep.put (value : Value) : PathStep → Value → Value
  | .entry name, v =>
      let entries := entriesOf (some v)
      .group (entries.set name (layOver value (entries.get? name)))
  | .item position, v => (PathStep.item position).alter (fun _ => value) v

def setPath (value : Value) (step : PathStep) : List PathStep → Value → Value
  | [] => step.put value
  | next :: rest => step.alter (setPath value next rest)

def isWordChar (c : Char) : Bool := c.isAlphanum || c == '_' || c == '-' || c == ' '

def word? (cs : List Char) : Option (String × List Char) :=
  let word := cs.takeWhile isWordChar
  if word.isEmpty then none else some (String.ofList word, cs.dropWhile isWordChar)

def position? (cs : List Char) : Option (Int × List Char) :=
  let isSpace (c : Char) : Bool := c == ' ' || c == '\t'
  let cs := cs.dropWhile isSpace
  let (negative, cs) := match cs with
    | '-' :: rest => (true, rest)
    | cs => (false, cs)
  let ds := cs.takeWhile Char.isDigit
  let n : Int := Ascii.digitsValue ds
  match (cs.dropWhile Char.isDigit).dropWhile isSpace with
  | ']' :: rest =>
      let position := if negative then -n else n
      if !ds.isEmpty && Integer64.fits position then some (position, rest) else none
  | _ => none

/-- The further steps of a path. Each takes at least one character. -/
def steps? : Nat → List Char → Option (List PathStep)
  | _, [] => some []
  | 0, _ => none
  | steps + 1, '.' :: rest => do
      let (name, rest) ← word? rest
      return PathStep.entry name :: (← steps? steps rest)
  | steps + 1, '[' :: rest => do
      let (position, rest) ← position? rest
      return PathStep.item position :: (← steps? steps rest)
  | _, _ => none

def path? (name : List Char) : Option (PathStep × List PathStep) := do
  let (first, rest) ← word? name
  return (.entry first, ← steps? rest.length rest)

/-- Puts one named value on top. A name that spells no path is taken as it stands. -/
def place (root : Value) (name : List Char) (value : Value) : Value :=
  match path? name with
  | some (first, rest) => setPath value first rest root
  | none => (PathStep.entry (String.ofList name)).put value root

def pointed : List Char → List Char
  | '_' :: '_' :: rest => '.' :: pointed rest
  | c :: rest => c :: pointed rest
  | [] => []

/-- The lower case of a character, as far as it is an ASCII letter; that of the Kelvin sign is. -/
def lowered (c : Char) : Char := if c = '\u212A' then 'k' else c.toLower

def variableWord : String := "batch_rpc__"

def variableName? (name : String) : Option (List Char) :=
  (Ascii.dropWord? variableWord (String.ofList (name.toList.map lowered))).map
    fun rest => pointed rest.toList

def ofFile (entries : Group) : Value :=
  entries.foldl (fun root entry => place root entry.1.toList entry.2) (.group [])

def withEnvironment (root : Value) (environment : List (String × String)) : Value :=
  environment.foldl (fun root entry =>
    match variableName? entry.1 with
    | some name => place root name (ofVariable entry.2)
    | none => root) root

end Multicall.Settings
