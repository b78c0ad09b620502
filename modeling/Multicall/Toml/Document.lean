import Multicall.Toml.Scalar
import Multicall.Toml.Syntax
/-!
TOML documents. No line may define a thing that an earlier one defined: tables remember how they
came to be, since only some of them can be extended and only in some ways. A table below the root
whose first key is the one that moments are kept under stands for that moment.
-/
namespace Multicall.Toml

/-- How a table came to be: on the way to another header, by its own header, or by a dotted key. -/
inductive Origin
  | passing
  | header
  | dotted
  deriving DecidableEq, Repr

inductive Node
  | value (value : Value)
  | table (origin : Origin) (entries : List (String × Node))
  | tables (elements : List (List (String × Node)))

abbrev Entries := Assoc Node

def closeTable : List (String × Value) → Option Value
  | [] => some (.table [])
  | (key, value) :: rest =>
      if key = momentName then
        match value with
        | .string text => (MomentRules.calendar.moment? text.toList).map .moment
        | _ => none
      else some (.table ((key, value) :: rest))

mutual
def Node.toValue? : Node → Option Value
  | .value v => some v
  | .table _ entries => do closeTable (← entriesToValues? entries)
  | .tables elements => do return .array (← tablesToValues? elements)

def entriesToValues? : List (String × Node) → Option (List (String × Value))
  | [] => some []
  | (key, node) :: rest => do return (key, ← node.toValue?) :: (← entriesToValues? rest)

def tablesToValues? : List (List (String × Node)) → Option (List Value)
  | [] => some []
  | entries :: rest => do
      return (← closeTable (← entriesToValues? entries)) :: (← tablesToValues? rest)
end

/-- Changes the table at the end of a path, making the tables on the way that are missing. In an
array of tables the last one is meant. -/
def Entries.alter (dotted : Bool) (act : Origin → Entries → Option Entries) :
    List String → Origin → Entries → Option Entries
  | [], origin, entries => act origin entries
  | key :: path, _, entries =>
      match entries.get? key with
      | none => do
          let fresh := if dotted then Origin.dotted else .passing
          let inner ← alter dotted act path fresh []
          some (entries.set key (.table fresh inner))
      | some (.table origin inner) =>
          if dotted && origin == .header then none
          else do
            let inner ← alter dotted act path origin inner
            some (entries.set key (.table origin inner))
      | some (.tables elements) => do
          let inner ← alter dotted act path .header (elements.getLastD [])
          some (entries.set key (.tables (elements.dropLast ++ [inner])))
      | some (.value _) => none

def Entries.define (key : Key) (value : Value) (entries : Entries) : Option Entries :=
  alter true (fun origin entries =>
    -- a dotted key extends only tables that dotted keys made
    if (origin == .dotted) == key.path.isEmpty || (entries.get? key.last).isSome then none
    else some (entries.set key.last (.value value))) key.path .header entries

def Entries.openTable (key : Key) (entries : Entries) : Option Entries :=
  alter false (fun _ entries =>
    match entries.get? key.last with
    | none => some (entries.set key.last (.table .header []))
    | some (.table .passing inner) =>
        some ((entries.erase key.last).set key.last (.table .header inner))
    | _ => none) key.path .header entries

/-- Opens one more table of an array of tables. -/
def Entries.openElement (key : Key) (entries : Entries) : Option Entries :=
  alter false (fun _ entries =>
    match entries.get? key.last with
    | none => some (entries.set key.last (.tables [[]]))
    | some (.tables elements) => some (entries.set key.last (.tables (elements ++ [[]])))
    | _ => none) key.path .header entries

mutual
def Written.toValue? : Written → Option Value
  | .scalar v => some v
  | .array items => do return .array (← itemsToValues? items)
  | .table pairs => do closeTable (← entriesToValues? (← definePairs pairs []))

def itemsToValues? : List Written → Option (List Value)
  | [] => some []
  | item :: rest => do return (← item.toValue?) :: (← itemsToValues? rest)

def definePairs : List (Key × Written) → Entries → Option Entries
  | [], entries => some entries
  | (key, written) :: rest, entries => do
      definePairs rest (← entries.define key (← written.toValue?))
end

def Entries.addSection (root : Entries) (s : Section) : Option Entries :=
  match s.header with
  | none => definePairs s.pairs root
  | some key => do
      let root ← if s.isElement then root.openElement key else root.openTable key
      root.alter false (fun _ entries => definePairs s.pairs entries) (key.path ++ [key.last]) .header

/-- The edition of this format: a comment holds no control character, and nothing is nested deep. -/
def Edition.current : Edition where
  scalar? := Toml.scalar?
  inComment := isPlain
  limit := some 80

def parse? (s : String) : Option Table := do
  let sections ← Edition.current.read? s
  entriesToValues? (← sections.foldlM Entries.addSection [])

end Multicall.Toml
