import Multicall.Toml.Early.Scalar
/-!
Documents of the early edition. A table gathers what stands under all headers that lead to it, in
the order of the text, and no key may come up twice; so a header cannot extend a table that dotted
keys made. A table whose first key is the one that moments are kept under stands for that moment,
and the rest of it is not looked at.
-/
namespace Multicall.Toml.Early

inductive Draft
  | scalar (value : Value)
  | array (items : List Draft)
  | table (dotted : Bool) (entries : List (String × Draft))

/-- Puts a value behind all others, in the table that a path of names leads to. A name on the way
may stand for a table that dotted keys made, and for nothing else. -/
def place (value : Draft) (last : String) :
    List String → Assoc Draft → Option (Assoc Draft)
  | [], entries => some (entries ++ [(last, value)])
  | name :: path, entries =>
      match entries.get? name with
      | none => do return entries ++ [(name, .table true (← place value last path []))]
      | some (.table true inner) => do
          return entries.set name (.table true (← place value last path inner))
      | some _ => none

mutual
def Draft.ofWritten? : Written → Option Draft
  | .scalar v => some (.scalar v)
  | .array items => do return .array (← draftItems? items)
  | .table pairs => do return .table false (← draftPairs? pairs [])

def draftItems? : List Written → Option (List Draft)
  | [] => some []
  | item :: rest => do return (← Draft.ofWritten? item) :: (← draftItems? rest)

def draftPairs? : List (Key × Written) → Assoc Draft → Option (Assoc Draft)
  | [], entries => some entries
  | (key, written) :: rest, entries => do
      draftPairs? rest (← place (← Draft.ofWritten? written) key.last key.path entries)
end

def momentOf? (text : String) : Option Value :=
  (MomentRules.lenient.moment? text.toList).map .moment

/-- The moment that a table stands for whose first key is the one of moments. -/
def Draft.keptMoment? : Draft → Option Value
  | .scalar (.string text) => momentOf? text
  | _ => none

mutual
def Draft.toValue? : Draft → Option Value
  | .scalar (.moment text) => momentOf? text
  | .scalar v => some v
  | .array items => do return .array (← itemValues? items)
  | .table _ [] => some (.table [])
  | .table _ ((name, draft) :: rest) =>
      if name = momentName then draft.keptMoment?
      else do return .table (← addEntries? rest [(name, ← draft.toValue?)])

def itemValues? : List Draft → Option (List Value)
  | [] => some []
  | item :: rest => do return (← item.toValue?) :: (← itemValues? rest)

def addEntries? : List (String × Draft) → Table → Option Table
  | [], table => some table
  | (name, draft) :: rest, table =>
      if table.keys.contains name then none
      else do addEntries? rest (table.set name (← draft.toValue?))
end

structure Part where
  header : List String
  isElement : Bool
  entries : Assoc Draft

def Part.ofSection? (s : Section) : Option Part := do
  let header := s.header.elim [] fun key => key.path ++ [key.last]
  return ⟨header, s.isElement, ← draftPairs? s.pairs []⟩

def Part.isNextElement (p : Part) : Bool := p.isElement && p.header.isEmpty

mutual
/-- The table that parts make up, with those that are not looked at. `read` is what is in it so
far, and `own` whether its own header has come up. -/
def table? : Nat → Table → (own : Bool) → List Part → Option (Value × List Part)
  | 0, _, _, _ => none
  | _, read, _, [] => some (.table read, [])
  | steps + 1, read, own, ⟨[], isElement, entries⟩ :: rest =>
      if isElement || own then none
      else
        match read, entries with
        | [], (name, draft) :: _ =>
            if name = momentName then draft.keptMoment?.map (·, rest)
            else do table? steps (← addEntries? entries read) true rest
        | _, _ => do table? steps (← addEntries? entries read) true rest
  | steps + 1, read, own, ⟨name :: header, isElement, entries⟩ :: rest =>
      if (read.isEmpty && name = momentName) || read.keys.contains name then none
      else do
        let (inside, outside) := rest.partition (·.header.head? == some name)
        let inner := inside.map fun p => { p with header := p.header.tail }
        let (value, left) ←
          if isElement && header.isEmpty then elements? steps entries [] inner []
          else table? steps [] false (⟨header, isElement, entries⟩ :: inner)
        if left.isEmpty then table? steps (read.set name value) own outside else none

/-- An array of tables, from the entries of its next element on. What an element did not look at
goes to the one behind it. -/
def elements? : Nat → Assoc Draft → List Part → List Part → List Value →
    Option (Value × List Part)
  | 0, _, _, _, _ => none
  | steps + 1, entries, carried, parts, read => do
      let (inside, more) := parts.span (!·.isNextElement)
      let (value, left) ← table? steps [] false (⟨[], false, entries⟩ :: carried ++ inside)
      match more with
      | [] => some (.array (read ++ [value]), left)
      | next :: more => elements? steps next.entries left more (read ++ [value])
end

def enoughSteps (parts : List Part) : Nat :=
  let deepest := (parts.map (·.header.length)).foldl max 0
  2 * (deepest + 2) * (parts.length + 2)

def parse? (s : String) : Option Value := do
  let parts ← (← edition.read? s).mapM Part.ofSection?
  let (value, _) ← table? (enoughSteps parts) [] false parts
  some value

end Multicall.Toml.Early
