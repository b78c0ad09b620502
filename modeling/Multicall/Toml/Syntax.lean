import Multicall.Toml.Basic
import Multicall.Toml.Text
/-!
TOML text as it is written: lines that set a key, in the order in which they stand, under the
header that opened their table. Nothing is put together yet, so a key may still be set twice; the
editions of the format differ in which scalars there are, and in what they refuse as too deep.
-/
namespace Multicall.Toml

/-- A key, dotted or not: the names on the way, and the last one. -/
structure Key where
  path : List String
  last : String

inductive Written
  | scalar (value : Value)
  | array (items : List Written)
  | table (pairs : List (Key × Written))

structure Section where
  header : Option Key
  /-- Whether the header opens one more table of an array of tables. -/
  isElement : Bool
  pairs : List (Key × Written)

structure Edition where
  scalar? : List Char → Option (Value × List Char)
  inComment : Char → Bool
  /-- The depth that arrays and inline tables, and the number of names that keys do not reach. -/
  limit : Option Nat

namespace Edition

def allows (edition : Edition) (depth : Nat) : Bool := edition.limit.all (depth < ·)

def skipSpaces (cs : List Char) : List Char := cs.dropWhile isSpace

def skipLines (edition : Edition) (inside : Bool) : List Char → Option (List Char)
  | [] => some []
  | '\n' :: rest => edition.skipLines false rest
  | '\r' :: '\n' :: rest => edition.skipLines false rest
  | c :: rest =>
      if inside then if edition.inComment c then edition.skipLines true rest else none
      else if isSpace c then edition.skipLines false rest
      else if c == '#' then edition.skipLines true rest
      else some (c :: rest)

def endLine (edition : Edition) (cs : List Char) : Option (List Char) :=
  let rest := skipSpaces cs
  if rest.isEmpty || startsLine rest || rest.head? == some '#' then edition.skipLines false rest
  else none

def isBareChar (c : Char) : Bool := c.isAlphanum || c == '_' || c == '-'

def name? : List Char → Option (String × List Char)
  | '"' :: rest => basicString [] rest
  | '\'' :: rest => literalString [] rest
  | cs =>
      let name := cs.takeWhile isBareChar
      if name.isEmpty then none else some (String.ofList name, cs.dropWhile isBareChar)

def names? : Nat → List Char → Option (Key × List Char)
  | 0, _ => none
  | steps + 1, cs => do
      let (name, rest) ← name? (skipSpaces cs)
      match skipSpaces rest with
      | '.' :: more =>
          let (key, rest) ← names? steps more
          some ({ key with path := name :: key.path }, rest)
      | rest => some (⟨[], name⟩, rest)

def key? (edition : Edition) (steps : Nat) (cs : List Char) : Option (Key × List Char) := do
  let (key, rest) ← names? steps cs
  if edition.allows (key.path.length + 1) then some (key, rest) else none

mutual
/-- A value at the start of a text. Each step takes at least one character. -/
def value? (edition : Edition) (depth : Nat) : Nat → List Char → Option (Written × List Char)
  | 0, _ => none
  | steps + 1, cs =>
      match cs with
      | '[' :: rest =>
          if edition.allows (depth + 1) then do
            let (items, rest) ← edition.items? (depth + 1) steps [] rest
            some (.array items, rest)
          else none
      | '\x7b' :: rest =>
          if edition.allows (depth + 1) then
            match skipSpaces rest with
            | '\x7d' :: rest => some (.table [], rest)
            | rest => do
                let (pairs, rest) ← edition.pairs? (depth + 1) steps [] rest
                some (.table pairs, rest)
          else none
      | '"' :: _ | '\'' :: _ => do
          let (s, rest) ← string? cs
          some (.scalar (.string s), rest)
      | _ => do
          let (v, rest) ← edition.scalar? cs
          some (.scalar v, rest)

/-- The items of an array up to its closing bracket; those read come last one first. -/
def items? (edition : Edition) (depth : Nat) :
    Nat → List Written → List Char → Option (List Written × List Char)
  | 0, _, _ => none
  | steps + 1, read, cs => do
      match ← edition.skipLines false cs with
      | ']' :: rest => some (read.reverse, rest)
      | cs => do
          let (item, rest) ← edition.value? depth steps cs
          match ← edition.skipLines false rest with
          | ',' :: rest => edition.items? depth steps (item :: read) rest
          | ']' :: rest => some ((item :: read).reverse, rest)
          | _ => none

def pairs? (edition : Edition) (depth : Nat) :
    Nat → List (Key × Written) → List Char → Option (List (Key × Written) × List Char)
  | 0, _, _ => none
  | steps + 1, read, cs => do
      let (key, rest) ← edition.key? (steps + 1) cs
      match rest with
      | '=' :: rest => do
          let (v, rest) ← edition.value? depth steps (skipSpaces rest)
          match skipSpaces rest with
          | ',' :: rest => edition.pairs? depth steps ((key, v) :: read) rest
          | '\x7d' :: rest => some (((key, v) :: read).reverse, rest)
          | _ => none
      | _ => none
end

inductive Line
  | header (key : Key) (isElement : Bool)
  | pair (key : Key) (value : Written)

def line? (edition : Edition) (steps : Nat) : List Char → Option (Line × List Char)
  | '[' :: '[' :: rest => do
      let (key, rest) ← edition.key? steps rest
      match rest with
      | ']' :: ']' :: rest => some (.header key true, rest)
      | _ => none
  | '[' :: rest => do
      let (key, rest) ← edition.key? steps rest
      match rest with
      | ']' :: rest => some (.header key false, rest)
      | _ => none
  | cs => do
      let (key, rest) ← edition.key? steps cs
      match rest with
      | '=' :: rest => do
          let (v, rest) ← edition.value? 0 steps (skipSpaces rest)
          some (.pair key v, rest)
      | _ => none

def lines? (edition : Edition) : Nat → List Char → Option (List Line)
  | 0, cs => if cs.isEmpty then some [] else none
  | steps + 1, cs => do
      match ← edition.skipLines false cs with
      | [] => some []
      | cs => do
          let (line, rest) ← edition.line? (cs.length + 1) cs
          let more ← edition.lines? steps (← edition.endLine rest)
          some (line :: more)

def sections : List Line → List (Key × Written) × List Section
  | [] => ([], [])
  | .pair key value :: rest =>
      let (pairs, more) := sections rest
      ((key, value) :: pairs, more)
  | .header key isElement :: rest =>
      let (pairs, more) := sections rest
      ([], ⟨some key, isElement, pairs⟩ :: more)

def withoutMark : List Char → List Char
  | '\uFEFF' :: rest => rest
  | cs => cs

/-- The sections of a text, the one without a header first. -/
def read? (edition : Edition) (s : String) : Option (List Section) := do
  let cs := withoutMark s.toList
  let (pairs, more) := sections (← edition.lines? (cs.length + 1) cs)
  some (⟨none, false, pairs⟩ :: more)

end Edition
end Multicall.Toml
