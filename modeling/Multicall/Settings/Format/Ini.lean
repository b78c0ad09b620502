import Multicall.Settings.Value
import Multicall.Text.Blank
/-!
Settings in sections: a name in brackets opens a section, and lines of a key, an equals sign or a
colon, and a value fill it. All values are texts. Comments stand on lines of their own, and a
backslash takes the meaning from the character behind it or stands for another.
-/
namespace Multicall.Settings.Ini

def escaped : Char → List Char
  | '0' => ['\x00']
  | 'a' => ['\x07']
  | 'b' => ['\x08']
  | 't' => ['\t']
  | 'r' => ['\r']
  | 'n' => ['\n']
  | '\n' => []
  | c => [c]

/-- The text up to a character that ends it, which is left, and the rest; what has been read comes
last character first. The end of the file ends a text only if it is `open`. -/
def textUntil (ends : Char → Bool) (isOpen : Bool) (read : List Char) :
    List Char → Option (List Char × List Char)
  | [] => if isOpen then some (read.reverse, []) else none
  | '\\' :: 'x' :: a :: b :: c :: d :: rest => do
      textUntil ends isOpen ((← Ascii.hexChar? [a, b, c, d]) :: read) rest
  | '\\' :: c :: rest =>
      if c == 'x' then none else textUntil ends isOpen ((escaped c).reverse ++ read) rest
  | c :: rest =>
      if ends c then some (read.reverse, c :: rest)
      else if c == '\\' then none
      else textUntil ends isOpen (c :: read) rest

def lineText (cs : List Char) : Option (List Char × List Char) :=
  textUntil (fun c => c == '\n' || c == '\r') true [] cs

def value? (cs : List Char) : Option (String × List Char) := do
  let cs := cs.dropWhile fun c => Blank.isBlank c && c != '\n' && c != '\r'
  let (piece, rest) ← match cs with
    | '"' :: rest => textUntil (· == '"') false [] rest
    | '\'' :: rest => textUntil (· == '\'') false [] rest
    | cs => some ([], cs)
  let quoted := cs.head? == some '"' || cs.head? == some '\''
  let (more, rest) ← lineText (if quoted then rest.drop 1 else rest)
  some (String.ofList (Blank.strip (piece ++ more)), rest)

/-- Skips blanks. `fresh` says whether nothing has been on the line yet. -/
def skipBlanks (fresh : Bool) : List Char → Bool × List Char
  | [] => (fresh, [])
  | c :: rest => if Blank.isBlank c then skipBlanks (c == '\n') rest else (fresh, c :: rest)

structure Page where
  root : Group
  sections : List (String × Group)
  key : String

def Page.add (name value : String) (page : Page) : Page :=
  match page.sections with
  | [] => { page with root := page.root.set name (.text value), key := "" }
  | (title, entries) :: before =>
      { page with sections := (title, entries.set name (.text value)) :: before, key := "" }

def run : Nat → (fresh : Bool) → Page → List Char → Option Page
  | 0, _, page, cs => if cs.isEmpty then some page else none
  | steps + 1, fresh, page, cs =>
      match skipBlanks fresh cs with
      | (_, []) => some page
      | (fresh, c :: rest) =>
          if c == ';' || c == '#' then
            if fresh then run steps true page ((rest.dropWhile (· != '\n')).drop 1) else none
          else if c == '[' then do
            let (title, rest) ← textUntil (· == ']') false [] rest
            let title := String.ofList (Blank.strip title)
            run steps false { page with sections := (title, []) :: page.sections } (rest.drop 1)
          else if c == '=' || c == ':' then
            if page.key.isEmpty then none
            else do
              let (value, rest) ← value? rest
              run steps false (page.add page.key value) rest
          else do
            let (key, rest) ← textUntil (fun c => c == '=' || c == ':') false [] (c :: rest)
            run steps false { page with key := String.ofList (Blank.strip key) } rest

/-- The entries of a file. A later section of a name takes the place of an earlier one. -/
def parse? (text : String) : Option Value := do
  let cs := text.toList
  let page ← run (cs.length + 1) true ⟨[], [], ""⟩ cs
  let add (group : Group) (part : String × Group) := group.set part.1 (.group part.2)
  some (.group (page.sections.reverse.foldl add page.root))

end Multicall.Settings.Ini
