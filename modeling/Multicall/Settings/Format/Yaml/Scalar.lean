import Multicall.Text.Ascii
/-!
The texts of scalars in YAML: quoted, plain and in blocks. Inside of the first two kinds a row of
blanks and line ends is folded: blanks alone stand as they are, one line end becomes a space, and
of more line ends all but the first stay.
-/
namespace Multicall.Settings.Yaml

structure Cursor where
  rest : List Char
  line : Nat
  column : Nat
  index : Nat

namespace Cursor

def start (cs : List Char) : Cursor := ⟨cs, 0, 0, 0⟩

def skip (p : Cursor) : Cursor :=
  match p.rest with
  | [] => p
  | '\n' :: rest => ⟨rest, p.line + 1, 0, p.index + 1⟩
  | _ :: rest => ⟨rest, p.line, p.column + 1, p.index + 1⟩

def skipMany (n : Nat) (p : Cursor) : Cursor := (List.range n).foldl (fun p _ => p.skip) p

def skipWhile (inClass : Char → Bool) (p : Cursor) : Cursor :=
  p.skipMany (p.rest.takeWhile inClass).length

def skipBreak (p : Cursor) : Cursor :=
  match p.rest with
  | '\r' :: '\n' :: _ => p.skip.skip
  | _ => p.skip

end Cursor

def isSpace (c : Char) : Bool := c == ' ' || c == '\t'

def isBreak (c : Char) : Bool := c == '\n' || c == '\r'

def isBlank (c : Char) : Bool := isSpace c || isBreak c

def isFlow (c : Char) : Bool := [',', '[', ']', '\x7b', '\x7d'].contains c

def endsWord (cs : List Char) : Bool := cs.head?.all isBlank

/-- Whether a line starts with a row of three marks, as the start and the end of a document do. -/
def Cursor.startsWith (mark : Char) (p : Cursor) : Bool :=
  p.column == 0 && p.rest.take 3 == [mark, mark, mark] && endsWord (p.rest.drop 3)

def Cursor.isDocumentMark (p : Cursor) : Bool := p.startsWith '-' || p.startsWith '.'

def countBreaks : List Char → Nat
  | '\r' :: '\n' :: rest => countBreaks rest + 1
  | c :: rest => countBreaks rest + (if isBreak c then 1 else 0)
  | [] => 0

def folded (blanks : List Char) : List Char :=
  match countBreaks blanks with
  | 0 => blanks
  | 1 => [' ']
  | n + 2 => List.replicate (n + 1) '\n'

def escaped? : Char → Option Char
  | '0' => some '\x00'
  | 'a' => some '\x07'
  | 'b' => some '\x08'
  | 't' | '\t' => some '\t'
  | 'n' => some '\n'
  | 'v' => some '\x0b'
  | 'f' => some '\x0c'
  | 'r' => some '\r'
  | 'e' => some '\x1b'
  | ' ' => some ' '
  | '"' => some '"'
  | '\'' => some '\''
  | '\\' => some '\\'
  | 'N' => some '\u0085'
  | '_' => some '\u00a0'
  | 'L' => some '\u2028'
  | 'P' => some '\u2029'
  | _ => none

/-- The character of an escape, and how many characters it takes behind the backslash. -/
def escape? : List Char → Option (Char × Nat)
  | 'x' :: a :: b :: _ => (Ascii.hexChar? [a, b]).map (·, 3)
  | 'u' :: a :: b :: c :: d :: _ => (Ascii.hexChar? [a, b, c, d]).map (·, 5)
  | 'U' :: a :: b :: c :: d :: e :: f :: g :: h :: _ =>
      (Ascii.hexChar? [a, b, c, d, e, f, g, h]).map (·, 9)
  | c :: _ => (escaped? c).map (·, 1)
  | [] => none

/-- The inside of a quoted scalar up to its closing quote; what has been read comes last character
first. Single quotes inside of single quotes are doubled, and double quotes have escapes, among
them one for a line end, which then stands for nothing. Each step takes a character. -/
def quoted? (quote : Char) : Nat → (read : List Char) → Cursor → Option (String × Cursor)
  | 0, _, _ => none
  | steps + 1, read, p =>
      match p.rest with
      | [] => none
      | c :: rest =>
          if p.isDocumentMark then none
          else if c == quote then
            if quote == '\'' && rest.head? == some quote then
              quoted? quote steps (quote :: read) p.skip.skip
            else some (String.ofList read.reverse, p.skip)
          else if c == '\\' && quote == '"' then
            if rest.head?.any isBreak then
              let p := p.skip.skipBreak
              let breaks := countBreaks (p.rest.takeWhile isBlank)
              quoted? quote steps (List.replicate breaks '\n' ++ read) (p.skipWhile isBlank)
            else do
              let (c, width) ← escape? rest
              quoted? quote steps (c :: read) (p.skip.skipMany width)
          else if isBlank c then
            quoted? quote steps ((folded (p.rest.takeWhile isBlank)).reverse ++ read)
              (p.skipWhile isBlank)
          else quoted? quote steps (c :: read) p.skip

def plainWord (inFlow : Bool) : List Char → List Char
  | [] => []
  | c :: rest =>
      if isBlank c || (inFlow && isFlow c) then []
      else if c == ':' && (endsWord rest || (inFlow && rest.head?.any isFlow)) then []
      else c :: plainWord inFlow rest

/-- Whether a row of blanks has a tab where its line is not indented as far as it has to be. -/
def hasEarlyTab (indent column : Int) (broken : Bool) : List Char → Bool
  | [] => false
  | c :: rest =>
      (broken && c == '\t' && column < indent) ||
        hasEarlyTab indent (if c == '\n' then 0 else column + 1) (broken || isBreak c) rest

/-- A plain scalar: its words, the blanks between them, whether a line end comes behind it, and the
place behind it. Its lines are indented. Each step takes a word. -/
def plain? (inFlow : Bool) (indent : Int) :
    Nat → (read blanks : List Char) → Cursor → Option (String × Bool × Cursor)
  | 0, _, _, _ => none
  | steps + 1, read, blanks, p =>
      let finish (read blanks : List Char) (p : Cursor) :=
        some (String.ofList read.reverse, blanks.any isBreak, p)
      if p.isDocumentMark || p.rest.head? == some '#' then finish read blanks p
      else
        let word := plainWord inFlow p.rest
        let (read, blanks) :=
          if word.isEmpty then (read, blanks)
          else (word.reverse ++ (folded blanks).reverse ++ read, [])
        let p := p.skipMany word.length
        let more := p.rest.takeWhile isBlank
        if more.isEmpty then finish read blanks p
        else if hasEarlyTab indent p.column false more then none
        else
          let p := p.skipMany more.length
          if !inFlow && p.column < indent then finish read more p
          else plain? inFlow indent steps read more p

inductive Chomping
  | strip
  | clip
  | keep

def chomping? : Char → Option Chomping
  | '+' => some .keep
  | '-' => some .strip
  | _ => none

/-- The head of a block: how it ends, and how far it is indented if the head says that. -/
def blockHead? : List Char → Option (Chomping × Nat × List Char)
  | [] => some (.clip, 0, [])
  | c :: rest =>
      match chomping? c with
      | some chomping =>
          match rest with
          | [] => some (chomping, 0, [])
          | d :: more =>
              if d == '0' then none
              else if d.isDigit then some (chomping, Ascii.digitValue d, more)
              else some (chomping, 0, rest)
      | none =>
          if c == '0' then none
          else if c.isDigit then
            match rest.head?.bind chomping? with
            | some chomping => some (chomping, Ascii.digitValue c, rest.drop 1)
            | none => some (.clip, Ascii.digitValue c, rest)
          else some (.clip, 0, c :: rest)

/-- Goes over empty lines, and the indent of the line behind them as far as it belongs to the
block. Gives the deepest indent and the number of lines. -/
def emptyLines? (indent : Nat) : Nat → (deepest count : Nat) → Cursor → Option (Nat × Nat × Cursor)
  | 0, _, _, _ => none
  | steps + 1, deepest, count, p =>
      let spaces := (p.rest.takeWhile (· == ' ')).length
      let p := p.skipMany (if indent = 0 then spaces else min spaces (indent - p.column))
      let deepest := max deepest p.column
      if (indent = 0 || p.column < indent) && p.rest.head? == some '\t' then none
      else if p.rest.head?.any isBreak then emptyLines? indent steps deepest (count + 1) p.skipBreak
      else some (deepest, count, p)

/-- A block that is being read: its text last character first, the indent of its lines, whether a
line end is still to be placed and its line started with a blank, and the number of empty lines
behind that. -/
structure Block where
  read : List Char
  indent : Nat
  broken : Bool
  afterBlank : Bool
  empty : Nat

def blockLines? (isFolded : Bool) : Nat → Block → Cursor → Option (Block × Cursor)
  | 0, _, _ => none
  | steps + 1, b, p =>
      if p.column ≠ b.indent || p.rest.isEmpty then some (b, p)
      else do
        let startsBlank := p.rest.head?.any isSpace
        let joint : List Char :=
          if !b.broken then []
          else if isFolded && !b.afterBlank && !startsBlank then
            if b.empty = 0 then [' '] else []
          else ['\n']
        let line := p.rest.takeWhile (!isBreak ·)
        let read := line.reverse ++ List.replicate b.empty '\n' ++ joint ++ b.read
        let p := p.skipMany line.length
        if p.rest.isEmpty then return ({ b with read := read, broken := false, empty := 0 }, p)
        let p := p.skipBreak
        let (_, empty, p) ← emptyLines? b.indent (p.rest.length + 1) 0 0 p
        blockLines? isFolded steps ⟨read, b.indent, true, startsBlank, empty⟩ p

/-- A scalar in a block, behind its mark. The head of the block has a line of its own; the first
line with text says how far the block is indented if the head does not. -/
def block? (isFolded : Bool) (parent : Int) (p : Cursor) : Option (String × Cursor) := do
  let (chomping, extra, rest) ← blockHead? p.rest
  let p := (p.skipMany (p.rest.length - rest.length)).skipWhile isSpace
  let p := if p.rest.head? == some '#' then p.skipWhile (!isBreak ·) else p
  if !p.rest.head?.all isBreak then none
  let p := p.skipBreak
  let indent := if extra = 0 then 0 else (max parent 0).toNat + extra
  let steps := p.rest.length + 1
  let (deepest, empty, p) ← emptyLines? indent steps 0 0 p
  let indent := if indent = 0 then max deepest (max (parent + 1).toNat 1) else indent
  let (b, p) ← blockLines? isFolded steps ⟨[], indent, false, false, empty⟩ p
  let tail : List Char := match chomping with
    | .strip => []
    | .clip => if b.broken then ['\n'] else []
    | .keep => List.replicate b.empty '\n' ++ (if b.broken then ['\n'] else [])
  return (String.ofList (tail ++ b.read).reverse, p)

end Multicall.Settings.Yaml
