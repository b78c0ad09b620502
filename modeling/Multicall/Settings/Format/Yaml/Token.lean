import Multicall.Settings.Format.Yaml.Scalar
/-!
The tokens of YAML text. Blocks have no brackets of their own: their starts and ends are found from
the columns of what stands in them, and the start of a key is found only at the colon behind it, so
tokens are put in at earlier places.
-/
namespace Multicall.Settings.Yaml

inductive Token
  | directive
  | documentStart
  | documentEnd
  | blockSequenceStart
  | blockMappingStart
  | blockEnd
  | flowSequenceStart
  | flowSequenceEnd
  | flowMappingStart
  | flowMappingEnd
  | blockEntry
  | flowEntry
  | key
  | value
  | reference (name : String)
  | anchor (name : String)
  | tag (kind : Option String)
  | scalar (isPlain : Bool) (text : String)
  deriving DecidableEq

def isNameChar (c : Char) : Bool := c.isAlphanum || c == '_' || c == '-'

def isTagChar (c : Char) : Bool := isNameChar c || ";/?:@&=+$,.!~*'()[]%".toList.contains c

/-- Whether nothing but blanks and a comment is left of a line. -/
def endsLine (cs : List Char) : Bool := (cs.dropWhile isSpace).head?.all (· == '#')

def versionPart? (cs : List Char) : Option (List Char) :=
  let ds := cs.takeWhile Char.isDigit
  if ds.isEmpty || 9 < ds.length then none else some (cs.dropWhile Char.isDigit)

def isVersion (cs : List Char) : Bool :=
  match versionPart? (cs.dropWhile isSpace) with
  | some ('.' :: rest) => (versionPart? rest).any endsLine
  | _ => false

def isTagRule (cs : List Char) : Bool :=
  match cs.dropWhile isSpace with
  | '!' :: rest =>
      let handle := rest.takeWhile isNameChar
      let (closed, rest) := match rest.dropWhile isNameChar with
        | '!' :: rest => (true, rest)
        | rest => (false, rest)
      let rest := rest.dropWhile isSpace
      let after := rest.dropWhile isTagChar
      (closed || handle.isEmpty) && rest.head?.any isTagChar && endsWord after && endsLine after
  | _ => false

def isDirectiveLine (line : List Char) : Bool :=
  let rest := line.dropWhile isNameChar
  endsWord rest &&
    match String.ofList (line.takeWhile isNameChar) with
    | "" => false
    | "YAML" => isVersion rest
    | "TAG" => isTagRule rest
    | _ => true

/-- The standard kind that a tag names behind its exclamation mark, if it is a tag. A second mark
stands in front of a standard kind; whole names in angle brackets are none. -/
def tagKind? : List Char → Option (Option String)
  | '<' :: rest =>
      let name := rest.takeWhile isTagChar
      if !name.isEmpty && rest.drop name.length == ['>'] then some none else none
  | word =>
      if !word.all isTagChar then none
      else
        match word.takeWhile isNameChar, word.dropWhile isNameChar with
        | _, ['!'] => none
        | [], '!' :: kind => some (some (String.ofList kind))
        | _, _ => some none

/-- What may turn out to be a key: how many tokens come before it, and where it starts. If it is
`required`, it has to. -/
structure Candidate where
  position : Nat
  required : Bool
  cursor : Cursor

/-- A text that is being read: the tokens so far, last one first, the columns of the open blocks,
and for each open bracket, and for what is outside of all, what may turn out to be a key there. -/
structure Scanner where
  cursor : Cursor
  tokens : List Token
  columns : List Nat
  candidates : List (Option Candidate)
  keyAllowed : Bool
  /-- Where a colon ends a key inside of brackets although no blank comes behind it. -/
  keyEnd : Nat

namespace Scanner

def start (cs : List Char) : Scanner := ⟨.start cs, [], [], [none], true, 0⟩

def indent (s : Scanner) : Int := (s.columns.head?.map Int.ofNat).getD (-1)

def inFlow (s : Scanner) : Bool := s.candidates.length != 1

def push (token : Token) (s : Scanner) : Scanner := { s with tokens := token :: s.tokens }

def pushAt (position : Nat) (token : Token) (s : Scanner) : Scanner :=
  let (after, before) := s.tokens.splitAt (s.tokens.length - position)
  { s with tokens := after ++ token :: before }

def openBlock (column position : Nat) (token : Token) (s : Scanner) : Scanner :=
  if s.inFlow || column ≤ s.indent then s
  else { s.pushAt position token with columns := column :: s.columns }

/-- Ends the blocks that are further in than a column. -/
def closeBlocks (column : Int) (s : Scanner) : Scanner :=
  if s.inFlow then s
  else
    let isInside (c : Nat) : Bool := column < c
    let ends := List.replicate (s.columns.takeWhile isInside).length Token.blockEnd
    { s with columns := s.columns.dropWhile isInside, tokens := ends ++ s.tokens }

def setCandidate (candidate : Option Candidate) (s : Scanner) : Scanner :=
  { s with candidates := candidate :: s.candidates.drop 1 }

def dropCandidate? (s : Scanner) : Option Scanner :=
  if s.candidates.head?.join.any (·.required) then none else some (s.setCandidate none)

def saveCandidate? (s : Scanner) : Option Scanner :=
  if s.keyAllowed then do
    let required := s.inFlow && s.indent == s.cursor.column
    return (← s.dropCandidate?).setCandidate (some ⟨s.tokens.length, required, s.cursor⟩)
  else some s

/-- What stands on an earlier line, or too far in front, is no key. -/
def expire? (s : Scanner) : Option Scanner := do
  let isStale (c : Candidate) : Bool :=
    c.cursor.line < s.cursor.line || c.cursor.index + 1024 < s.cursor.index
  if s.candidates.any fun c => c.any fun c => isStale c && c.required then none
  return { s with candidates := s.candidates.map (·.filter (!isStale ·)) }

def skipChars (n : Nat) (s : Scanner) : Scanner := { s with cursor := s.cursor.skipMany n }

def skipBlanks : Nat → Scanner → Scanner
  | 0, s => s
  | steps + 1, s =>
      match s.cursor.rest with
      | [] => s
      | c :: _ =>
          if c == ' ' || (c == '\t' && (s.inFlow || !s.keyAllowed)) then
            skipBlanks steps (s.skipChars 1)
          else if isBreak c then
            skipBlanks steps
              { s with cursor := s.cursor.skipBreak, keyAllowed := s.keyAllowed || !s.inFlow }
          else if c == '#' then
            skipBlanks steps { s with cursor := s.cursor.skipWhile (!isBreak ·) }
          else s

/-- A mark of some characters that ends all blocks. -/
def documentMark? (token : Token) (width : Nat) (s : Scanner) : Option Scanner := do
  let s ← (s.closeBlocks (-1)).dropCandidate?
  return { s.push token with keyAllowed := false, cursor := s.cursor.skipMany width }

def directive? (s : Scanner) : Option Scanner :=
  let line := s.cursor.rest.takeWhile (!isBreak ·)
  if isDirectiveLine (line.drop 1) then s.documentMark? .directive line.length else none

def openFlow? (token : Token) (s : Scanner) : Option Scanner := do
  let s := (← s.saveCandidate?).push token
  return { s.skipChars 1 with candidates := none :: s.candidates, keyAllowed := true }

def closeFlow? (token : Token) (s : Scanner) : Option Scanner := do
  let s := ((← s.dropCandidate?).push token).skipChars 1
  let candidates := if s.inFlow then s.candidates.drop 1 else s.candidates
  return { s with candidates := candidates, keyAllowed := false }

def flowEntry? (s : Scanner) : Option Scanner := do
  return { ((← s.dropCandidate?).push .flowEntry).skipChars 1 with keyAllowed := true }

def blockEntry? (s : Scanner) : Option Scanner := do
  if s.inFlow || !s.keyAllowed then none
  let s ← (s.openBlock s.cursor.column s.tokens.length .blockSequenceStart).dropCandidate?
  return { (s.push .blockEntry).skipChars 1 with keyAllowed := true }

def key? (s : Scanner) : Option Scanner := do
  if !s.inFlow && !s.keyAllowed then none
  let s ← (s.openBlock s.cursor.column s.tokens.length .blockMappingStart).dropCandidate?
  return { (s.push .key).skipChars 1 with keyAllowed := !s.inFlow }

/-- A colon: what stands in front of it is a key if it can be one. -/
def value? (s : Scanner) : Option Scanner :=
  match s.candidates.head?.join with
  | some c =>
      let s := (s.pushAt c.position .key).openBlock c.cursor.column c.position .blockMappingStart
      some { ((s.setCandidate none).push .value).skipChars 1 with keyAllowed := false }
  | none =>
      if !s.inFlow && !s.keyAllowed then none
      else
        let s := s.openBlock s.cursor.column s.tokens.length .blockMappingStart
        some { (s.push .value).skipChars 1 with keyAllowed := !s.inFlow }

def named? (token : String → Token) (s : Scanner) : Option Scanner := do
  let name := (s.cursor.rest.drop 1).takeWhile isNameChar
  let after := s.cursor.rest.drop (name.length + 1)
  let ends := after.head?.all fun c => isBlank c || "?:,]\x7d%@\x60".toList.contains c
  if name.isEmpty || !ends then none
  let s := (← s.saveCandidate?).push (token (String.ofList name))
  return { s.skipChars (name.length + 1) with keyAllowed := false }

def tag? (s : Scanner) : Option Scanner := do
  let word := s.cursor.rest.takeWhile (!isBlank ·)
  let kind ← tagKind? (word.drop 1)
  return { ((← s.saveCandidate?).push (.tag kind)).skipChars word.length with keyAllowed := false }

/-- A scalar in a block. A new line comes behind it. -/
def block? (isFolded : Bool) (s : Scanner) : Option Scanner := do
  let s ← s.saveCandidate?
  let (text, cursor) ← Yaml.block? isFolded s.indent s.cursor.skip
  return { s.push (.scalar false text) with cursor := cursor, keyAllowed := true }

def quoted? (quote : Char) (s : Scanner) : Option Scanner := do
  let s ← s.saveCandidate?
  let (text, cursor) ← Yaml.quoted? quote s.cursor.rest.length [] s.cursor.skip
  return { s.push (.scalar false text) with
    cursor := cursor, keyAllowed := false, keyEnd := cursor.index }

def plain? (s : Scanner) : Option Scanner := do
  let s ← s.saveCandidate?
  let steps := s.cursor.rest.length + 1
  let (text, broken, cursor) ← Yaml.plain? s.inFlow (s.indent + 1) steps [] [] s.cursor
  return { s.push (.scalar true text) with cursor := cursor, keyAllowed := broken }

def token? (c : Char) (rest : List Char) (s : Scanner) : Option Scanner :=
  let ends := endsWord rest
  if s.cursor.column = 0 && c == '%' then s.directive?
  else if s.cursor.startsWith '-' then s.documentMark? .documentStart 3
  else if s.cursor.startsWith '.' then s.documentMark? .documentEnd 3
  else
    match c with
    | '[' => s.openFlow? .flowSequenceStart
    | '\x7b' => s.openFlow? .flowMappingStart
    | ']' => s.closeFlow? .flowSequenceEnd
    | '\x7d' => s.closeFlow? .flowMappingEnd
    | ',' => s.flowEntry?
    | '*' => s.named? .reference
    | '&' => s.named? .anchor
    | '!' => s.tag?
    | '\'' | '"' => s.quoted? c
    | '%' | '@' | '\x60' => none
    | '-' => if ends then s.blockEntry? else s.plain?
    | '?' => if ends then s.key? else s.plain?
    | ':' =>
        if ends || (s.inFlow && (rest.head?.any isFlow || s.cursor.index == s.keyEnd)) then s.value?
        else s.plain?
    | '|' | '>' => if s.inFlow then s.plain? else s.block? (c == '>')
    | _ => s.plain?

def run : Nat → Scanner → Option Scanner
  | 0, _ => none
  | steps + 1, s => do
      let s ← (skipBlanks (s.cursor.rest.length + 1) s).expire?
      match s.cursor.rest with
      | [] => (s.closeBlocks (-1)).dropCandidate?
      | c :: rest => do
          let s := s.closeBlocks s.cursor.column
          run steps (← s.token? c rest)

end Scanner

def tokens? (cs : List Char) : Option (List Token) := do
  return (← Scanner.run (cs.length + 1) (.start cs)).tokens.reverse

end Multicall.Settings.Yaml
