import Multicall.Settings.Value
/-!
Settings in object notation with round brackets: structures with a name or without, tuples, lists,
maps, options and characters. What a structure is named does not matter.
-/
namespace Multicall.Settings.Ron

def isBlank (c : Char) : Bool := c == ' ' || c == '\t' || c == '\n' || c == '\r'

/-- The text behind blanks and comments, where it is in a comment of one line or in so many block
comments. A block comment that does not end leaves its first mark. -/
def skip (inLine : Bool) (depth : Nat) : List Char → List Char
  | [] => if depth = 0 then [] else ['/']
  | '/' :: '*' :: rest => skip inLine (if inLine then depth else depth + 1) rest
  | '*' :: '/' :: rest =>
      if !inLine && depth = 0 then '*' :: '/' :: rest else skip inLine (depth - 1) rest
  | '/' :: '/' :: rest =>
      if inLine || depth = 0 then skip true depth rest else skip false depth ('/' :: rest)
  | c :: rest =>
      if inLine then skip (c != '\n') depth rest
      else if 0 < depth || isBlank c then skip false depth rest
      else c :: rest
termination_by cs => cs.length

def next (cs : List Char) : List Char := skip false 0 cs

def isNameStart (c : Char) : Bool := c.isAlpha || c == '_'

def isNameChar (c : Char) : Bool := c.isAlphanum || c == '_'

def escaped? : Char → Option Char
  | '"' => some '"'
  | '\'' => some '\''
  | '\\' => some '\\'
  | 'n' => some '\n'
  | 'r' => some '\r'
  | 't' => some '\t'
  | '0' => some '\x00'
  | _ => none

def escape? : List Char → Option (Char × List Char)
  | 'x' :: a :: b :: rest => (Ascii.hexChar? [a, b]).map (·, rest)
  | 'u' :: '\x7b' :: rest =>
      let ds := rest.takeWhile (· != '\x7d')
      if ds.isEmpty || 6 < ds.length || ds.length = rest.length then none
      else (Ascii.hexChar? ds).map (·, rest.drop (ds.length + 1))
  | c :: rest => (escaped? c).map (·, rest)
  | [] => none

/-- The inside of a string; what has been read comes last character first. Each step takes a
character. -/
def string? : Nat → (read : List Char) → List Char → Option (String × List Char)
  | 0, _, _ | _, _, [] => none
  | _, read, '"' :: rest => some (String.ofList read.reverse, rest)
  | steps + 1, read, '\\' :: rest => do
      let (c, rest) ← escape? rest
      string? steps (c :: read) rest
  | steps + 1, read, c :: rest => string? steps (c :: read) rest

def rawString? (hashes : List Char) (read : List Char) : List Char → Option (String × List Char)
  | [] => none
  | c :: rest =>
      if c == '"' && hashes.isPrefixOf rest then
        some (String.ofList read.reverse, rest.drop hashes.length)
      else rawString? hashes (c :: read) rest

def character? : List Char → Option (String × List Char)
  | '\\' :: rest => do
      let (c, '\'' :: rest) ← escape? rest | none
      return (String.singleton c, rest)
  | c :: '\'' :: rest => some (String.singleton c, rest)
  | _ => none

def isNumberChar (c : Char) : Bool := c.isAlphanum || ['.', '+', '-', '_'].contains c

def inBase? (base : Nat) (ds : List Char) : Option Int :=
  if ds.head?.all (· == '_') then none
  else (Ascii.valueIn? base (ds.filter (· != '_'))).map Int.ofNat

def integer? (ds : List Char) : Option Int :=
  match ds with
  | '0' :: 'x' :: ds => inBase? 16 ds
  | '0' :: 'o' :: ds => inBase? 8 ds
  | '0' :: 'b' :: ds => inBase? 2 ds
  | ds => inBase? 10 ds

/-- A number. An integer that does not fit is taken as a double. -/
def number? (word : List Char) : Option Value :=
  let (negative, ds) := Ascii.splitSign word
  match integer? ds with
  | some n => some (Value.ofInt (if negative then -n else n))
  | none =>
      if ds.head?.any fun c => c.isDigit || c == '.' then
        (Extended.magnitude? negative ds).map .float
      else none

def startsField (cs : List Char) : Bool :=
  cs.head?.any isNameStart && (next (cs.dropWhile isNameChar)).head? == some ':'

mutual
/-- The value at the start of a text, and the rest. Each character is come to a few times. -/
def value? : Nat → List Char → Option (Value × List Char)
  | 0, _ => none
  | steps + 1, cs =>
      match next cs with
      | '(' :: rest => bracket? steps (next rest)
      | '[' :: rest => items? steps ']' [] rest
      | '\x7b' :: rest => entries? steps [] rest
      | '"' :: rest => (string? (rest.length + 1) [] rest).map fun (s, rest) => (.text s, rest)
      | '\'' :: rest => (character? rest).map fun (s, rest) => (.text s, rest)
      | 'r' :: '"' :: rest => (rawString? [] [] rest).map fun (s, rest) => (.text s, rest)
      | 'r' :: '#' :: rest => do
          let hashes := '#' :: rest.takeWhile (· == '#')
          let '"' :: rest := rest.dropWhile (· == '#') | none
          let (s, rest) ← rawString? hashes [] rest
          return (.text s, rest)
      | c :: rest =>
          if isNameStart c then
            named? steps (String.ofList ((c :: rest).takeWhile isNameChar))
              (rest.dropWhile isNameChar)
          else if c == '-' && ['i', 'n', 'f'].isPrefixOf rest then
            some (.float (.infinite true), rest.drop 3)
          else
            (number? ((c :: rest).takeWhile isNumberChar)).map
              (·, (c :: rest).dropWhile isNumberChar)
      | [] => none

def named? : Nat → (word : String) → List Char → Option (Value × List Char)
  | 0, _, _ => none
  | steps + 1, word, rest =>
      match word with
      | "true" => some (.boolean true, rest)
      | "false" => some (.boolean false, rest)
      | "None" => some (.null, rest)
      | "inf" => some (.float (.infinite false), rest)
      | "NaN" => some (.float .nan, rest)
      | "Some" => do
          let '(' :: rest := next rest | none
          let (value, rest) ← value? steps rest
          let ')' :: rest := next rest | none
          return (value, rest)
      | _ =>
          match next rest with
          | '(' :: rest => bracket? steps (next rest)
          | rest => some (.null, rest)

/-- What stands in round brackets: fields, items, or nothing. -/
def bracket? : Nat → List Char → Option (Value × List Char)
  | 0, _ => none
  | _, ')' :: rest => some (.null, rest)
  | steps + 1, cs => if startsField cs then fields? steps [] cs else items? steps ')' [] cs

def items? : Nat → (close : Char) → List Value → List Char → Option (Value × List Char)
  | 0, _, _, _ => none
  | steps + 1, close, read, cs =>
      match next cs with
      | [] => none
      | c :: rest =>
          if c == close then some (.list read.reverse, rest)
          else do
            let (item, rest) ← value? steps (c :: rest)
            match next rest with
            | ',' :: rest => items? steps close (item :: read) rest
            | d :: rest => if d == close then some (.list (item :: read).reverse, rest) else none
            | [] => none

def fields? : Nat → Group → List Char → Option (Value × List Char)
  | 0, _, _ => none
  | steps + 1, read, cs =>
      match next cs with
      | ')' :: rest => some (.group read, rest)
      | cs => do
          if !startsField cs then none
          let name := String.ofList (cs.takeWhile isNameChar)
          let (value, rest) ← value? steps ((next (cs.dropWhile isNameChar)).drop 1)
          let read := read.set name value
          match next rest with
          | ',' :: rest => fields? steps read rest
          | ')' :: rest => some (.group read, rest)
          | _ => none

def entries? : Nat → Group → List Char → Option (Value × List Char)
  | 0, _, _ => none
  | steps + 1, read, cs =>
      match next cs with
      | '\x7d' :: rest => some (.group read, rest)
      | cs => do
          let (.text name, rest) ← value? steps cs | none
          let ':' :: rest := next rest | none
          let (value, rest) ← value? steps rest
          let read := read.set name value
          match next rest with
          | ',' :: rest => entries? steps read rest
          | '\x7d' :: rest => some (.group read, rest)
          | _ => none
end

def parse? (text : String) : Option Value := do
  let cs := text.toList
  let (value, rest) ← value? (4 * cs.length + 4) cs
  if (next rest).isEmpty then some value else none

end Multicall.Settings.Ron
