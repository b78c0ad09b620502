import Multicall.Json.Scalar
import Multicall.Settings.Value
import Multicall.Text.Blank
/-!
Settings in a loose kind of JSON: with comments, names without quotes, strings in either quote, a
comma behind the last item, and numbers with a plus sign, in hexadecimal digits or beyond all
others.
-/
namespace Multicall.Settings.Json5

def isLineEnd (c : Char) : Bool := c == '\n' || c == '\r' || c == '\u2028' || c == '\u2029'

def isBlank (c : Char) : Bool := (Blank.isBlank c && c != '\u0085') || c == '\uFEFF'

inductive Gap
  | blank
  | lineComment
  | blockComment

/-- The text behind blanks and comments. A comment that does not end leaves its first mark. -/
def skip : Gap → List Char → List Char
  | .blockComment, [] => ['/']
  | _, [] => []
  | .lineComment, c :: rest => skip (if isLineEnd c then .blank else .lineComment) rest
  | .blockComment, '*' :: '/' :: rest => skip .blank rest
  | .blockComment, _ :: rest => skip .blockComment rest
  | .blank, '/' :: '/' :: rest => skip .lineComment rest
  | .blank, '/' :: '*' :: rest => skip .blockComment rest
  | .blank, c :: rest => if isBlank c then skip .blank rest else c :: rest

def next (cs : List Char) : List Char := skip .blank cs

def escaped : Char → Char
  | 'b' => '\x08'
  | 'f' => '\x0c'
  | 'n' => '\n'
  | 'r' => '\r'
  | 't' => '\t'
  | 'v' => '\x0b'
  | '0' => '\x00'
  | c => c

/-- The inside of a string up to its closing quote; what has been read comes last character first.
A backslash takes a line end out of the string. -/
def string? (quote : Char) (read : List Char) : List Char → Option (String × List Char)
  | [] => none
  | '\\' :: '\r' :: '\n' :: rest => string? quote read rest
  | '\\' :: 'x' :: a :: b :: rest => do
      string? quote ((← Ascii.hexChar? [a, b]) :: read) rest
  | '\\' :: 'u' :: a :: b :: c :: d :: '\\' :: 'u' :: e :: f :: g :: h :: rest => do
      let first ← Ascii.hexValue? [a, b, c, d]
      let second ← Ascii.hexValue? [e, f, g, h]
      if Json.isHighSurrogate first && Json.isLowSurrogate second then
        string? quote (Json.joinSurrogates first second :: read) rest
      else string? quote ((← Ascii.charNumbered? first) :: read) ('\\' :: 'u' :: e :: f :: g :: h :: rest)
  | '\\' :: 'u' :: a :: b :: c :: d :: rest => do
      string? quote ((← Ascii.hexChar? [a, b, c, d]) :: read) rest
  | '\\' :: c :: rest =>
      if isLineEnd c then string? quote read rest
      else if c == 'x' || c == 'u' || (c.isDigit && c != '0') then none
      else string? quote (escaped c :: read) rest
  | c :: rest =>
      if c == quote then some (String.ofList read.reverse, rest)
      else if c == '\\' || isLineEnd c then none
      else string? quote (c :: read) rest
termination_by cs => cs.length
decreasing_by all_goals (simp only [List.length_cons]; omega)

def hex? (ds : List Char) : Option Value := do
  let n ← Ascii.hexValue? ds
  if ds.isEmpty || 0x100000000 ≤ n then none else some (.integer n)

/-- An integer, or a number with a point or an exponent that is not too large. -/
def decimal? (word : List Char) : Option Value :=
  let (negative, body) := Ascii.splitSign word
  match body with
  | '0' :: c :: _ => if c.isDigit then none else fraction negative body
  | c :: rest => if (c :: rest).all Char.isDigit then whole else fraction negative body
  | [] => none
where
  whole : Option Value := (Integer64.parse? (String.ofList word)).map .integer
  fraction (negative : Bool) (body : List Char) : Option Value :=
    match Extended.magnitude? negative body with
    | some (.finite x) => some (.float (.finite x))
    | _ => none

def word? (word : List Char) : Option Value :=
  match String.ofList word with
  | "null" => some .null
  | "true" => some (.boolean true)
  | "false" => some (.boolean false)
  | "Infinity" => some (.float (.infinite false))
  | "-Infinity" => some (.float (.infinite true))
  | "NaN" | "-NaN" => some (.float .nan)
  | _ =>
      match word with
      | '0' :: c :: ds => if c == 'x' || c == 'X' then hex? ds else decimal? word
      | _ => decimal? word

def isWordChar (c : Char) : Bool := c.isAlphanum || c == '.' || c == '+' || c == '-'

def isNameChar (c : Char) : Bool :=
  c.isAlphanum || c == '_' || c == '$' || (0x80 ≤ c.toNat && !isBlank c)

def name? : List Char → Option (String × List Char)
  | '"' :: rest => string? '"' [] rest
  | '\'' :: rest => string? '\'' [] rest
  | cs =>
      let name := cs.takeWhile isNameChar
      if name.head?.all Char.isDigit then none
      else some (String.ofList name, cs.dropWhile isNameChar)

mutual
/-- The value at the start of a text, and the rest. Each bracket takes at least one step. -/
def value? : Nat → List Char → Option (Value × List Char)
  | 0, _ => none
  | steps + 1, cs =>
      match next cs with
      | '\x7b' :: rest => entries? steps [] rest
      | '[' :: rest => items? steps [] rest
      | '"' :: rest => (string? '"' [] rest).map fun (s, rest) => (.text s, rest)
      | '\'' :: rest => (string? '\'' [] rest).map fun (s, rest) => (.text s, rest)
      | cs => (word? (cs.takeWhile isWordChar)).map (·, cs.dropWhile isWordChar)

def items? : Nat → List Value → List Char → Option (Value × List Char)
  | 0, _, _ => none
  | steps + 1, read, cs =>
      match next cs with
      | ']' :: rest => some (.list read.reverse, rest)
      | cs => do
          let (item, rest) ← value? steps cs
          match next rest with
          | ',' :: rest => items? steps (item :: read) rest
          | ']' :: rest => some (.list (item :: read).reverse, rest)
          | _ => none

def entries? : Nat → Group → List Char → Option (Value × List Char)
  | 0, _, _ => none
  | steps + 1, read, cs =>
      match next cs with
      | '\x7d' :: rest => some (.group read, rest)
      | cs => do
          let (name, rest) ← name? cs
          let ':' :: rest := next rest | none
          let (value, rest) ← value? steps rest
          let read := read.set name value
          match next rest with
          | ',' :: rest => entries? steps read rest
          | '\x7d' :: rest => some (.group read, rest)
          | _ => none
end

/-- The group that a file is. No other value is a file. -/
def parse? (text : String) : Option Value := do
  let cs := text.toList
  match ← value? (2 * cs.length + 1) cs with
  | (.group entries, rest) => if (next rest).isEmpty then some (.group entries) else none
  | _ => none

end Multicall.Settings.Json5
