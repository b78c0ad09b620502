import Multicall.Text.Ascii
/-!
The strings of TOML text, of four kinds, and the characters that may stand in them. Each reader
takes its string from the front of a text and gives the rest.
-/
namespace Multicall.Toml

def isSpace (c : Char) : Bool := c == ' ' || c == '\t'

/-- Characters that stand for themselves in comments and strings, quotes and backslashes aside. -/
def isPlain (c : Char) : Bool := c == '\t' || (0x20 ≤ c.toNat && c.toNat != 0x7F)

def startsLine : List Char → Bool
  | '\n' :: _ => true
  | '\r' :: '\n' :: _ => true
  | _ => false

def dropLineEnd : List Char → List Char
  | '\n' :: rest => rest
  | '\r' :: '\n' :: rest => rest
  | cs => cs

def simpleEscape? : Char → Option Char
  | 'b' => some '\x08'
  | 't' => some '\t'
  | 'n' => some '\n'
  | 'f' => some '\x0c'
  | 'r' => some '\r'
  | '"' => some '"'
  | '\\' => some '\\'
  | _ => none

def basicString (read : List Char) : List Char → Option (String × List Char)
  | '"' :: rest => some (String.ofList read.reverse, rest)
  | '\\' :: 'u' :: a :: b :: c :: d :: rest => do
      basicString ((← Ascii.hexChar? [a, b, c, d]) :: read) rest
  | '\\' :: 'U' :: a :: b :: c :: d :: e :: f :: g :: h :: rest => do
      basicString ((← Ascii.hexChar? [a, b, c, d, e, f, g, h]) :: read) rest
  | '\\' :: c :: rest => do basicString ((← simpleEscape? c) :: read) rest
  | c :: rest => if isPlain c && c != '\\' then basicString (c :: read) rest else none
  | [] => none

def literalString (read : List Char) : List Char → Option (String × List Char)
  | '\'' :: rest => some (String.ofList read.reverse, rest)
  | c :: rest => if isPlain c then literalString (c :: read) rest else none
  | [] => none

/-- The end of a string in triple quotes: up to two more quotes belong to the inside. -/
def closeTriple (quote : Char) (read : List Char) (rest : List Char) : String × List Char :=
  match rest with
  | a :: b :: more =>
      if a == quote && b == quote then (String.ofList (quote :: quote :: read).reverse, more)
      else if a == quote then (String.ofList (quote :: read).reverse, b :: more)
      else (String.ofList read.reverse, rest)
  | [a] =>
      if a == quote then (String.ofList (quote :: read).reverse, [])
      else (String.ofList read.reverse, rest)
  | [] => (String.ofList read.reverse, [])

/-- The inside of a string in triple double quotes. `folding` holds behind a backslash that ends a
line, until something that is neither space nor line end comes. -/
def longBasicString (folding : Bool) (read : List Char) : List Char → Option (String × List Char)
  | '"' :: '"' :: '"' :: rest => some (closeTriple '"' read rest)
  | '\r' :: '\n' :: rest =>
      if folding then longBasicString true read rest else longBasicString false ('\n' :: read) rest
  | '\n' :: rest =>
      if folding then longBasicString true read rest else longBasicString false ('\n' :: read) rest
  | '\\' :: 'u' :: a :: b :: c :: d :: rest => do
      longBasicString false ((← Ascii.hexChar? [a, b, c, d]) :: read) rest
  | '\\' :: 'U' :: a :: b :: c :: d :: e :: f :: g :: h :: rest => do
      longBasicString false ((← Ascii.hexChar? [a, b, c, d, e, f, g, h]) :: read) rest
  | '\\' :: c :: rest =>
      if startsLine ((c :: rest).dropWhile isSpace) then
        -- the character behind the backslash is a space or part of a line end
        longBasicString true read (if c == '\r' then rest.drop 1 else rest)
      else do longBasicString false ((← simpleEscape? c) :: read) rest
  | c :: rest =>
      if folding && isSpace c then longBasicString true read rest
      else if isPlain c && c != '\\' then longBasicString false (c :: read) rest
      else none
  | [] => none
termination_by cs => cs.length
decreasing_by all_goals (simp only [List.length_cons]; try split); all_goals (try simp only [List.length_drop]); all_goals omega

def longLiteralString (read : List Char) : List Char → Option (String × List Char)
  | '\'' :: '\'' :: '\'' :: rest => some (closeTriple '\'' read rest)
  | '\r' :: '\n' :: rest => longLiteralString ('\n' :: read) rest
  | '\n' :: rest => longLiteralString ('\n' :: read) rest
  | c :: rest => if isPlain c then longLiteralString (c :: read) rest else none
  | [] => none

def string? : List Char → Option (String × List Char)
  | '"' :: '"' :: '"' :: rest => longBasicString false [] (dropLineEnd rest)
  | '\'' :: '\'' :: '\'' :: rest => longLiteralString [] (dropLineEnd rest)
  | '"' :: rest => basicString [] rest
  | '\'' :: rest => literalString [] rest
  | _ => none

end Multicall.Toml
