import Multicall.Integer64
/-!
What is wrong with a text that is no JSON document, and where. A text is read octet by octet; a
place is a line, counted from one, and the number of octets of that line that were looked at.
-/
namespace Multicall.Json

inductive FaultKind
  | endInList
  | endInObject
  | endInString
  | endInValue
  | noColon
  | noListSeparator
  | noObjectSeparator
  | noWord
  | noValue
  | badEscape
  | badNumber
  | numberTooLarge
  | notUnicode
  | controlCharacter
  | nameNoString
  | loneSurrogate
  | noSecondSurrogate
  | trailingComma
  | trailingText
  | tooDeep
  deriving DecidableEq, Repr

def FaultKind.message : FaultKind → String
  | .endInList => "EOF while parsing a list"
  | .endInObject => "EOF while parsing an object"
  | .endInString => "EOF while parsing a string"
  | .endInValue => "EOF while parsing a value"
  | .noColon => "expected `:`"
  | .noListSeparator => "expected `,` or `]`"
  | .noObjectSeparator => "expected `,` or `\x7d`"
  | .noWord => "expected ident"
  | .noValue => "expected value"
  | .badEscape => "invalid escape"
  | .badNumber => "invalid number"
  | .numberTooLarge => "number out of range"
  | .notUnicode => "invalid unicode code point"
  | .controlCharacter => "control character (\\u0000-\\u001F) found while parsing a string"
  | .nameNoString => "key must be a string"
  | .loneSurrogate => "lone leading surrogate in hex escape"
  | .noSecondSurrogate => "unexpected end of hex escape"
  | .trailingComma => "trailing comma"
  | .trailingText => "trailing characters"
  | .tooDeep => "recursion limit exceeded"

/-- A fault in a text that was read up to so many octets before its end. -/
structure Stop where
  kind : FaultKind
  left : Nat

abbrev Scan (α : Type) := List Char → Except Stop (α × List Char)

def stop {α : Type} (kind : FaultKind) (rest : List Char) : Except Stop α :=
  .error ⟨kind, rest.length⟩

/-- Stops behind the first octet of a rest, or at the end of the text. -/
def stopAt {α : Type} (kind : FaultKind) (rest : List Char) : Except Stop α :=
  .error ⟨kind, rest.length - 1⟩

structure Fault where
  kind : FaultKind
  line : Nat
  column : Nat
  deriving DecidableEq, Repr

namespace Fault

def after (kind : FaultKind) (read : List Char) : Fault where
  kind := kind
  line := 1 + read.count '\n'
  column := (read.reverse.takeWhile (· != '\n')).length

def ofStop (input : List Char) (s : Stop) : Fault :=
  .after s.kind (input.take (input.length - s.left))

def message (f : Fault) : String :=
  f.kind.message ++ " at line " ++ Ascii.decimal f.line ++ " column " ++ Ascii.decimal f.column

end Fault

/-- A text cut in two at the last place where it has a mark, which is left out. -/
def splitLast? (mark : List Char) : List Char → Option (List Char × List Char)
  | [] => none
  | c :: rest =>
      match splitLast? mark rest with
      | some (before, after) => some (c :: before, after)
      | none =>
          if mark.isPrefixOf (c :: rest) then some ([], (c :: rest).drop mark.length) else none

def splitPlace? (reason : List Char) : Option (List Char × Nat × Nat) := do
  let (before, place) ← splitLast? " at line ".toList reason
  let rest := place.dropWhile Char.isDigit
  let mark := " column ".toList
  if mark.isPrefixOf rest then
    some (before, ← Integer64.count? (place.takeWhile Char.isDigit), ← Integer64.count? (rest.drop mark.length))
  else none

/-- A reason as it is reported: a place at its end is written with plain numbers, and one in line
zero is left out. -/
def reported (reason : String) : String :=
  match splitPlace? reason.toList with
  | none => reason
  | some (before, 0, _) => String.ofList before
  | some (before, line, column) =>
      String.ofList before ++ " at line " ++ Ascii.decimal line ++ " column " ++
        Ascii.decimal column

end Multicall.Json
