import Multicall.Json.Basic
import Multicall.Binary64.Layout
import Multicall.Text.Utf8
/-!
The compact text of a document: no blanks, members in order, and no control character, since each
one inside a string is escaped.
-/
namespace Multicall

/-- Doubles are positional from `1e-5` on and below `1e16`, and a whole one ends in `.0`. -/
def Json.doubleLayout : Layout where
  positional e := -5 ≤ e && e < 16
  wholeMark := ".0"

namespace Number

def text : Number → List Char
  | .int n => Ascii.integer n
  | .double x => x.shortest.text Json.doubleLayout

end Number

namespace Json

def hexDigit (n : Nat) : Char := (Nat.toDigits 16 n).headD '0'

/-- The quote, the backslash and the control characters are escaped, all else is raw. -/
def escape (c : Char) : List Char :=
  match c with
  | '"' => ['\\', '"']
  | '\\' => ['\\', '\\']
  | '\n' => ['\\', 'n']
  | '\r' => ['\\', 'r']
  | '\t' => ['\\', 't']
  | '\x08' => ['\\', 'b']
  | '\x0c' => ['\\', 'f']
  | c =>
    if c.toNat < 0x20 then ['\\', 'u', '0', '0', hexDigit (c.toNat / 16), hexDigit (c.toNat % 16)]
    else [c]

def quote (s : String) : List Char := '"' :: s.toList.flatMap escape ++ ['"']

/-- Pieces with a comma between any two. -/
def commaSeparated : List (List Char) → List Char
  | [] => []
  | [piece] => piece
  | piece :: rest => piece ++ ',' :: commaSeparated rest

mutual
/-- The compact text. -/
def chars : Json → List Char
  | .null => ['n', 'u', 'l', 'l']
  | .bool true => ['t', 'r', 'u', 'e']
  | .bool false => ['f', 'a', 'l', 's', 'e']
  | .number n => n.text
  | .string s => quote s
  | .array items => '[' :: commaSeparated (itemTexts items) ++ [']']
  | .object members => '\x7b' :: commaSeparated (memberTexts members) ++ ['\x7d']

def itemTexts : List Json → List (List Char)
  | [] => []
  | item :: rest => chars item :: itemTexts rest

def memberTexts : List (String × Json) → List (List Char)
  | [] => []
  | (name, value) :: rest => (quote name ++ ':' :: chars value) :: memberTexts rest
end

def compact (j : Json) : String := String.ofList j.chars

/-- The compact text on the wire. -/
def octets (j : Json) : Octets := Octets.ofChars j.chars

theorem itemTexts_eq_map (items : List Json) : itemTexts items = items.map chars := by
  induction items with
  | nil => rfl
  | cons item rest ih => simp [itemTexts, ih]

example : (int (-5)).compact = "-5" := by decide
example : (array [null, bool true, text "a\n\x01\"é"]).compact = "[null,true,\"a\\n\\u0001\\\"é\"]" := by
  decide +kernel

end Json
end Multicall
