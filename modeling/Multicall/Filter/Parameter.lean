import Multicall.Binary64.Reading
import Multicall.Integer64
import Multicall.Json.Printer
import Multicall.Text.Blank
/-!
The parameters that conditions bind, and how a raw value becomes one. A value is converted to its
declared type by itself, without looking at the field or the operator; integers saturate at the
ends of the signed 64-bit range, and doubles are bound as text.
-/
namespace Multicall.Filter

inductive Parameter
  | string (value : String)
  | integer (value : Int)
  | boolean (value : Bool)
  | null
  deriving DecidableEq, Repr

/-- Declared types. An unknown name counts as `string`. -/
inductive ValueType
  | string
  | integer
  | float
  | boolean
  | null
  deriving DecidableEq, Repr

def ValueType.named (name : String) : ValueType :=
  match Ascii.lower (Blank.trim name) with
  | "int" | "integer" | "interger" => .integer
  | "float" | "double" | "real" => .float
  | "bool" | "boolean" => .boolean
  | "null" | "nil" => .null
  | _ => .string

namespace Parameter

def kind : Parameter → String
  | .string _ => "string"
  | .integer _ => "integer"
  | .boolean _ => "boolean"
  | .null => "null"

def value : Parameter → Json
  | .string s => .string s
  | .integer n => .int n
  | .boolean b => .bool b
  | .null => .null

def toJson (p : Parameter) : Json := .object [("value", p.value), ("type", .string p.kind)]

def text : Parameter → String
  | .string s => s
  | .integer n => String.ofList (Ascii.integer n)
  | .boolean true => "1"
  | .boolean false => ""
  | .null => ""

/-- The parameter as a pattern: its text, with `%` for every `*`. -/
def asPattern (p : Parameter) : Parameter :=
  .string (String.ofList (p.text.toList.map fun c => if c = '*' then '%' else c))

end Parameter

/-- Whole doubles below this magnitude are bound without a fraction. -/
def wholeTextLimit : Nat := 1000000000000000

def numberText (n : Number) : List Char :=
  match n with
  | .double x =>
      if x.isIntegral && x.trunc.natAbs < wholeTextLimit then Ascii.integer x.trunc else n.text
  | .int _ => n.text

def textOf : Json → String
  | .string s => s
  | .number n => String.ofList (numberText n)
  | .bool true => "1"
  | .bool false | .null => ""
  | j => j.compact

/-- The integer that the digits at the start spell, after an optional sign; without digits, zero. -/
def leadingInteger (cs : List Char) : Int :=
  let (negative, rest) := Ascii.splitSign cs
  let ds := rest.takeWhile Char.isDigit
  let n : Int := Ascii.digitsValue ds
  Integer64.clamp (if negative then -n else n)

/-- Tried in turn: the text as an integer, the text as a finite double without its fraction, and
the integer at its start. -/
def integerOfText (s : String) : Int :=
  let opened := Blank.dropLeading s.toList
  let whole := String.ofList (Blank.dropTrailing opened)
  match Integer64.parse? whole with
  | some n => n
  | none =>
      match Extended.parse? whole with
      | some (.finite x) => Integer64.clamp x.trunc
      | _ => leadingInteger opened

def integerOfNumber : Number → Int
  | .int n =>
      if Integer64.fits n then n
      else
        match Binary64.ofInt n with
        | some x => Integer64.clamp x.trunc
        | none => 0
  | .double x => Integer64.clamp x.trunc

def integerOf : Json → Int
  | .number n => integerOfNumber n
  | .string s => integerOfText s
  | .bool true => 1
  | _ => 0

/-- The texts that stand for false, in lower case. -/
def falseTexts : List String := ["false", "0", "off", "no", "n", "f", ""]

/-- Every text is true but a few words for false and the empty text. -/
def booleanOfText (s : String) : Bool := !(falseTexts.contains (Ascii.lower s))

def booleanOf : Json → Bool
  | .string s => booleanOfText s
  | .bool b => b
  | .number (.int n) => n != 0
  | .number (.double x) => !x.isZero
  | .null => false
  | .array items => !items.isEmpty
  | .object members => !members.isEmpty

/-- The parameter for a value of a declared type; arrays and objects have none, unless the
declared type is null. -/
def coerce? (value : Json) (type : ValueType) : Option Parameter :=
  match type, value with
  | .null, _ => some .null
  | _, .array _ => none
  | _, .object _ => none
  | .string, _ => some (.string (textOf value))
  | .float, _ => some (.string (textOf value))
  | .integer, _ => some (.integer (integerOf value))
  | .boolean, _ => some (.boolean (booleanOf value))

end Multicall.Filter
