import Multicall.Failure.Basic
import Multicall.Json.Printer
import Multicall.Text.Printable
/-!
The arguments of one call, under the names that the operation declares. Values are kept exactly as
they were sent; reading one as some type is up to the operation, and a value of another type is a
failure that names the argument. A `null` counts as absent.
-/
namespace Multicall

structure Arguments where
  values : Members

/-- A way to read a value as some type, or to say why it is none. -/
abbrev Reading (α : Type) := Json → Except String α

namespace Reading

/-- Escapes inside a quoted text of a message: what shows nothing of its own is written by number. -/
def escapeInMessage (c : Char) : List Char :=
  match c with
  | '"' => ['\\', '"']
  | '\\' => ['\\', '\\']
  | '\n' => ['\\', 'n']
  | '\r' => ['\\', 'r']
  | '\t' => ['\\', 't']
  | '\x00' => ['\\', '0']
  | c =>
      if Printable.isPrintable c then [c]
      else '\\' :: 'u' :: '\x7b' :: Nat.toDigits 16 c.toNat ++ ['\x7d']

/-- What a value is called where it is not what was asked for. -/
def describe : Json → List Char
  | .null => "null".toList
  | .bool b => "boolean `".toList ++ (Json.bool b).chars ++ ['`']
  | .number (.int n) => "integer `".toList ++ Ascii.integer n ++ ['`']
  | .number n => "floating point `".toList ++ n.text ++ ['`']
  | .string s => "string \"".toList ++ s.toList.flatMap escapeInMessage ++ ['"']
  | .array _ => "sequence".toList
  | .object _ => "map".toList

def wrongType {α : Type} (value : Json) (expected : String) : Except String α :=
  .error ("invalid type: " ++ String.ofList (describe value) ++ ", expected " ++ expected)

def any : Reading Json := .ok

def text : Reading String
  | .string s => .ok s
  | value => wrongType value "a string"

def boolean : Reading Bool
  | .bool b => .ok b
  | value => wrongType value "a boolean"

def object : Reading Members
  | .object members => .ok members
  | value => wrongType value "a map"

/-- An integer within bounds; a double is none, even a whole one. -/
def integer (least greatest : Int) (typeName : String) : Reading Int
  | .number (.int n) =>
      if least ≤ n ∧ n ≤ greatest then .ok n
      else
        .error ("invalid value: integer `" ++ String.ofList (Ascii.integer n) ++ "`, expected " ++
          typeName)
  | value => wrongType value typeName

def signed64 : Reading Int := integer Integer64.least Integer64.greatest "i64"

def unsigned64 : Reading Int := integer 0 Integer64.greatestUnsigned "u64"

def unsigned32 : Reading Int := integer 0 4294967295 "u32"

def signed8 : Reading Int := integer (-128) 127 "i8"

/-- Any number, as the nearest double. -/
def real : Reading Binary64
  | .number (.double x) => .ok x
  | .number (.int n) =>
      match Binary64.ofInt n with
      | some x => .ok x
      | none => wrongType (.int n) "f64"
  | value => wrongType value "f64"

def listOf {α : Type} (item : Reading α) : Reading (List α)
  | .array items => items.mapM item
  | value => wrongType value "a sequence"

end Reading

namespace Arguments

def empty : Arguments := ⟨[]⟩

def bind (name : String) (value : Json) (a : Arguments) : Arguments := ⟨a.values.set name value⟩

def get? (name : String) (a : Arguments) : Option Json := a.values.get? name

def contains (name : String) (a : Arguments) : Bool := (a.get? name).isSome

def size (a : Arguments) : Nat := a.values.length

/-- An argument that may be absent. -/
def optional {α : Type} (read : Reading α) (name : String) (a : Arguments) :
    Except Failure (Option α) :=
  match Json.present? (a.get? name) with
  | none => .ok none
  | some value =>
      match read value with
      | .ok x => .ok (some x)
      | .error reason => .error (.shown ("Invalid argument `" ++ name ++ "`") [.conversion reason])

/-- An argument that has to be there. -/
def required {α : Type} (read : Reading α) (name : String) (a : Arguments) : Except Failure α := do
  match ← a.optional read name with
  | some x => .ok x
  | none => .error (.shown ("Missing argument `" ++ name ++ "`") [])

end Arguments
end Multicall
