import Multicall.Binary64.Layout
import Multicall.Settings.Value
/-!
How a setting of another kind is converted where that makes sense. The value of an environment
variable is a boolean, an integer or a double where it spells one, and else a text.
-/
namespace Multicall

inductive SettingsError
  | fileUnreadable
  | fileText
  | wrongType
  | missing
  deriving DecidableEq, Repr

namespace Settings

/-- Doubles as setting texts: positional throughout, a whole one without a fraction. -/
def layout : Layout where
  positional _ := true
  wholeMark := ""

def trueWords : List String := ["true", "1", "on", "yes"]

def falseWords : List String := ["false", "0", "off", "no"]

def toBool : Value → Except SettingsError Bool
  | .boolean b => .ok b
  | .integer n => .ok (n != 0)
  | .float (.finite x) => .ok (!x.isZero)
  | .float _ => .ok true
  | .text s =>
      let word := Ascii.lower s
      if trueWords.contains word then .ok true
      else if falseWords.contains word then .ok false
      else .error .wrongType
  | _ => .error .wrongType

/-- The nearest count, a half going up. -/
def countOfFloat : Extended → Nat
  | .finite x => min x.roundAway.toNat Integer64.greatestUnsigned
  | .infinite negative => if negative then 0 else Integer64.greatestUnsigned
  | .nan => 0

/-- A plain count, with an optional plus sign. -/
def plainCount? (s : String) : Option Nat :=
  let ds := match s.toList with
    | '+' :: rest => rest
    | cs => cs
  Integer64.count? ds

def countOfText (s : String) : Except SettingsError Nat :=
  match Ascii.lower s with
  | "true" | "on" | "yes" => .ok 1
  | "false" | "off" | "no" => .ok 0
  | word =>
      match plainCount? word with
      | some n => .ok n
      | none => .error .wrongType

def toCount : Value → Except SettingsError Nat
  | .integer n => if n < 0 then .error .wrongType else .ok n.toNat
  | .float x => .ok (countOfFloat x)
  | .boolean b => .ok (if b then 1 else 0)
  | .text s => countOfText s
  | _ => .error .wrongType

def floatText : Extended → String
  | .finite x => String.ofList (x.shortest.text layout)
  | .infinite negative => if negative then "-inf" else "inf"
  | .nan => "NaN"

def toText : Value → Except SettingsError String
  | .text s => .ok s
  | .integer n => .ok (String.ofList (Ascii.integer n))
  | .float x => .ok (floatText x)
  | .boolean b => .ok (if b then "true" else "false")
  | _ => .error .wrongType

/-- The value of an environment variable. -/
def ofVariable (s : String) : Value :=
  match Ascii.lower s with
  | "true" => .boolean true
  | "false" => .boolean false
  | _ =>
      match Integer64.parse? s with
      | some n => .integer n
      | none =>
          match Extended.parse? s with
          | some x => .float x
          | none => .text s

end Settings
end Multicall
