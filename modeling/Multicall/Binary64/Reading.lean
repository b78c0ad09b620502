import Multicall.Binary64.Basic
import Multicall.Text.Ascii
/-!
Plain number texts: an optional sign, digits with an optional point and exponent, or one of the
words for infinity and not-a-number. The value is the double nearest to the decimal.
-/
namespace Multicall

/-- A double, the infinities and not-a-number included. -/
inductive Extended
  | finite (value : Binary64)
  | infinite (negative : Bool)
  | nan
  deriving DecidableEq, Repr

namespace Binary64

/-- The double nearest to `±coefficient · 10^exponent`, where the coefficient has at most
`width` digits. Exponents that decide the answer alone are never expanded into digits. -/
def ofDecimal (negative : Bool) (coefficient width : Nat) (exponent : Int) : Option Binary64 :=
  if coefficient = 0 then some (zero negative)
  else if 400 < exponent then none
  else if exponent + width < -400 then some (zero negative)
  else ofRatio negative (coefficient * Nat.pow 10 exponent.toNat) (Nat.pow 10 (-exponent).toNat)

end Binary64

namespace Extended

/-- The exponent part of a number text: nothing, or `e` and an integer. -/
def exponent? : List Char → Option Int
  | [] => some 0
  | c :: rest => if c == 'e' || c == 'E' then Ascii.signedDigits? rest else none

def magnitude? (negative : Bool) (cs : List Char) : Option Extended := do
  let whole := cs.takeWhile Char.isDigit
  let rest := cs.dropWhile Char.isDigit
  let (fraction, rest) := match rest with
    | '.' :: more => (more.takeWhile Char.isDigit, more.dropWhile Char.isDigit)
    | _ => ([], rest)
  let ds := whole ++ fraction
  if ds.isEmpty then none
  let exponent ← exponent? rest
  match Binary64.ofDecimal negative (Ascii.digitsValue ds) ds.length
      (exponent - fraction.length) with
  | some x => some (.finite x)
  | none => some (.infinite negative)

def parse? (s : String) : Option Extended :=
  let (negative, cs) := Ascii.splitSign s.toList
  let word := String.ofList (cs.map Char.toLower)
  if word == "inf" || word == "infinity" then some (.infinite negative)
  else if word == "nan" then some .nan
  else magnitude? negative cs

end Extended

end Multicall
