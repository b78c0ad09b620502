import Multicall.Binary64.Shortest
import Multicall.Text.Ascii
/-!
How a decimal is laid out as text: which magnitudes are written positionally, and whether a whole
number carries a mark that it is no integer. The digits are never changed, only placed.
-/
namespace Multicall

structure Layout where
  /-- Decided by the power of ten of the first digit. -/
  positional : Int → Bool
  wholeMark : String

namespace Decimal

/-- The power of ten of the first digit. -/
def magnitude (d : Decimal) : Int := d.exponent + (Ascii.digits d.coefficient).length - 1

def positionalText (d : Decimal) (wholeMark : String) : List Char :=
  let ds := Ascii.digits d.coefficient
  if 0 ≤ d.exponent then
    ds ++ List.replicate d.exponent.toNat '0' ++ wholeMark.toList
  else
    let point := d.magnitude + 1
    if 0 < point then
      ds.take point.toNat ++ '.' :: ds.drop point.toNat
    else
      '0' :: '.' :: List.replicate (-point).toNat '0' ++ ds

def scientificText (d : Decimal) : List Char :=
  let mantissa := match Ascii.digits d.coefficient with
    | first :: second :: more => first :: '.' :: second :: more
    | ds => ds
  let sign := if d.magnitude < 0 then '-' else '+'
  mantissa ++ 'e' :: sign :: Ascii.digits d.magnitude.natAbs

def text (layout : Layout) (d : Decimal) : List Char :=
  let magnitudeText :=
    if layout.positional d.magnitude then d.positionalText layout.wholeMark
    else d.scientificText
  if d.negative then '-' :: magnitudeText else magnitudeText

end Decimal
end Multicall
