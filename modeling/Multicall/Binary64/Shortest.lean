import Multicall.Binary64.Basic
/-!
The shortest decimal that reads back as a given double. Among the decimals inside the interval of
reals that round to the number, those on the coarsest power-of-ten grid have the fewest digits;
of these the one nearest to the number is taken, and of two equally near the even one.
-/
namespace Multicall

structure Decimal where
  negative : Bool
  coefficient : Nat
  exponent : Int
  deriving DecidableEq, Repr

namespace Binary64

/-- The reals that round to a magnitude, and the magnitude itself, as fractions over one
denominator. The ends belong to the interval when a half goes to this number. -/
structure Basin where
  lower : Nat
  value : Nat
  upper : Nat
  denominator : Nat
  closed : Bool

def Basin.contains (b : Basin) (n : Nat) : Bool :=
  if b.closed then b.lower ≤ n && n ≤ b.upper else b.lower < n && n < b.upper

/-- A quarter of the unit in the last place is the finest step that the ends need: below a power
of two the neighbour is half as far away. -/
def basin (x : Binary64) : Basin :=
  let step := Nat.pow 2 x.exponent
  let down := if x.significand = leastLeading ∧ 0 < x.exponent then step else 2 * step
  { lower := 4 * x.scaled - down
    value := 4 * x.scaled
    upper := 4 * x.scaled + 2 * step
    denominator := 4 * one
    closed := x.significand % 2 == 0 }

def Basin.onGrid? (b : Basin) (k : Int) : Option Nat :=
  -- both sides are brought to whole multiples of the grid step
  let up := Nat.pow 10 (-k).toNat
  let step := Nat.pow 10 k.toNat * b.denominator
  let scaled : Basin := ⟨b.lower * up, b.value * up, b.upper * up, step, b.closed⟩
  let below := scaled.value / step
  let low := below * step
  let high := low + step
  match scaled.contains low, scaled.contains high with
  | true, true =>
    let toLow := scaled.value - low
    let toHigh := high - scaled.value
    if toLow < toHigh then some below
    else if toHigh < toLow then some (below + 1)
    else some (below + below % 2)
  | true, false => some below
  | false, true => some (below + 1)
  | false, false => none

def Basin.coarsest (b : Basin) : Nat → Int → Nat × Int
  | 0, k => (0, k)
  | fuel + 1, k =>
    match b.onGrid? k with
    | some n => (n, k)
    | none => b.coarsest fuel (k - 1)

def Basin.coarseStart (b : Basin) : Int :=
  ((Nat.log2 b.upper : Int) - Nat.log2 b.denominator) * 30103 / 100000 + 2

/-- Twenty grids reach past seventeen digits, and seventeen digits always suffice. -/
def shortest (x : Binary64) : Decimal :=
  if x.isZero then ⟨x.negative, 0, 0⟩
  else
    let b := x.basin
    let (n, k) := b.coarsest 24 b.coarseStart
    ⟨x.negative, n, k⟩

example : (ofRatio false 1 10).map shortest = some ⟨false, 1, -1⟩ := by decide +kernel
example : (ofRatio true 100 1).map shortest = some ⟨true, 1, 2⟩ := by decide +kernel
example : shortest ⟨false, 1, 0⟩ = ⟨false, 5, -324⟩ := by decide +kernel
example : shortest ⟨false, 2 ^ 53 - 1, 2045⟩ = ⟨false, 17976931348623157, 292⟩ := by decide +kernel

end Binary64
end Multicall
