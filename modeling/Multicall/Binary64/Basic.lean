/-!
Finite binary64 numbers as exact integers, without any machine arithmetic. Each is a signed
significand below 2^53 times a power of two, and each operation is its exact rational result
rounded to nearest, a half going to the even significand.
-/
namespace Multicall

/-- The number `±significand · 2^exponent / 2^1074`. A significand below 2^52 occurs with
exponent zero only, so each number has one form; zero keeps its sign. -/
structure Binary64 where
  negative : Bool
  significand : Nat
  exponent : Nat
  deriving DecidableEq, Repr

namespace Binary64

/-- The exponent counts powers of two from the least positive number, `2^-1074`. -/
def unitBits : Nat := 1074

def one : Nat := Nat.pow 2 unitBits

def leastLeading : Nat := 4503599627370496

def maxExponent : Nat := 2045

def zero (negative : Bool) : Binary64 := ⟨negative, 0, 0⟩

def isZero (x : Binary64) : Bool := x.significand == 0

def neg (x : Binary64) : Binary64 := { x with negative := !x.negative }

/-- The magnitude in units of `2^-1074`. -/
def scaled (x : Binary64) : Nat := x.significand * Nat.pow 2 x.exponent

def roundQuotient (num den : Nat) : Nat :=
  let q := num / den
  let r := num % den
  if 2 * r < den then q
  else if den < 2 * r then q + 1
  else q + q % 2

/-- The number nearest to `±num / den`, or nothing when that is beyond the finite range. -/
def ofRatio (negative : Bool) (num den : Nat) : Option Binary64 :=
  let n := num * one
  let p := Nat.log2 (n / den) - 52
  let m := roundQuotient n (den * Nat.pow 2 p)
  -- rounding up can carry into the next power of two
  let (m, p) := if m = 2 * leastLeading then (leastLeading, p + 1) else (m, p)
  if p ≤ maxExponent then some ⟨negative, m, p⟩ else none

def ofInt (n : Int) : Option Binary64 := ofRatio (n < 0) n.natAbs 1

def mul (x y : Binary64) : Option Binary64 :=
  ofRatio (x.negative != y.negative) (x.scaled * y.scaled) (one * one)

def div (x y : Binary64) : Option Binary64 :=
  ofRatio (x.negative != y.negative) x.scaled y.scaled

def trunc (x : Binary64) : Int :=
  let magnitude : Int := (x.scaled / one : Nat)
  if x.negative then -magnitude else magnitude

/-- The nearest integer, a half going away from zero. -/
def roundAway (x : Binary64) : Int :=
  let magnitude : Int := ((2 * x.scaled + one) / (2 * one) : Nat)
  if x.negative then -magnitude else magnitude

def isIntegral (x : Binary64) : Bool := x.scaled % one == 0

example : ofInt 0 = some (zero false) := by decide +kernel
example : (ofInt 9007199254740993).map trunc = some 9007199254740992 := by decide +kernel
example : (ofRatio true 5 2).map roundAway = some (-3) := by decide +kernel
example : ofRatio false (2 ^ 1024 - 2 ^ 970) 1 = none := by decide +kernel
example : ofRatio false (2 ^ 1024 - 2 ^ 970 - 1) 1 = some ⟨false, 2 ^ 53 - 1, 2045⟩ := by
  decide +kernel

end Binary64
end Multicall
