import Multicall.Binary64.Reading
import Multicall.Integer64
import Multicall.Json.Basic
/-!
The value of a number literal. Integers that fit a signed or an unsigned word of 64 bits stay
exact. Any other literal becomes a double in two rounded steps: as many leading digits as an
unsigned word holds are taken as the significand, then it is scaled by a power of ten. The result
can differ from the nearest double in the last place; that is this format's own rule, and it
keeps the work per literal bounded.
-/
namespace Multicall

structure NumberLiteral where
  negative : Bool
  whole : List Char
  fraction : Option (List Char)
  exponent : Option (Bool × List Char)

namespace NumberLiteral

def greatestPower : Nat := 308

def exponentLimit : Nat := 2147483647

/-- Extends a significand by digits for as long as it fits a word. -/
def accumulate : Nat → List Char → Nat × List Char
  | n, [] => (n, [])
  | n, c :: rest =>
      let extended := 10 * n + Ascii.digitValue c
      if extended ≤ Integer64.greatestUnsigned then accumulate extended rest else (n, c :: rest)

def power (k : Nat) : Option Binary64 := Binary64.ofRatio false (Nat.pow 10 k) 1

/-- Divides by `10^k` in steps of at most `10^308`, each rounded. -/
def scaleDown (x : Binary64) (k : Nat) : Option Binary64 :=
  if greatestPower < k then
    if x.isZero then some x
    else do
      let y ← x.div (← power greatestPower)
      scaleDown y (k - greatestPower)
  else do x.div (← power k)
termination_by k
decreasing_by simp_all [greatestPower]; omega

def scale (significand : Nat) (exponent : Int) : Option Binary64 := do
  let x ← Binary64.ofRatio false significand 1
  if exponent < 0 then scaleDown x exponent.natAbs
  else if exponent.toNat ≤ greatestPower then x.mul (← power exponent.toNat)
  else if x.isZero then some x
  else none

def magnitude (l : NumberLiteral) : Option Binary64 := do
  let (significand, dropped) := accumulate 0 l.whole
  let fraction := l.fraction.getD []
  -- digits of the fraction are taken by the same rule, also behind dropped digits of the whole
  let (significand, left) := accumulate significand fraction
  let taken := fraction.length - left.length
  let point : Int := (dropped.length : Int) - taken
  match l.exponent with
  | none => scale significand point
  | some (down, ds) =>
    let e := Ascii.digitsValue ds
    if exponentLimit < e then
      if significand = 0 || down then some (Binary64.zero false) else none
    else
      scale significand (if down then point - e else point + e)

def value (l : NumberLiteral) : Option Number :=
  let n := Ascii.digitsValue l.whole
  let isExact := l.fraction.isNone && l.exponent.isNone
  if isExact && !l.negative && n ≤ Integer64.greatestUnsigned then some (.int n)
  else if isExact && l.negative && 0 < n && Integer64.fits (-n) then some (.int (-n))
  else l.magnitude.map fun x => .double { x with negative := l.negative }

def behindLimit (n : Nat) : List Char → List Char
  | [] => []
  | c :: rest =>
      let extended := 10 * n + Ascii.digitValue c
      if exponentLimit < extended then rest else behindLimit extended rest

/-- What of a literal is not looked at when it is too large. -/
def unread (l : NumberLiteral) : List Char :=
  match l.exponent with
  | some (_, ds) => behindLimit 0 ds
  | none => []

end NumberLiteral
end Multicall
