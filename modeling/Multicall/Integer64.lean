import Multicall.Text.Ascii
/-!
The integers that a signed word of 64 bits holds, and the nearest such integer to any other.
-/
namespace Multicall.Integer64

def least : Int := -9223372036854775808

def greatest : Int := 9223372036854775807

/-- The greatest integer that a word without a sign holds. -/
def greatestUnsigned : Nat := 18446744073709551615

def fits (n : Int) : Bool := least ≤ n && n ≤ greatest

/-- The nearest integer that fits. -/
def clamp (n : Int) : Int := max least (min n greatest)

/-- An integer text whose value fits. -/
def parse? (s : String) : Option Int := (Ascii.signedDigits? s.toList).filter fits

/-- A text of digits only whose value fits a word without a sign. -/
def count? (ds : List Char) : Option Nat :=
  if ds.isEmpty || !ds.all Char.isDigit then none
  else if Ascii.digitsValue ds ≤ greatestUnsigned then some (Ascii.digitsValue ds)
  else none

theorem parse?_ofList (cs : List Char) :
    parse? (String.ofList cs) = (Ascii.signedDigits? cs).filter fits := by
  rw [parse?, String.toList_ofList]

theorem fits_iff (n : Int) : fits n = true ↔ least ≤ n ∧ n ≤ greatest := by
  simp only [fits, Bool.and_eq_true, decide_eq_true_eq]

theorem clamp_of_fits {n : Int} (h : fits n = true) : clamp n = n := by
  rw [fits_iff] at h
  simp only [clamp]
  omega

end Multicall.Integer64
