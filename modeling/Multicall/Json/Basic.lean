import Multicall.Assoc
import Multicall.Binary64.Basic
/-!
JSON documents. Objects keep their members in order; setting a name that is there replaces its
value in place. Integers and doubles are told apart, since a literal without point or exponent
stays exact.
-/
namespace Multicall

inductive Number
  | int (value : Int)
  | double (value : Binary64)
  deriving DecidableEq, Repr

inductive Json
  | null
  | bool (value : Bool)
  | number (value : Number)
  | string (value : String)
  | array (items : List Json)
  | object (members : List (String × Json))
  deriving Repr

/-- The members of an object, in order. -/
abbrev Members := Assoc Json

namespace Json

def text (s : String) : Json := .string s

def int (n : Int) : Json := .number (.int n)

/-- A value that is there and not `null`. -/
def present? : Option Json → Option Json
  | none => none
  | some .null => none
  | some value => some value

end Json

/-! Documents are read in steps. Where a reading has not failed, each step of it has gone well. -/

theorem ok_of_map {ε α β : Type} {f : α → β} {x : Except ε α} {b : β} (found : f <$> x = .ok b) :
    ∃ a, x = .ok a ∧ f a = b := by
  cases x with
  | error e => cases found
  | ok a =>
      cases found
      exact ⟨a, rfl, rfl⟩

theorem ok_of_bind {ε α β : Type} {f : α → Except ε β} {x : Except ε α} {b : β}
    (found : x >>= f = .ok b) : ∃ a, x = .ok a ∧ f a = .ok b := by
  cases x with
  | error e => cases found
  | ok a => exact ⟨a, rfl, found⟩

end Multicall
