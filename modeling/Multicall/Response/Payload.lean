import Multicall.Failure.Basic
import Multicall.Json.Fault
import Multicall.Module.Sink
/-!
What an operation hands back: a single value, or a sequence. A value or an element may turn out to
have no JSON form. A sequence is code of the module: it runs each time that an element is asked for,
when the operation itself is over, and it may do whatever an operation may do, panic included.
-/
namespace Multicall

/-- What a conversion comes to that fails for a given reason. -/
def Json.unconvertible (reason : String) : Except String Json := .error (Json.reported reason)

/-- Code to run for each element of a sequence, by the number of elements before it. Behind the last
element it gives nothing. -/
abbrev Producer (ω : Type) := Nat → ModuleCode ω (Option (Except String Json))

/-- A sequence of elements that are there already. -/
def Producer.ofList {ω : Type} (elements : List (Except String Json)) : Producer ω :=
  fun index => return elements[index]?

inductive Payload (ω : Type)
  | value (json : Except String Json)
  | sequence (producer : Producer ω)

def Payload.json {ω : Type} (j : Json) : Payload ω := .value (.ok j)

/-- The outcome of one entry. -/
abbrev EntryResult (ω : Type) := Except Failure (Payload ω)

end Multicall
