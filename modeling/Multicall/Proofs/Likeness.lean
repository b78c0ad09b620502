import Mathlib.Data.List.Forall2
import Multicall.Proofs.ResultParts
import Multicall.Proofs.TwoRuns
/-!
What a client cannot tell apart. Two failures are alike when a client is shown the same of them:
their kind, and their message where messages are shown, but never their causes. Failures that are
alike have the same body on the wire.
-/
namespace Multicall

/-- Panics tell something only to clients that see every message. -/
def Panic.Alike (debug : Bool) (p q : Panic) : Prop := debug = true → p = q

theorem Panic.Alike.refl (debug : Bool) (p : Panic) : p.Alike debug p := fun _ => rfl

/-- Failures of one kind, with one message if it is for clients to see. -/
structure Failure.Alike (debug : Bool) (f g : Failure) : Prop where
  kind : f.kind = g.kind
  recoverable : f.recoverable = g.recoverable
  message : debug = true ∨ f.recoverable = true → f.message = g.message

/-- Failures of an operation. An error of no known kind is worded by its outermost text. -/
inductive Raised.Alike (debug : Bool) : Raised → Raised → Prop
  | failure {f g : Failure} {contexts others : List String} (same : f.Alike debug g) :
      Alike debug (.failure f contexts) (.failure g others)
  | other {root other : String} {contexts others : List String}
      (outermost : debug = true →
        (contexts.getLast?).getD root = (others.getLast?).getD other) :
      Alike debug (.other root contexts) (.other other others)

/-- What two conversions come to. Why a value has no JSON form is left open. -/
abbrev ConversionAlike (values : Json → Json → Prop) :
    Except String Json → Except String Json → Prop :=
  ResultAlike (fun _ _ => True) values

theorem ConversionAlike.refl {values : Json → Json → Prop} (reflValue : ∀ j, values j j)
    (json : Except String Json) : ConversionAlike values json json :=
  ResultAlike.refl (fun _ => trivial) reflValue json

theorem ConversionAlike.same_public (json : Except String Json) :
    ConversionAlike (fun j k => j.withoutPrivate = k.withoutPrivate) json json := by
  cases json with
  | ok j => exact .ok rfl
  | error reason => exact .error trivial

/-- What two pulls give that do not panic. -/
abbrev ProducedAlike (values : Json → Json → Prop) :
    Option (Except String Json) → Option (Except String Json) → Prop :=
  Option.Rel (ConversionAlike values)

theorem ProducedAlike.refl {values : Json → Json → Prop} (reflValue : ∀ j, values j j)
    (came : Option (Except String Json)) : ProducedAlike values came came := by
  cases came with
  | none => exact .none
  | some element => exact .some (.refl reflValue element)

/-- Pulls that send the same and give the same, up to a relation of the values. -/
structure Pull.Alike (values : Json → Json → Prop) (pull other : Pull) : Prop where
  commands : pull.commands = other.commands
  came : ResultAlike (fun _ _ => True) (ProducedAlike values) pull.came other.came

theorem Pull.Alike.isLast_eq {values : Json → Json → Prop} {pull other : Pull}
    (alike : pull.Alike values other) : pull.isLast = other.isLast := by
  have came := alike.came
  rw [isLast, isLast]
  generalize pull.came = left at came ⊢
  generalize other.came = right at came ⊢
  cases came with
  | error _ => rfl
  | ok same => cases same <;> rfl

namespace Failure

variable {debug : Bool} {f g : Failure}

theorem Alike.refl (debug : Bool) (f : Failure) : f.Alike debug f := ⟨rfl, rfl, fun _ => rfl⟩

/-- The causes of a failure that clients may see are its own affair. -/
theorem alike_shown (debug : Bool) (message : String) (causes others : List Cause) :
    (shown message causes).Alike debug (shown message others) := ⟨rfl, rfl, fun _ => rfl⟩

theorem alike_internal {message other : String} (causes others : List Cause)
    (same : debug = true → message = other) :
    (internal message causes).Alike debug (internal other others) where
  kind := rfl
  recoverable := rfl
  message shown := same (shown.resolve_right Bool.false_ne_true)

theorem Alike.ofRaised {raised other : Raised} (alike : raised.Alike debug other) :
    (Failure.ofRaised raised).Alike debug (.ofRaised other) := by
  cases alike with
  | failure same => exact same
  | other outermost =>
    apply alike_internal
    intro shown
    simpa [List.head?_append] using outermost shown

theorem alike_ofPanic {p q : Panic} (alike : p.Alike debug q) :
    (Failure.ofPanic p).Alike debug (.ofPanic q) :=
  alike_internal _ _ fun shown => by rw [alike shown]

theorem alike_ofFault {p q : Panic} (alike : p.Alike debug q) :
    (Failure.ofFault (.ofPanic p)).Alike debug (.ofFault (.ofPanic q)) :=
  alike_internal _ _ fun shown => by rw [alike shown]

theorem Alike.clientMessage_eq (alike : f.Alike debug g) :
    f.clientMessage debug = g.clientMessage debug := by
  rw [clientMessage, clientMessage, alike.recoverable, alike.kind]
  by_cases shown : (debug || g.recoverable) = true
  · rw [if_pos shown, if_pos shown]
    apply alike.message
    rwa [alike.recoverable, ← Bool.or_eq_true]
  · rw [if_neg shown, if_neg shown]

theorem Alike.body_eq (alike : f.Alike debug g) :
    Encoder.failureBody debug f = Encoder.failureBody debug g := by
  rw [Encoder.failureBody, Encoder.failureBody, alike.clientMessage_eq, code, code, alike.kind]

end Failure

theorem Raised.Alike.refl (debug : Bool) (raised : Raised) : raised.Alike debug raised := by
  cases raised with
  | failure f contexts => exact .failure (.refl debug f)
  | other root contexts => exact .other fun _ => rfl

end Multicall
