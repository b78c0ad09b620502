import Multicall.Event
import Multicall.Response.Boundary
/-!
What a module's code does, as data. A course lists, in order, the part commands it sends, the
events it records and the points at which it suspends, up to its result or its panic. Nothing
flows back from the response into a course, so it is known before it is carried out; at each
suspension it shows the state it has reached, should it never be resumed.
-/
namespace Multicall

/-- Names a part that a module opened. -/
abbrev StreamId := Nat

inductive PartCommand
  | openPart (stream : StreamId) (mime : MediaType)
  | write (stream : StreamId) (bytes : Octets)
  | close (stream : StreamId)
  deriving DecidableEq, Repr

inductive Course (σ α : Type)
  | ended (outcome : Except Panic α) (state : σ)
  | send (command : PartCommand) (next : Course σ α)
  | record (event : Event) (next : Course σ α)
  | suspend (state : σ) (next : Course σ α)

namespace Course

variable {σ τ α β : Type}

/-- Goes on from every end that is no panic. -/
def andThen (f : α → σ → Course σ β) : Course σ α → Course σ β
  | ended (.ok a) s => f a s
  | ended (.error p) s => ended (.error p) s
  | send c next => send c (next.andThen f)
  | record e next => record e (next.andThen f)
  | suspend s next => suspend s (next.andThen f)

/-- Turns the outcome at the end into a result. -/
def attempt : Course σ α → Course σ (Except Panic α)
  | ended outcome s => ended (.ok outcome) s
  | send c next => send c next.attempt
  | record e next => record e next.attempt
  | suspend s next => suspend s next.attempt

def mapState (f : σ → τ) : Course σ α → Course τ α
  | ended outcome s => ended outcome (f s)
  | send c next => send c (next.mapState f)
  | record e next => record e (next.mapState f)
  | suspend s next => suspend (f s) (next.mapState f)

/-- A course as it goes for one who waits for its end and does nothing meanwhile. -/
def awaited : Course σ α → Course σ α
  | ended outcome s => ended outcome s
  | send c next => send c next.awaited
  | record e next => record e next.awaited
  | suspend _ next => next.awaited

/-- The commands of a course, in order. -/
def commands : Course σ α → List PartCommand
  | ended _ _ => []
  | send c next => c :: next.commands
  | record _ next => next.commands
  | suspend _ next => next.commands

/-- The events of a course, in order. -/
def events : Course σ α → List Event
  | ended _ _ => []
  | send _ next => next.events
  | record e next => e :: next.events
  | suspend _ next => next.events

/-- How a course ends. -/
def outcome : Course σ α → Except Panic α
  | ended outcome _ => outcome
  | send _ next => next.outcome
  | record _ next => next.outcome
  | suspend _ next => next.outcome

/-- The state at the end of a course. -/
def finalState : Course σ α → σ
  | ended _ s => s
  | send _ next => next.finalState
  | record _ next => next.finalState
  | suspend _ next => next.finalState

theorem andThen_assoc {γ : Type} (f : α → σ → Course σ β) (g : β → σ → Course σ γ)
    (c : Course σ α) : (c.andThen f).andThen g = c.andThen fun a s => (f a s).andThen g := by
  induction c with
  | ended outcome s => cases outcome <;> rfl
  | send _ _ ih => simp [andThen, ih]
  | record _ _ ih => simp [andThen, ih]
  | suspend _ _ ih => simp [andThen, ih]

theorem andThen_pure (c : Course σ α) : c.andThen (fun a s => .ended (.ok a) s) = c := by
  induction c with
  | ended outcome s => cases outcome <;> rfl
  | send _ _ ih => rw [andThen, ih]
  | record _ _ ih => rw [andThen, ih]
  | suspend _ _ ih => rw [andThen, ih]

theorem mapState_id (c : Course σ α) : c.mapState id = c := by
  induction c with
  | ended _ _ => rfl
  | send _ _ ih => rw [mapState, ih]
  | record _ _ ih => rw [mapState, ih]
  | suspend _ _ ih => rw [mapState, ih, id]

end Course

/-- Code that runs from a state. -/
def Activity (σ α : Type) := σ → Course σ α

namespace Activity

variable {σ τ α β : Type}

protected def pure (a : α) : Activity σ α := fun s => .ended (.ok a) s

protected def bind (m : Activity σ α) (f : α → Activity σ β) : Activity σ β := fun s =>
  (m s).andThen f

instance : Monad (Activity σ) where
  pure := Activity.pure
  bind := Activity.bind

def get : Activity σ σ := fun s => .ended (.ok s) s

def modify (f : σ → σ) : Activity σ Unit := fun s => .ended (.ok ()) (f s)

def panic (p : Panic) : Activity σ α := fun s => .ended (.error p) s

def send (c : PartCommand) : Activity σ Unit := fun s => .send c (.ended (.ok ()) s)

def record (e : Event) : Activity σ Unit := fun s => .record e (.ended (.ok ()) s)

def suspend : Activity σ Unit := fun s => .suspend s (.ended (.ok ()) s)

/-- Runs code up to its end or its panic, whichever comes. -/
def attempt (m : Activity σ α) : Activity σ (Except Panic α) := fun s => (m s).attempt

/-- Runs code on a component of the state. -/
def within (get : σ → τ) (set : σ → τ → σ) (m : Activity τ α) : Activity σ α := fun s =>
  (m (get s)).mapState (set s)

end Activity
end Multicall
