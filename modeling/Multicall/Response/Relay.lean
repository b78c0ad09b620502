import Multicall.Module.Course
import Multicall.Response.Writer
/-!
Carrying out part commands. A relay keeps the queue of commands and knows which part each open
stream is; it applies commands one by one in queue order. While a course runs, one queued command
is applied at each suspension, and the rest when it has ended.
-/
namespace Multicall

structure Relay where
  queue : List PartCommand
  /-- The handles of open streams. -/
  handles : List (StreamId × Nat)

/-- A writer with the relay that feeds it. -/
structure Desk where
  writer : Writer
  relay : Relay

namespace Relay

def start : Relay := ⟨[], []⟩

def handle? (stream : StreamId) (r : Relay) : Option Nat := r.handles.lookup stream

def forget (stream : StreamId) (r : Relay) : Relay :=
  { r with handles := r.handles.filter (·.1 != stream) }

def assign (stream : StreamId) (handle : Nat) (r : Relay) : Relay :=
  { r with handles := (stream, handle) :: r.handles }

end Relay

namespace Desk

def onWriter : Desk → Writer × (Writer → Desk)
  | ⟨writer, relay⟩ => (writer, fun writer => ⟨writer, relay⟩)

def setRelay (r : Relay) : Action Desk Unit := Action.modify fun d => { d with relay := r }

def record (e : Event) : Action Desk Unit := .within onWriter (Writer.record e)

def enqueue (c : PartCommand) : Action Desk Unit := Action.modify fun d =>
  { d with relay := { d.relay with queue := d.relay.queue ++ [c] } }

/-- Applies a command that has left the queue. -/
def apply (c : PartCommand) : Action Desk Unit := do
  let relay := (← Action.get).relay
  match c with
  | .openPart stream mime =>
      let handle ← .within onWriter (Writer.openPart mime)
      setRelay (relay.assign stream handle)
  | .write stream bytes =>
      match relay.handle? stream with
      | some handle => .within onWriter (Writer.write handle bytes)
      | none => record .writeToUnopenedStream
  | .close stream =>
      match relay.handle? stream with
      | some handle =>
          setRelay (relay.forget stream)
          .within onWriter (Writer.closePart handle)
      | none => record .closeOfUnopenedStream

/-- Takes one command from the queue and applies it. -/
def step : Action Desk (Option PartCommand) := do
  let relay := (← Action.get).relay
  match relay.queue with
  | [] => return none
  | c :: rest =>
      setRelay { relay with queue := rest }
      apply c
      return some c

/-- Applies commands that were queued, the first of them first. -/
def drainList : List PartCommand → Action Desk Unit
  | [] => return ()
  | c :: rest => do
      Action.modify fun d => { d with relay := { d.relay with queue := rest } }
      apply c
      drainList rest

/-- Applies all commands in the queue. -/
def drain : Action Desk Unit := do drainList (← Action.get).relay.queue

end Desk
end Multicall
