import Multicall.Action
import Multicall.Response.Boundary
import Multicall.Response.Transport
/-!
Writing the parts of a response. Several parts may be open at once, yet they reach the transport
in the order in which they were opened: only the oldest unfinished part is sent, when it holds a
chunk or closes, and later parts wait in memory. After the first failure of the transport the
writer goes on as if nothing had happened and sends nothing more.
-/
namespace Multicall

/-- A part that is not fully sent yet. -/
structure Part where
  handle : Nat
  buffer : Array UInt8
  closed : Bool

/-- The way to the transport: once broken it swallows everything. -/
structure Outlet where
  transport : Transport
  broken : Bool
  sent : Nat
  log : Array Event

structure Writer where
  outlet : Outlet
  boundary : Boundary
  chunkSize : Nat
  parts : List Part
  nextHandle : Nat

namespace Outlet

def record (e : Event) : Action Outlet Unit :=
  Action.modify fun o => { o with log := o.log.push e }

/-- Sends a block; an empty one is no call. -/
def send (block : Octets) : Action Outlet Unit := fun o =>
  if o.broken || block.isEmpty then .done () o
  else
    match o with
    | ⟨transport, broken, sent, log⟩ =>
      match transport.writeAll block with
      | (transport, .complete) => .done () ⟨transport, broken, sent + block.length, log⟩
      | (transport, .failed reason) =>
          .done () ⟨transport, true, sent, log.push (.writeFailed reason)⟩
      | (transport, .panicked p) => .panicked p ⟨transport, broken, sent, log⟩

def flush : Action Outlet Unit := fun o =>
  if o.broken then .done () o
  else
    match o with
    | ⟨transport, broken, sent, log⟩ =>
      match transport.flush with
      | (transport, .ok ()) => .done () ⟨transport, broken, sent, log⟩
      | (transport, .error reason) => .done () ⟨transport, true, sent, log.push (.flushFailed reason)⟩

def shutdown : Action Outlet Unit := Action.modify fun o =>
  if o.broken then o else { o with transport := o.transport.shutdown }

/-! What the calls come to at an outlet that has failed, and at one that has not. -/

theorem send_of_broken {o : Outlet} (gone : o.broken = true) (block : Octets) :
    send block o = .done () o := by
  rw [send, if_pos (by rw [gone, Bool.true_or])]

theorem flush_of_broken {o : Outlet} (gone : o.broken = true) : flush o = .done () o := by
  rw [flush, if_pos gone]

theorem shutdown_of_broken {o : Outlet} (gone : o.broken = true) : shutdown o = .done () o := by
  rw [shutdown, Action.modify_apply, if_pos gone]

section Whole

variable {o : Outlet} {block : Octets} {t : Transport}

/-- An empty block makes no difference: it is complete without a call. -/
theorem send_of_whole (whole : o.broken = false) (block : Octets) :
    send block o = match o.transport.writeAll block with
      | (t, .complete) => .done () { o with transport := t, sent := o.sent + block.length }
      | (t, .failed reason) =>
          .done () { o with transport := t, broken := true, log := o.log.push (.writeFailed reason) }
      | (t, .panicked p) => .panicked p { o with transport := t } := by
  obtain ⟨transport, broken, sent, log⟩ := o
  obtain rfl : broken = false := whole
  cases block with
  | nil =>
    rw [Transport.writeAll, Transport.writeRest]
    rfl
  | cons first rest => rfl

theorem send_of_complete (whole : o.broken = false)
    (wrote : o.transport.writeAll block = (t, .complete)) :
    send block o = .done () { o with transport := t, sent := o.sent + block.length } := by
  rw [send_of_whole whole, wrote]

theorem send_of_failed {reason : String} (whole : o.broken = false)
    (wrote : o.transport.writeAll block = (t, .failed reason)) :
    send block o =
      .done () { o with transport := t, broken := true, log := o.log.push (.writeFailed reason) } := by
  rw [send_of_whole whole, wrote]

theorem send_of_panicked {p : Panic} (whole : o.broken = false)
    (wrote : o.transport.writeAll block = (t, .panicked p)) :
    send block o = .panicked p { o with transport := t } := by
  rw [send_of_whole whole, wrote]

theorem shutdown_of_whole (whole : o.broken = false) :
    shutdown o = .done () { o with transport := o.transport.shutdown } := by
  rw [shutdown, Action.modify_apply, whole, if_neg Bool.false_ne_true]

theorem flush_of_whole (whole : o.broken = false) :
    flush o = match o.transport.flush with
      | (t, .ok ()) => .done () { o with transport := t }
      | (t, .error reason) =>
          .done () { o with transport := t, broken := true, log := o.log.push (.flushFailed reason) } := by
  obtain ⟨transport, broken, sent, log⟩ := o
  obtain rfl : broken = false := whole
  rfl

theorem flush_of_ok (whole : o.broken = false) (flushed : o.transport.flush = (t, .ok ())) :
    flush o = .done () { o with transport := t } := by
  rw [flush_of_whole whole, flushed]

theorem flush_of_error {reason : String} (whole : o.broken = false)
    (flushed : o.transport.flush = (t, .error reason)) :
    flush o =
      .done () { o with transport := t, broken := true, log := o.log.push (.flushFailed reason) } := by
  rw [flush_of_whole whole, flushed]

end Whole

end Outlet

namespace Writer

/-- What ends a part and precedes the next delimiter. -/
def lineEnd : Octets := [13, 10]

def start (peer : Peer) (boundary : Boundary) (chunkSize : Nat) : Writer where
  outlet := ⟨Transport.start peer, false, 0, #[]⟩
  boundary := boundary
  chunkSize := max 1 chunkSize
  parts := []
  nextHandle := 0

def onOutlet : Writer → Outlet × (Outlet → Writer)
  | ⟨outlet, boundary, chunkSize, parts, nextHandle⟩ =>
      (outlet, fun outlet => ⟨outlet, boundary, chunkSize, parts, nextHandle⟩)

def record (e : Event) : Action Writer Unit := .within onOutlet (Outlet.record e)

def send (block : Octets) : Action Writer Unit := .within onOutlet (Outlet.send block)

def flush : Action Writer Unit := .within onOutlet Outlet.flush

def setParts (parts : List Part) : Action Writer Unit :=
  Action.modify fun w => { w with parts := parts }

/-- Sends what the front of the queue has to give, and says whether that was anything: closed parts
whole, and the first open one if it holds a chunk. A part leaves the queue before it is sent. -/
def release (chunkSize : Nat) (given : Bool) : List Part → Action Writer Bool
  | [] => return given
  | head :: rest =>
      if head.closed then do
        setParts rest
        send head.buffer.toList
        release chunkSize true rest
      else if chunkSize ≤ head.buffer.size then do
        setParts ({ head with buffer := #[] } :: rest)
        send head.buffer.toList
        return true
      else return given

/-- Releases what can be sent. Anything sent is flushed, so that each part arrives as it
completes. -/
def pump : Action Writer Unit := do
  let w ← Action.get
  let given ← release w.chunkSize false w.parts
  if given then flush

/-- Appends to the open part with a handle, and says whether there is one. -/
def append (handle : Nat) (bytes : Octets) (close : Bool) : List Part → List Part × Bool
  | [] => ([], false)
  | ⟨own, buffer, closed⟩ :: rest =>
      if own == handle && !closed then (⟨own, buffer ++ bytes, close⟩ :: rest, true)
      else
        let (rest, found) := append handle bytes close rest
        (⟨own, buffer, closed⟩ :: rest, found)

/-- Opens a part behind all others and gives its handle. -/
def openPart (mime : String) : Action Writer Nat := do
  let handle := (← Action.get).nextHandle
  Action.modify fun w => { w with
    parts := w.parts ++ [⟨handle, (Octets.ofText (w.boundary.preamble mime)).toArray, false⟩]
    nextHandle := handle + 1 }
  pump
  return handle

/-- Changes the open part with a handle and releases what can be sent; without such a part nothing
happens but a note in the log. -/
def onPart (handle : Nat) (bytes : Octets) (close : Bool) (otherwise : Event) :
    Action Writer Unit := fun w =>
  match w with
  | ⟨outlet, boundary, chunkSize, parts, nextHandle⟩ =>
    match append handle bytes close parts with
    | (parts, true) => pump ⟨outlet, boundary, chunkSize, parts, nextHandle⟩
    | (parts, false) => record otherwise ⟨outlet, boundary, chunkSize, parts, nextHandle⟩

def write (handle : Nat) (bytes : Octets) : Action Writer Unit :=
  onPart handle bytes false .writeToUnopenedPart

def closePart (handle : Nat) : Action Writer Unit :=
  onPart handle lineEnd true .closeOfUnopenedPart

def closed (p : Part) : Part :=
  if p.closed then p else { p with buffer := p.buffer ++ lineEnd, closed := true }

/-- Closes what is open and ends the response. -/
def finish : Action Writer Unit := do
  Action.modify fun w => { w with parts := w.parts.map closed }
  pump
  send (Octets.ofText (← Action.get).boundary.terminator)
  flush
  .within onOutlet Outlet.shutdown

end Writer
end Multicall
