import Multicall.Event
import Multicall.Text.Utf8
/-!
The far end of a response. A peer decides call by call what it takes; the transport keeps what was
accepted and every call in order. Writing a block repeats the call for the rest until all of it is
accepted, and a call that accepts nothing is a failure.
-/
namespace Multicall

/-- A peer's answer to one write. -/
inductive Verdict
  | accept (count : Nat)
  | refuse (reason : String)
  | panic (panic : Panic)

/-- A peer, as its decisions. A write is decided by its number from one on, by the octets accepted
so far and by the octets offered. -/
structure Peer where
  onWrite : (call accepted offered : Nat) → Verdict
  onFlush : (call : Nat) → Except String Unit
  onShutdown : Except String Unit

/-- A call and how it went. A write that panics leaves no trace. -/
inductive TransportCall
  | wrote (count : Nat)
  | writeFailed
  | flushed
  | flushFailed
  | shut
  | shutFailed
  deriving DecidableEq, Repr

structure Transport where
  peer : Peer
  writes : Nat
  flushes : Nat
  accepted : Array UInt8
  calls : Array TransportCall

namespace Transport

def start (peer : Peer) : Transport := ⟨peer, 0, 0, #[], #[]⟩

/-- What the failure of a call that accepts nothing is called. -/
def writeZero : String := "write zero"

/-- One call to write a block that is not empty; `offered` is its length. -/
def write (offered : Nat) (block : Octets) (t : Transport) : Transport × Verdict :=
  match t with
  | ⟨peer, writes, flushes, accepted, calls⟩ =>
    match peer.onWrite (writes + 1) accepted.size offered with
    | .accept count =>
        let taken := block.take count
        (⟨peer, writes + 1, flushes, accepted ++ taken, calls.push (.wrote taken.length)⟩,
          .accept taken.length)
    | .refuse reason =>
        (⟨peer, writes + 1, flushes, accepted, calls.push .writeFailed⟩, .refuse reason)
    | .panic p => (⟨peer, writes + 1, flushes, accepted, calls⟩, .panic p)

/-- How the writing of a whole block ended. -/
inductive Delivery
  | complete
  | failed (reason : String)
  | panicked (panic : Panic)

/-- Writes a block whose length is known, in as many calls as it takes. -/
def writeRest : (offered : Nat) → Octets → Transport → Transport × Delivery
  | _, [], t => (t, .complete)
  | offered, first :: rest, t =>
      match write offered (first :: rest) t with
      | (t, .refuse reason) => (t, .failed reason)
      | (t, .panic p) => (t, .panicked p)
      | (t, .accept 0) => (t, .failed writeZero)
      | (t, .accept (count + 1)) => writeRest (offered - (count + 1)) (rest.drop count) t
termination_by _ block => block.length

def writeAll (block : Octets) (t : Transport) : Transport × Delivery :=
  writeRest block.length block t

def flush (t : Transport) : Transport × Except String Unit :=
  match t.peer.onFlush (t.flushes + 1) with
  | .ok () => ({ t with flushes := t.flushes + 1, calls := t.calls.push .flushed }, .ok ())
  | .error reason =>
      ({ t with flushes := t.flushes + 1, calls := t.calls.push .flushFailed }, .error reason)

def shutdown (t : Transport) : Transport :=
  match t.peer.onShutdown with
  | .ok () => { t with calls := t.calls.push .shut }
  | .error _ => { t with calls := t.calls.push .shutFailed }

/-! What a call comes to, by the peer's answer to it. -/

/-- The transport behind a write that took this piece. -/
def took (piece : Octets) (t : Transport) : Transport :=
  { t with
    writes := t.writes + 1
    accepted := t.accepted ++ piece
    calls := t.calls.push (.wrote piece.length) }

def refused (t : Transport) : Transport :=
  { t with writes := t.writes + 1, calls := t.calls.push .writeFailed }

def struck (t : Transport) : Transport := { t with writes := t.writes + 1 }

/-- The transport behind a flush that is noted as this call. -/
def flushedAs (call : TransportCall) (t : Transport) : Transport :=
  { t with flushes := t.flushes + 1, calls := t.calls.push call }

theorem took_accepted (piece : Octets) (t : Transport) :
    (t.took piece).accepted.toList = t.accepted.toList ++ piece := Array.toList_appendList

section Answers

variable {t : Transport} {offered : Nat} {block : Octets}

theorem write_of_accept {count : Nat}
    (answer : t.peer.onWrite (t.writes + 1) t.accepted.size offered = .accept count) :
    t.write offered block = (t.took (block.take count), .accept (block.take count).length) := by
  obtain ⟨peer, writes, flushes, accepted, calls⟩ := t
  simp only at answer
  simp only [write, answer, took]

theorem write_of_refuse {reason : String}
    (answer : t.peer.onWrite (t.writes + 1) t.accepted.size offered = .refuse reason) :
    t.write offered block = (t.refused, .refuse reason) := by
  obtain ⟨peer, writes, flushes, accepted, calls⟩ := t
  simp only at answer
  simp only [write, answer, refused]

theorem write_of_panic {p : Panic}
    (answer : t.peer.onWrite (t.writes + 1) t.accepted.size offered = .panic p) :
    t.write offered block = (t.struck, .panic p) := by
  obtain ⟨peer, writes, flushes, accepted, calls⟩ := t
  simp only at answer
  simp only [write, answer, struck]

theorem flush_of_ok (answer : t.peer.onFlush (t.flushes + 1) = .ok ()) :
    t.flush = (t.flushedAs .flushed, .ok ()) := by
  rw [flush, answer]
  rfl

theorem flush_of_error {reason : String}
    (answer : t.peer.onFlush (t.flushes + 1) = .error reason) :
    t.flush = (t.flushedAs .flushFailed, .error reason) := by
  rw [flush, answer]
  rfl

end Answers

end Transport

namespace Peer

/-- Takes everything. -/
def accepting : Peer where
  onWrite _ _ offered := .accept offered
  onFlush _ := .ok ()
  onShutdown := .ok ()

/-- A peer with limits: from some call on writes or flushes fail, it has room for so many octets in
all or per call, one write panics, or shutdown fails. -/
structure Script where
  failWrite : Option Nat
  capacity : Option Nat
  maxWrite : Option Nat
  failFlush : Option Nat
  panicWrite : Option Nat
  failShutdown : Bool

def gone : String := "peer went away"

/-- Panics are decided first, then failures, then how much is taken. -/
def Script.onWrite (s : Script) (call accepted offered : Nat) : Verdict :=
  if s.panicWrite = some call then .panic (.text "transport fault")
  else if s.failWrite.any (· ≤ call) || s.capacity.any (· ≤ accepted) then .refuse gone
  else
    let offered := (s.maxWrite.map (min offered)).getD offered
    .accept ((s.capacity.map fun limit => min offered (limit - accepted)).getD offered)

def scripted (s : Script) : Peer where
  onWrite := s.onWrite
  onFlush call := if s.failFlush.any (· ≤ call) then .error gone else .ok ()
  onShutdown := if s.failShutdown then .error gone else .ok ()

end Peer
end Multicall
