import Multicall.Http.Pipe
import Multicall.Response.Transport
/-!
A response on its way. The task that writes it and the reader that makes a body of it share a pipe of
limited room and move in any order. What is written goes into the pipe as soon as it fits; the shutdown
closes the pipe, and so does the end of the task. Whatever a read finds is one frame, and the read that
finds the pipe empty and closed ends the body.
-/
namespace Multicall

/-- A pipe as its writer meets it, if by each call its reader has taken so many octets. A write that
finds the pipe full waits until something has been read, so there is room for one octet when it is
answered. -/
def Peer.duplex (room : Nat) (read : (call : Nat) → Nat) : Peer where
  onWrite call accepted offered :=
    .accept (min offered (room - min (accepted - read call) (room - 1)))
  onFlush _ := .ok ()
  onShutdown := .ok ()

namespace Http

structure Stream where
  calls : List TransportCall
  pipe : Pipe
  closed : Bool
  ended : Bool

namespace Stream

/-- A stream for calls that have been accounted for and not been made. -/
def start (t : Transport) : Stream := ⟨t.calls.toList, .start t.accepted.toList, false, false⟩

inductive Step (room : Nat) : Stream → Stream → Prop
  | write {count : Nat} {rest : List TransportCall} {pipe : Pipe} {ended : Bool}
      (fits : pipe.held.length + count ≤ room) :
      Step room ⟨.wrote count :: rest, pipe, false, ended⟩ ⟨rest, pipe.put room count, false, ended⟩
  | flush {rest : List TransportCall} {pipe : Pipe} {closed ended : Bool} :
      Step room ⟨.flushed :: rest, pipe, closed, ended⟩ ⟨rest, pipe, closed, ended⟩
  | shutdown {rest : List TransportCall} {pipe : Pipe} {closed ended : Bool} :
      Step room ⟨.shut :: rest, pipe, closed, ended⟩ ⟨rest, pipe, true, ended⟩
  | leave {pipe : Pipe} {ended : Bool} :
      Step room ⟨[], pipe, false, ended⟩ ⟨[], pipe, true, ended⟩
  | read {calls : List TransportCall} {pipe : Pipe} {closed : Bool} (found : pipe.held ≠ []) :
      Step room ⟨calls, pipe, closed, false⟩ ⟨calls, pipe.take room, closed, false⟩
  | finish {calls : List TransportCall} {pipe : Pipe} (empty : pipe.held = []) :
      Step room ⟨calls, pipe, true, false⟩ ⟨calls, pipe, true, true⟩

inductive Run (room : Nat) (s : Stream) : Nat → Stream → Prop
  | none : Run room s 0 s
  | more {n : Nat} {t u : Stream} (before : Run room s n t) (step : Step room t u) :
      Run room s (n + 1) u

def frames (chunkSize : Nat) (s : Stream) : List Frame :=
  Http.frames chunkSize (s.pipe.taken.map .octets)

end Stream
end Http
end Multicall
