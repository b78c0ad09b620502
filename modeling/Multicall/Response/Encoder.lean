import Multicall.Json.Private
import Multicall.Json.Printer
import Multicall.Response.Writer
/-!
The parts of a response that carry results. A success or failure of an entry is an object keyed by
the entry's id; a failure of the batch has no key. Private members are left out. A sequence is
written element by element, and elements without a JSON form are skipped.
-/
namespace Multicall

/-- The version that failure bodies carry. -/
def protocolVersion : Nat := 100

inductive Emitted
  | success
  | failure
  deriving DecidableEq, Repr

namespace Encoder

def successBody (result : Json) : Json := .object [("error", .bool false), ("result", result)]

def failureBody (debug : Bool) (f : Failure) : Json :=
  .object [("error", .bool true), ("message", .string (f.clientMessage debug)),
    ("version", .int protocolVersion), ("code", .int f.code)]

def keyed (id : String) (body : Json) : Json := .object [(id, body)]

def recordAll : List Event → Action Writer Unit
  | [] => return ()
  | e :: rest => do
      Writer.record e
      recordAll rest

/-- Writes a part that is complete. -/
def writePart (bytes : Octets) : Action Writer Unit := do
  let handle ← Writer.openPart jsonMime
  Writer.write handle bytes
  Writer.closePart handle

/-- Logs a failure of the batch and writes its part. -/
def emitFault (debug : Bool) (f : Failure) : Action Writer Unit := do
  recordAll (Event.ofFailure none f)
  writePart (failureBody debug f).octets

/-- Logs a failure of an entry and writes its part. -/
def emitFailure (debug : Bool) (id : String) (f : Failure) : Action Writer Emitted := do
  recordAll (Event.ofFailure (some id) f)
  writePart (keyed id (failureBody debug f)).octets
  return .failure

/-- What a sequence part starts with. -/
def sequenceHead (id : String) : Octets :=
  Octets.ofChars ('\x7b' :: Json.quote id ++ ":\x7b\"error\":false,\"result\":[".toList)

def sequenceEnd : Octets := Octets.ofText "]\x7d\x7d"

/-- Opens the part of a sequence and gives its handle. -/
def openSequence (id : String) : Action Writer Nat := do
  let handle ← Writer.openPart jsonMime
  Writer.write handle (sequenceHead id)
  return handle

/-- Writes an element, with a comma in front of every one but the first, and says how many have been
written. -/
def emitElement (id : String) (handle index written : Nat) : Except String Json → Action Writer Nat
  | .error reason => do
      Writer.record (.elementSkipped id index reason)
      return written
  | .ok j => do
      if 0 < written then Writer.write handle (Octets.ofText ",")
      Writer.write handle j.withoutPrivate.octets
      return written + 1

/-- Says that the transport is gone, if it is. -/
def abandoned (id : String) : Action Writer Bool := do
  if (← Action.get).outlet.broken then
    Writer.record (.sequenceAbandoned id)
    return true
  else return false

def closeSequence (handle : Nat) : Action Writer Unit := do
  Writer.write handle sequenceEnd
  Writer.closePart handle

/-- Writes the part of an entry that came to a single value. -/
def emitValue (debug : Bool) (id : String) : Except String Json → Action Writer Emitted
  | .ok j => do
      writePart (keyed id (successBody j.withoutPrivate)).octets
      return .success
  | .error reason => emitFailure debug id (.ofConversion reason)

end Encoder
end Multicall
