import Multicall.Failure.Basic
/-!
Noteworthy events, in the order in which they happen. An event keeps what it is about; its
wording, its topic and its fields are derived. Where in the program a failure was raised is left out.
-/
namespace Multicall

inductive Level
  | warn
  | error
  deriving DecidableEq, Repr

inductive Event
  | failed (id : Option String) (code : Nat) (message : String)
  | causedBy (id : Option String) (cause : Cause)
  | unresolved (namespaceName : String) (error : LoadError)
  | tooManyEntries (limit count : Nat)
  | writeFailed (reason : String)
  | flushFailed (reason : String)
  | writeToUnopenedPart
  | closeOfUnopenedPart
  | writeToUnopenedStream
  | closeOfUnopenedStream
  | valueDropped (reason : String)
  | sequenceAbandoned (id : String)
  | sequencePanicked (id : String) (index : Nat) (panic : Panic)
  | elementSkipped (id : String) (index : Nat) (reason : String)
  deriving DecidableEq, Repr

namespace Event

def level : Event → Level
  | .failed _ _ _ | .causedBy _ _ => .error
  | _ => .warn

/-- The part of the program that an event belongs to. -/
def topic : Event → String
  | .failed _ _ _ | .causedBy _ _ => "batch_rpc::failure"
  | .unresolved _ _ => "batch_rpc::resolver"
  | .tooManyEntries _ _ => "batch_rpc::dispatch"
  | _ => "batch_rpc::response"

def message : Event → String
  | .failed _ _ message => message
  | .causedBy _ cause => "caused by: " ++ cause.message
  | .unresolved _ _ => "Namespace did not resolve"
  | .tooManyEntries _ _ => "Batch exceeds the entry limit, aborting"
  | .writeFailed _ => "Transport write failed, discarding further output"
  | .flushFailed _ => "Transport flush failed, discarding further output"
  | .writeToUnopenedPart => "Write to a part that is not open"
  | .closeOfUnopenedPart => "Close of a part that is not open"
  | .writeToUnopenedStream => "Write to a stream that is not open"
  | .closeOfUnopenedStream => "Close of a stream that is not open"
  | .valueDropped _ => "Value dropped: not encodable"
  | .sequenceAbandoned _ => "Transport gone, sequence abandoned"
  | .sequencePanicked _ _ _ => "Sequence producer panicked, sequence ended early"
  | .elementSkipped _ _ _ => "Sequence element skipped: not encodable"

/-- A failure that belongs to no entry is reported under a dash. -/
def idText (id : Option String) : String := id.getD "-"

def fields : Event → List (String × String)
  | .failed id code _ => [("id", idText id), ("code", Ascii.decimal code)]
  | .causedBy id _ => [("id", idText id)]
  | .unresolved name error => [("namespace", name), ("error", error.message)]
  | .tooManyEntries limit count =>
      [("limit", Ascii.decimal limit), ("count", Ascii.decimal count)]
  | .writeFailed reason | .flushFailed reason | .valueDropped reason => [("error", reason)]
  | .sequenceAbandoned id => [("id", id)]
  | .sequencePanicked id index panic =>
      [("id", id), ("index", Ascii.decimal index), ("panic", panic.message)]
  | .elementSkipped id index reason =>
      [("id", id), ("index", Ascii.decimal index), ("error", reason)]
  | _ => []

/-- The events of a failure: itself, then each of its causes. -/
def ofFailure (id : Option String) (f : Failure) : List Event :=
  .failed id f.code f.message :: f.causes.map (.causedBy id)

end Event
end Multicall
