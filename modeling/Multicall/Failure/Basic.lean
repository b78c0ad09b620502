import Multicall.Failure.Cause
/-!
Failures of single entries and of whole batches. A recoverable failure carries a message that any
client may see; of every other one a client sees only the fixed message of its kind, unless
messages are shown for debugging. Causes never reach a client.
-/
namespace Multicall

/-- The classes of failure that a client can tell apart. -/
inductive FailureKind
  | badRequest
  | forbidden
  | duplicate
  | internal
  deriving DecidableEq, Repr, Inhabited

namespace FailureKind

def code : FailureKind → Nat
  | .badRequest => 400
  | .forbidden => 403
  | .duplicate => 409
  | .internal => 500

def genericMessage : FailureKind → String
  | .badRequest => "Bad request"
  | .forbidden => "Forbidden"
  | .duplicate => "Duplicate"
  | .internal => "Internal error"

def text (kind : FailureKind) : String := Ascii.decimal kind.code ++ " " ++ kind.genericMessage

end FailureKind

/-- A failure with its causes, from the nearest to the root. -/
structure Failure where
  kind : FailureKind
  message : String
  recoverable : Bool
  causes : List Cause
  deriving DecidableEq, Repr, Inhabited

/-- What the code of an operation can fail with: a failure, or an error of no known kind, either
under any number of contexts, the innermost first. -/
inductive Raised
  | failure (failure : Failure) (contexts : List String)
  | other (root : String) (contexts : List String)
  deriving DecidableEq, Repr, Inhabited

namespace Failure

/-- A failure whose message any client may see. -/
def shown (message : String) (causes : List Cause) : Failure := ⟨.badRequest, message, true, causes⟩

def internal (message : String) (causes : List Cause) : Failure :=
  ⟨.internal, message, false, causes⟩

/-- The one failure for everything that is wrong with a request as a whole. -/
def ofRejection (r : Rejection) : Failure := shown "Invalid request" (Cause.ofRejection r)

def ofLoad (e : LoadError) : Failure := shown "Invalid namespace" (Cause.ofLoad e)

def ofPanic (p : Panic) : Failure := internal ("Operation panicked: " ++ p.message) []

def ofFault (f : BatchFault) : Failure :=
  match f with
  | .tooManyEntries _ _ => shown "Too many operations" [.fault f]
  | .panicked _ => internal f.message []

/-- A value that has no JSON form. -/
def ofConversion (reason : String) : Failure :=
  internal "Invalid JSON encoding" [.conversion reason]

/-- A failure comes back as it was, without its contexts. Any other error becomes internal, worded
by its outermost text, with all its texts as causes. -/
def ofRaised : Raised → Failure
  | .failure f _ => f
  | .other root contexts =>
      let texts := (root :: contexts).reverse
      internal (texts.headD root) (texts.map .note)

/-- The message that a client gets to see. -/
def clientMessage (debug : Bool) (f : Failure) : String :=
  if debug || f.recoverable then f.message else f.kind.genericMessage

def code (f : Failure) : Nat := f.kind.code

end Failure
end Multicall
