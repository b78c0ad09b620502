import Multicall.FileTree
import Multicall.Filter.Tree
import Multicall.Json.Fault
/-!
What can go wrong, as causes. Each kind has its own cases and one function that words them; a
failure carries causes, from the nearest to the root, and its own wording never depends on them.
-/
namespace Multicall

/-- The payload of a panic: a text, or something that has none. -/
inductive Panic
  | text (message : String)
  | other
  deriving DecidableEq, Repr

def Panic.message : Panic → String
  | .text message => message
  | .other => "unknown panic payload"

/-- Why a request is refused as a whole. Clients never see which of these it was. -/
inductive Rejection
  | contentType (found : String)
  | insecure
  | unreadable (reason : String)
  | tooLarge (limit : Nat)
  | malformed (fault : Json.Fault)
  | notAnObject
  | missingVersion
  | missingPayload
  deriving DecidableEq, Repr

def Rejection.message : Rejection → String
  | .contentType found => "Invalid content type: " ++ found
  | .insecure => "Invalid protocol: transport is not secure"
  | .unreadable reason => "Request body unreadable: " ++ reason
  | .tooLarge limit => "Request body too large: limit is " ++ Ascii.decimal limit ++ " bytes"
  | .malformed fault => "Invalid JSON body: " ++ fault.message
  | .notAnObject => "Request body is not a JSON object"
  | .missingVersion => "Missing version"
  | .missingPayload => "Missing payload"

/-- Why a namespace has no handler. -/
inductive LoadError
  | unknownNamespace (namespaceName : String)
  | unreadableManifest (namespaceName path : String) (fault : FileFault)
  | invalidManifest (namespaceName reason : String)
  | invalidHandler (namespaceName reason : String)
  deriving DecidableEq, Repr

def LoadError.message : LoadError → String
  | .unknownNamespace name => "no module registered for namespace `" ++ name ++ "`"
  | .unreadableManifest name path _ =>
      "module manifest for `" ++ name ++ "` is not readable: " ++ path
  | .invalidManifest name _ => "module manifest for `" ++ name ++ "` is invalid"
  | .invalidHandler name reason =>
      "module `" ++ name ++ "` did not produce a valid handler: " ++ reason

/-- What ends a batch before its last entry. -/
inductive BatchFault
  | tooManyEntries (count limit : Nat)
  | panicked (message : String)
  deriving DecidableEq, Repr

def BatchFault.ofPanic (p : Panic) : BatchFault := .panicked p.message

def BatchFault.message : BatchFault → String
  | .tooManyEntries count limit =>
      "Too many operations: limit is " ++ Ascii.decimal limit ++ ", batch has " ++
        Ascii.decimal count
  | .panicked message => "Dispatch loop panicked: " ++ message

/-- One link in the chain behind a failure. -/
inductive Cause
  | note (text : String)
  | conversion (reason : String)
  | malformed (fault : Json.Fault)
  | rejection (rejection : Rejection)
  | load (error : LoadError)
  | file (fault : FileFault)
  | manifest (reason : String)
  | filter (error : Filter.FilterError)
  | fault (fault : BatchFault)
  deriving DecidableEq, Repr

namespace Cause

def message : Cause → String
  | .note text => text
  | .conversion reason => reason
  | .malformed f => f.message
  | .rejection r => r.message
  | .load e => e.message
  | .file f => f.message
  | .manifest reason => reason
  | .filter e => e.message
  | .fault f => f.message

/-- A rejection, and behind it what its body was. -/
def ofRejection (r : Rejection) : List Cause :=
  match r with
  | .malformed f => [.rejection r, .malformed f]
  | _ => [.rejection r]

/-- What stands behind a load error. -/
def behindLoad : LoadError → List Cause
  | .unreadableManifest _ _ f => [.file f]
  | .invalidManifest _ reason => [.manifest reason]
  | _ => []

def ofLoad (e : LoadError) : List Cause := .load e :: behindLoad e

end Cause
end Multicall
