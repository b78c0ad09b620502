import Multicall.Failure.Basic
import Multicall.Integer64
import Multicall.Json.Parser
import Multicall.Binary64.Reading
/-!
Requests as they arrive, and the envelope inside. A request is checked in a fixed order: its media
type, the security of its connection, its text, its shape, its version and its payload; the first
check that fails decides the rejection.
-/
namespace Multicall

/-- What is known of a request besides its body. -/
structure RequestInfo where
  contentType : Option String
  secure : Bool
  deriving DecidableEq, Repr

namespace RequestInfo

/-- The media type without parameters, in lower case. -/
def mediaType (info : RequestInfo) : Option String :=
  info.contentType.map fun value => Ascii.lower (Blank.trim (Ascii.before ';' value))

def jsonMediaType : String := "application/json"

end RequestInfo

/-- A checked request: its version, which is never zero, and its entries in order. -/
structure Envelope where
  version : Int
  entries : Members

namespace Envelope

/-- A double without its fraction, as the nearest integer that fits. -/
def truncated (x : Binary64) : Int := Integer64.clamp x.trunc

/-- The version that a text spells: an integer, or else a finite double. -/
def versionOfText (s : String) : Option Int :=
  let trimmed := Blank.trim s
  match Integer64.parse? trimmed with
  | some n => some n
  | none =>
      match Extended.parse? trimmed with
      | some (.finite x) => some (truncated x)
      | _ => none

def versionOfNumber : Number → Option Int
  | .int n => if Integer64.fits n then some n else (Binary64.ofInt n).map truncated
  | .double x => some (truncated x)

/-- The version of a body. Zero counts as missing. -/
def version? (body : Members) : Option Int :=
  let found := match body.get? "version" with
    | some (.number n) => versionOfNumber n
    | some (.string s) => versionOfText s
    | _ => none
  found.filter (· ≠ 0)

/-- Why the kind of body or the connection is refused, if it is. -/
def refuse? (info : RequestInfo) : Option Rejection :=
  if info.mediaType ≠ some RequestInfo.jsonMediaType then
    some (.contentType (info.mediaType.getD "<none>"))
  else if !info.secure then some .insecure
  else none

def ofMembers (body : Members) : Except Rejection Envelope :=
  match version? body with
  | none => .error .missingVersion
  | some version =>
      match body.get? "payload" with
      | some (.object entries) => .ok ⟨version, entries⟩
      | _ => .error .missingPayload

def parse (body : Octets) (info : RequestInfo) : Except Rejection Envelope :=
  match refuse? info with
  | some rejection => .error rejection
  | none =>
      match Json.read body with
      | .error fault => .error (.malformed fault)
      | .ok (.object members) => ofMembers members
      | .ok _ => .error .notAnObject

def ids (e : Envelope) : List String := Assoc.keys e.entries

end Envelope
end Multicall
