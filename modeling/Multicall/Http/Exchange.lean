import Multicall.Batch.Runner
import Multicall.Http.Headers
import Multicall.Http.Stream
/-!
One HTTP exchange. Only the endpoint answers, and only to `POST`; then the batch runs and its
response is the body, under the boundary that the content type declares. The task that runs the batch
writes into a pipe, and the body is read from its other end.
-/
namespace Multicall.Http

structure Server where
  endpoint : String
  assumeSecure : Bool
  maxBodyBytes : Nat

structure Request where
  method : String
  target : String
  headers : Headers
  body : Octets

structure Response where
  status : Nat
  contentType : String
  allow : Option String
  body : Octets

/-- What stands behind the scheme, where a target has one. -/
def behindScheme? : List Char → Option (List Char)
  | [] => none
  | ':' :: '/' :: '/' :: rest => some rest
  | c :: rest =>
      if c.isAlphanum || c == '+' || c == '-' || c == '.' then behindScheme? rest else none

/-- The path of a target, without query and fragment and without what leads to the server. -/
def Request.path (r : Request) : String :=
  let target := Ascii.before '?' (Ascii.before '#' r.target)
  match behindScheme? target.toList with
  | none => target
  | some authority =>
      let path := authority.dropWhile (· != '/')
      if path.isEmpty then "/" else String.ofList path

def plain (status : Nat) (allow : Option String) (text : String) : Response :=
  ⟨status, textMime, allow, Octets.ofText text⟩

/-- A body that has arrived, unless it is longer than allowed. -/
def receive (limit : Nat) (body : Octets) : Except Rejection Octets :=
  if limit < body.length then .error (.tooLarge limit) else .ok body

variable {ω : Type}

/-- The task behind a response: the batch of the request, or its refusal, over the transport that
leads to the client. -/
def task (setting : Setting ω) (world : ω) (server : Server) (boundary : Boundary) (r : Request)
    (peer : Peer) : Outcome (Session ω) Unit :=
  match receive server.maxBodyBytes r.body with
  | .ok body =>
      Batch.run setting world body (r.headers.requestInfo server.assumeSecure) peer boundary
  | .error rejection => Batch.reject setting world rejection peer boundary

/-- What the batch writes into memory for a request. -/
def batchOutcome (setting : Setting ω) (world : ω) (server : Server) (boundary : Boundary)
    (r : Request) : Outcome (Session ω) Unit :=
  task setting world server boundary r .accepting

def batchOctets (outcome : Outcome (Session ω) Unit) : Octets :=
  outcome.state.desk.writer.outlet.transport.accepted.toList

/-- The answer to a request. -/
def respond (setting : Setting ω) (world : ω) (server : Server) (boundary : Boundary) (r : Request) :
    Response :=
  if r.path ≠ server.endpoint then plain 404 none "Not Found"
  else if r.method ≠ "POST" then plain 405 (some "POST") "Method Not Allowed"
  else if !(Octets.ofText boundary.contentType).all isReadable then
    plain 500 none "Internal Server Error"
  else
    ⟨200, boundary.contentType, none,
      batchOctets (batchOutcome setting world server boundary r)⟩

/-- A response before the first octet of it is read: all calls of the task are still to be made. The
run over a peer tells which calls these are and what they bring. -/
def stream (setting : Setting ω) (world : ω) (server : Server) (boundary : Boundary) (r : Request)
    (peer : Peer) : Stream :=
  .start (task setting world server boundary r peer).state.desk.writer.outlet.transport

/-- The body as it goes over the connection: an answer to `HEAD` has none. -/
def Response.sentBody (r : Response) (method : String) : Octets :=
  if method = "HEAD" then [] else r.body

end Multicall.Http
