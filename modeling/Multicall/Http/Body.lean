import Multicall.Text.Utf8
/-!
Bodies as frames. A body is read piece by piece into a buffer of fixed room; each read that gives
octets is one frame, a read that gives none ends the body, and so does the first error.
-/
namespace Multicall.Http

/-- What a source has to give, in order. -/
inductive Piece
  | octets (content : Octets)
  | error (reason : String)

inductive Frame
  | data (content : Octets)
  | error (reason : String)
  deriving DecidableEq, Repr

/-- The room of the buffer; it is never empty. -/
def room (chunkSize : Nat) : Nat := max 1 chunkSize

/-- Cuts octets into pieces of at most `size` octets. -/
def cut (size : Nat) : Octets → List Octets
  | [] => []
  | first :: rest => (first :: rest.take (size - 1)) :: cut size (rest.drop (size - 1))
termination_by bytes => bytes.length
decreasing_by simp only [List.length_drop, List.length_cons]; omega

def frames (chunkSize : Nat) : List Piece → List Frame
  | [] => []
  | .error reason :: _ => [.error reason]
  | .octets [] :: _ => []
  | .octets content :: rest => (cut (room chunkSize) content).map .data ++ frames chunkSize rest

end Multicall.Http
