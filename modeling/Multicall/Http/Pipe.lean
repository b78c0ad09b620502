import Multicall.Http.Body
/-!
A pipe of limited capacity between the run that writes a response and the reader that sends it on.
The writer puts in what fits, the reader takes out at most one buffer at a time. Nothing is lost,
repeated or reordered.
-/
namespace Multicall.Http

/-- What is still to be written, what the pipe holds, and the frames taken so far. -/
structure Pipe where
  pending : Octets
  held : Octets
  taken : List Octets

namespace Pipe

def start (content : Octets) : Pipe := ⟨content, [], []⟩

def put (capacity count : Nat) (p : Pipe) : Pipe :=
  let n := min count (capacity - p.held.length)
  { p with pending := p.pending.drop n, held := p.held ++ p.pending.take n }

/-- Takes one frame; an empty pipe makes the reader wait. -/
def take (size : Nat) (p : Pipe) : Pipe :=
  if p.held.isEmpty then p
  else { p with held := p.held.drop size, taken := p.taken ++ [p.held.take size] }

theorem put_of_fits {capacity count : Nat} {p : Pipe} (fits : p.held.length + count ≤ capacity) :
    p.put capacity count =
      ⟨p.pending.drop count, p.held ++ p.pending.take count, p.taken⟩ := by
  have whole : min count (capacity - p.held.length) = count := by omega
  rw [put, whole]

theorem take_of_found {size : Nat} {p : Pipe} (found : p.held ≠ []) :
    p.take size = ⟨p.pending, p.held.drop size, p.taken ++ [p.held.take size]⟩ := by
  rw [take, if_neg (by simpa using found)]

/-- All octets in their order: those that were taken, those in the pipe, those still to come. -/
def content (p : Pipe) : Octets := p.taken.flatten ++ p.held ++ p.pending

theorem content_put (capacity count : Nat) (p : Pipe) : (p.put capacity count).content = p.content := by
  simp [put, content, List.append_assoc, List.take_append_drop]

theorem content_take (size : Nat) (p : Pipe) : (p.take size).content = p.content := by
  unfold take
  split
  · rfl
  · simp only [content, List.flatten_append, List.flatten_cons, List.flatten_nil, List.append_nil]
    rw [List.append_assoc p.taken.flatten, List.take_append_drop]

end Pipe
end Multicall.Http
