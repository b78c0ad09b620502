import Multicall.Proofs.BoundaryTokens
import Multicall.Proofs.PipedRuns
/-!
A response read through its pipe. Whatever order the task and the reader move in, what was read, what
the pipe holds and what is still to be written make up the body; as long as the body is not over, one of
the two can move; and they cannot move for ever. So the body that the client reads is the one that a run
into memory leaves there.
-/
namespace Multicall

namespace Http

open TransportCall

theorem room_pos (chunkSize : Nat) : 0 < room chunkSize := by
  rw [room]
  omega

/-- What fits into the buffer is one frame. -/
theorem frames_of_reads {chunkSize : Nat} {reads : List Octets}
    (each : ∀ found ∈ reads, found ≠ [] ∧ found.length ≤ room chunkSize) :
    frames chunkSize (reads.map .octets) = reads.map .data := by
  induction reads with
  | nil => rfl
  | cons found rest ih =>
    obtain ⟨some, fits⟩ := each found List.mem_cons_self
    cases found with
    | nil => exact absurd rfl some
    | cons first tail =>
      rw [List.length_cons] at fits
      have short : tail.length ≤ room chunkSize - 1 := by omega
      rw [List.map_cons, List.map_cons, frames, cut, List.take_of_length_le short,
        List.drop_of_length_le short, cut, ih fun other member => each other (.tail _ member)]
      · rfl
      · exact List.cons_ne_nil _ _

namespace Stream

variable {room : Nat} {body : Octets} {s t : Stream}

/-- What there is to know of a stream at any time. -/
structure Flows (room : Nat) (body : Octets) (s : Stream) : Prop where
  content : s.pipe.content = body
  brings : Brings room s.calls s.pipe.pending.length
  frames : ∀ frame ∈ s.pipe.taken, frame ≠ [] ∧ frame.length ≤ room
  closed : s.closed = true → s.calls = []
  ended : s.ended = true → s.closed = true ∧ s.pipe.held = []

theorem Step.flows (positive : 0 < room) (step : Step room s t) (flows : s.Flows room body) :
    t.Flows room body := by
  obtain ⟨content, brings, frames, closed, ended⟩ := flows
  cases step with
  | write fits =>
    -- the octets put into the pipe are the ones that the calls no longer have to bring
    obtain ⟨-, rest, total, brings⟩ := brings.after_wrote
    refine ⟨(Pipe.content_put ..).trans content, ?_, frames, nofun, fun past => ?_⟩
    · rw [Pipe.put_of_fits fits, List.length_drop, total, Nat.add_sub_cancel_left]
      exact brings
    · exact nomatch (ended past).1
  | flush =>
    refine ⟨content, brings.after_flushed, frames, fun shut => ?_, fun past => ?_⟩
    · exact nomatch closed shut
    · exact nomatch closed (ended past).1
  | shutdown =>
    obtain ⟨none, total⟩ := brings.after_shut
    refine ⟨content, ?_, frames, fun _ => none, fun past => ⟨rfl, (ended past).2⟩⟩
    simp only [none, total]
    exact .none
  | leave => exact ⟨content, brings, frames, fun _ => rfl, fun past => ⟨rfl, (ended past).2⟩⟩
  | read found =>
    refine ⟨(Pipe.content_take ..).trans content, ?_, ?_, closed, nofun⟩
    · rw [Pipe.take_of_found found]
      exact brings
    · rw [Pipe.take_of_found found]
      intro frame member
      rcases List.mem_append.mp member with earlier | last
      · exact frames frame earlier
      · cases List.mem_singleton.mp last
        exact ⟨by simp [found, positive.ne'], List.length_take_le ..⟩
  | finish empty => exact ⟨content, brings, frames, closed, fun _ => ⟨rfl, empty⟩⟩

theorem Run.flows {n : Nat} (positive : 0 < room) (run : Run room s n t)
    (flows : s.Flows room body) : t.Flows room body := by
  induction run with
  | none => exact flows
  | more before step ih => exact step.flows positive ih

/-- A stream that is over has delivered the body; any other can go on. -/
theorem Flows.goes (flows : s.Flows room body) :
    (∃ t, Step room s t) ∨ s.ended = true ∧ s.pipe.taken.flatten = body := by
  obtain ⟨content, brings, -, closed, ended⟩ := flows
  obtain ⟨calls, pipe, shut, past⟩ := s
  by_cases found : pipe.held = []
  · cases calls with
    | cons call rest =>
      -- the pipe is empty, so whatever the task asks of it can be done
      have going : shut = false := by
        cases shut with
        | false => rfl
        | true => exact nomatch closed rfl
      subst going
      cases call with
      | wrote count =>
        have fits : pipe.held.length + count ≤ room := by
          rw [found, List.length_nil, Nat.zero_add]
          exact brings.after_wrote.1
        exact .inl ⟨_, .write fits⟩
      | flushed => exact .inl ⟨_, .flush⟩
      | shut => exact .inl ⟨_, .shutdown⟩
      | writeFailed | flushFailed | shutFailed => nomatch brings
    | nil =>
      cases shut with
      | false => exact .inl ⟨_, .leave⟩
      | true =>
        cases past with
        | false => exact .inl ⟨_, .finish found⟩
        | true =>
          have none : pipe.pending = [] := List.eq_nil_of_length_eq_zero brings.at_end
          refine .inr ⟨rfl, ?_⟩
          simpa [Pipe.content, found, none] using content
  · -- the body cannot be over while the pipe holds something
    have going : past = false := by
      cases past with
      | false => rfl
      | true => exact absurd (ended rfl).2 found
    subst going
    exact .inl ⟨_, .read found⟩

/-- Steps that are still possible: each octet is written and read. -/
def left (s : Stream) : Nat :=
  s.calls.length + 2 * s.pipe.pending.length + s.pipe.held.length +
    (!s.closed).toNat + (!s.ended).toNat

theorem Step.left_lt (positive : 0 < room) (step : Step room s t) : t.left < s.left := by
  cases step with
  | write fits =>
    simp only [left, Pipe.put_of_fits fits, List.length_cons, List.length_append,
      List.length_drop, List.length_take]
    omega
  | flush =>
    simp only [left, List.length_cons]
    omega
  | shutdown =>
    simp only [left, List.length_cons, Bool.not_true, Bool.toNat_false]
    omega
  | leave => simp [left]
  | read found =>
    have some := List.length_pos_iff.mpr found
    simp only [left, Pipe.take_of_found found, List.length_drop]
    omega
  | finish empty => simp [left]

theorem Run.left_le {n : Nat} (positive : 0 < room) (run : Run room s n t) :
    n + t.left ≤ s.left := by
  induction run with
  | none => omega
  | more before step ih =>
    have less := step.left_lt positive
    omega

/-- In whatever order the two sides move, every read makes one frame, which is not empty and fits into
the buffer, and what the frames hold is a front piece of the body. One side or the other can move until
the body is over, and then the frames hold all of it. This comes about in so many steps at most. -/
structure Yields (chunkSize : Nat) (body : Octets) (start : Stream) : Prop where
  framed : ∀ n s, Run (Http.room chunkSize) start n s →
    s.frames chunkSize = s.pipe.taken.map .data ∧
      ∀ frame ∈ s.pipe.taken, frame ≠ [] ∧ frame.length ≤ Http.room chunkSize
  front : ∀ n s, Run (Http.room chunkSize) start n s → s.pipe.taken.flatten <+: body
  goes : ∀ n s, Run (Http.room chunkSize) start n s →
    (∃ t, Step (Http.room chunkSize) s t) ∨ s.ended = true ∧ s.pipe.taken.flatten = body
  steps : ∀ n s, Run (Http.room chunkSize) start n s →
    n ≤ start.calls.length + 2 * body.length + 2

theorem start_yields {chunkSize : Nat} {t : Transport}
    (brings : Brings (Http.room chunkSize) t.called t.accepted.toList.length) :
    (start t).Yields chunkSize t.accepted.toList := by
  have positive := room_pos chunkSize
  have begun : (start t).Flows (Http.room chunkSize) t.accepted.toList :=
    ⟨rfl, brings, nofun, nofun, nofun⟩
  constructor
  · intro n s run
    have flows := run.flows positive begun
    exact ⟨frames_of_reads flows.frames, flows.frames⟩
  · intro n s run
    rw [← (run.flows positive begun).content, Pipe.content, List.append_assoc]
    exact List.prefix_append _ _
  · exact fun n s run => (run.flows positive begun).goes
  · intro n s run
    have bound := run.left_le positive
    rw [show (start t).left = t.called.length + 2 * t.accepted.toList.length + 0 + 1 + 1 from rfl]
      at bound
    rw [show (start t).calls = t.called from rfl]
    omega

end Stream

variable {ω : Type}

/-- For every `POST` to the endpoint, whatever its headers and its body, and every random boundary: the
response has status 200 and declares the boundary under which the batch runs; the body is what the
batch, or the refusal of a body that is too long, leaves in memory. That returns unless a close hook
of the batch panics, and the terminator is the end of it. The same task over any pipe, read by the client
in any order of the moves of both sides, yields this very body. -/
theorem exchange_carries_the_batch (setting : Setting ω) (world : ω) (server : Server)
    (seed : Octets) (r : Request) (endpoint : r.path = server.endpoint) (post : r.method = "POST") :
    ∃ memory : Outcome (Session ω) Unit,
      memory = (if r.body.length ≤ server.maxBodyBytes then
        Batch.run setting world r.body (r.headers.requestInfo server.assumeSecure) .accepting
          (.ofSeed seed)
        else Batch.reject setting world (.tooLarge server.maxBodyBytes) .accepting (.ofSeed seed)) ∧
      respond setting world server (.ofSeed seed) r =
        ⟨200, "multipart/mixed; boundary=" ++ (Boundary.ofSeed seed).token, none,
          memory.state.delivered⟩ ∧
      (Batch.Completes (.ofSeed seed) memory ∨
        r.body.length ≤ server.maxBodyBytes ∧ ∃ p, (Batch.account setting world r.body
          (r.headers.requestInfo server.assumeSecure)).closing.outcome = .error p) ∧
      ((∀ report ∈ (Batch.account setting world r.body
          (r.headers.requestInfo server.assumeSecure)).reports, report.result.isFinite = true) →
        memory.state.exhausted = false) ∧
      ∀ peer : Peer, peer.IsPipe (room setting.settings.chunkSize) →
        (stream setting world server (.ofSeed seed) r peer).Yields setting.settings.chunkSize
          memory.state.delivered := by
  have evenly (peer : Peer) (pipe : peer.IsPipe (room setting.settings.chunkSize)) :=
    task_even setting world server (.ofSeed seed) r pipe.takes_all Peer.accepting_takes_all
  refine ⟨task setting world server (.ofSeed seed) r .accepting, ?_, ?_, ?_, ?_, ?_⟩
  · rw [task, receive]
    by_cases long : server.maxBodyBytes < r.body.length
    · rw [if_pos long, if_neg (Nat.not_le.mpr long)]
    · rw [if_neg long, if_pos (Nat.not_lt.mp long)]
  · have readable : ¬ (!(Octets.ofText (Boundary.ofSeed seed).contentType).all isReadable) = true := by
      rw [Boundary.contentType_readable]
      exact Bool.false_ne_true
    rw [respond, if_neg (not_not_intro endpoint), if_neg (not_not_intro post), if_neg readable]
    rfl
  · -- any pipe will do to see how the body ends
    have pipe := Peer.duplex_isPipe (room_pos setting.settings.chunkSize) fun _ => 0
    rcases (task_sends setting world server (.ofSeed seed) r pipe).completes with
      ⟨piped, returned, front, arrived⟩ | struck
    · have even := evenly _ pipe
      rw [returned] at even
      generalize task setting world server (.ofSeed seed) r .accepting = memory at even
      cases even with
      | @done _ _ _ after _ same => exact .inl ⟨after, rfl, front, same ▸ arrived⟩
    · exact .inr struck
  · exact task_exhausted setting world server (.ofSeed seed) r Peer.accepting_takes_all
  · intro peer pipe
    have same := (evenly peer pipe).state
    rw [← same]
    exact Stream.start_yields (task_sends setting world server (.ofSeed seed) r pipe).brings

def noteServer : Server := ⟨"/batch", true, 1000⟩

def noteSeed : Octets := [0, 0, 0, 255, 255, 255, 1, 2, 3]

def notePost : Request where
  method := "POST"
  target := "/batch?quick"
  headers := [⟨"Content-Type", Octets.ofText "application/json"⟩]
  body := Batch.noteRequest

/-- A pipe with room for three octets, from which two more have been read by each write. -/
theorem exchange_of_note_request :
    notePost.path = noteServer.endpoint ∧ notePost.method = "POST" ∧
    (Peer.duplex 3 fun call => 2 * call).IsPipe 3 ∧
    ∃ after, Batch.run Batch.noteSetting 0 Batch.noteRequest ⟨some "application/json", true⟩
        .accepting (.ofSeed noteSeed) = .done () after ∧
      respond Batch.noteSetting 0 noteServer (.ofSeed noteSeed) notePost =
        ⟨200, "multipart/mixed; boundary=BATCH-AAAA____AQID", none, after.delivered⟩ ∧
      (∃ front, after.delivered = front ++ Octets.ofText "--BATCH-AAAA____AQID--\r\n") ∧
      (stream Batch.noteSetting 0 noteServer (.ofSeed noteSeed) notePost
        (.duplex 3 fun call => 2 * call)).Yields 3 after.delivered := by
  have endpoint : notePost.path = noteServer.endpoint := by decide +kernel
  have pipe : (Peer.duplex 3 fun call => 2 * call).IsPipe 3 := Peer.duplex_isPipe (by decide) _
  obtain ⟨memory, ran, responded, ends, -, yields⟩ :=
    exchange_carries_the_batch Batch.noteSetting 0 noteServer noteSeed notePost endpoint rfl
  obtain ⟨after, came, -⟩ := Batch.run_comes Batch.noteSetting 0 Batch.noteRequest
    ⟨some "application/json", true⟩ .accepting (.ofSeed noteSeed) Peer.accepting_takes_all
  rw [Batch.noteAccount_quiet] at came
  have short : notePost.body.length ≤ noteServer.maxBodyBytes := by decide +kernel
  have info : notePost.headers.requestInfo noteServer.assumeSecure =
      ⟨some "application/json", true⟩ := by decide +kernel
  rw [if_pos short, info] at ran
  obtain rfl : memory = .done () after := ran.trans came
  refine ⟨endpoint, rfl, pipe, after, came, responded, ?_, yields _ pipe⟩
  rcases ends with ⟨_, ⟨⟩, ended⟩ | ⟨-, p, struck⟩
  · exact ended
  · rw [info, notePost, Batch.noteAccount_quiet] at struck
    cases struck

end Http
end Multicall
