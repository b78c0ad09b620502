import Multicall.Proofs.PartQueue
import Multicall.Proofs.PublicView
/-!
A sequence beside the array of its values. The values of a sequence are its elements that have a JSON
form, up to its end or to the panic of its producer. The one encoder writes them piece by piece as
they come, the other prints the whole array at once; the part is the same octet by octet, and so is
the response around it.
-/
namespace Multicall

open Multicall.Action

/-- The values of a sequence: its elements with a JSON form, before the end or any panic. -/
def Pull.values : List Pull → List Json
  | [] => []
  | pull :: rest =>
      match pull.came with
      | .ok (some (.ok j)) => j :: values rest
      | .ok (some (.error _)) => values rest
      | .ok none | .error _ => []

theorem listed_eq_values (pulls : List Pull) :
    listed pulls = (Pull.values pulls).map Json.withoutPrivate := by
  induction pulls with
  | nil => rfl
  | cons pull rest ih =>
    rw [listed, Pull.values]
    rcases pull.came with p | none | (reason | j)
    case error | ok.none => rfl
    case ok.some.error => exact ih
    case ok.some.ok => rw [List.map_cons, ih]

namespace Writer

/-- All that was written: what has arrived, and what waits in the queue. -/
def contents (w : Writer) : Octets :=
  w.outlet.arrived ++ w.parts.flatMap fun part => part.buffer.toList

variable {b : Boundary} {sheets : List Sheet} {w : Writer}

/-- A writer that has a closed sheet more than another has its octets behind all others. -/
theorem contents_behind {after : Writer} {sheet : Sheet} (keeps : w.Keeps b sheets)
    (more : after.Keeps b (sheets ++ [sheet])) : after.contents = w.contents ++ sheet.octets b := by
  rw [contents, contents, keeps.text, more.text, List.flatMap_append, List.flatMap_singleton]

/-- The end of a response depends on the sheets alone. -/
theorem finish_after (later : List Operation) (floats : w.Floats .counting b sheets) :
    (performAll later >>= fun _ => finish).Ends w fun _ after => after.outlet.arrived =
      (later.foldl Operation.change sheets).flatMap (fun s => s.ended.octets b) ++
        Octets.ofText b.terminator := by
  apply (performAll_ends (fun _ struck => struck) later floats).bind
  intro _ middle reached
  exact finish_ends b _ middle reached.1.counted

end Writer

/-- The sheet of an entry that comes to an array of these values. -/
def Sheet.array (id : String) (values : List Json) : Sheet :=
  .json (Encoder.keyed id (Encoder.successBody (.array (values.map Json.withoutPrivate)))).octets

namespace Session

variable {ω : Type} {b : Boundary} {sheets : List Sheet} {s : Session ω}

/-- Whatever an entry has come to, its part stands behind all others, and no sequence is cut short that
comes to its end. -/
theorem emit_counts (debug : Bool) (patience : Nat) (id : String) {result : EntryResult ω}
    {answer : Answer}
    (told : result.answer patience s.workshop.modules = answer) (finite : answer.isFinite = true)
    (floats : s.desk.writer.Floats .counting b sheets) :
    (emit debug patience id result).Ends s fun written after =>
      written = (answer.emitted, false) ∧ after.desk.writer.Floats .counting b
        (sheets ++ [.json (Encoder.keyed id (answer.body debug)).octets]) := by
  subst told
  obtain ⟨count, -, told, -⟩ := emit_told debug patience id result s
  have written := (Encoder.emitAnswer_goes debug id (result.answer patience s.workshop.modules)
    floats).and_answers (Encoder.emitAnswer_answers debug id _)
  obtain ⟨answer, w, ran, ⟨counted, whole⟩, still⟩ :=
    Goes.ends (written.weaken (fun _ _ ended => ended) fun _ ⟨_, _, struck⟩ => struck.struck)
  exact ⟨answer, _, told.trans (atWriter_done (s := s.leaving _ _) ran),
    Prod.ext counted (whole finite), still⟩

theorem emit_sequence_ends (debug : Bool) (patience : Nat) (id : String) {producer : Producer ω}
    {pulls : List Pull} (told : producer.pulls patience 0 s.workshop.modules = pulls)
    (ends : pulls.any Pull.isLast = true) (floats : s.desk.writer.Floats .counting b sheets) :
    (emit debug patience id (.ok (.sequence producer))).Ends s fun answer after =>
      answer = (.success, false) ∧
        after.desk.writer.Floats .counting b (sheets ++ [.array id (Pull.values pulls)]) := by
  have answer : EntryResult.answer patience s.workshop.modules (.ok (.sequence producer)) =
      .ok (.sequence pulls) := by rw [EntryResult.answer, told]
  have streamed := emit_counts debug patience id answer ends floats
  rwa [Answer.body, listed_eq_values] at streamed

theorem emit_array_ends (debug : Bool) (patience : Nat) (id : String) (values : List Json)
    (floats : s.desk.writer.Floats .counting b sheets) :
    (emit debug patience id (.ok (.json (.array values)))).Ends s fun answer after =>
      answer = (.success, false) ∧
        after.desk.writer.Floats .counting b (sheets ++ [.array id values]) := by
  have answer : EntryResult.answer patience s.workshop.modules (.ok (.json (.array values))) =
      .ok (.value (.ok (.array values))) := rfl
  have printed := emit_counts debug patience id answer rfl floats
  rwa [Answer.body, Json.withoutPrivate_array] at printed

/-- Over a peer that takes everything, behind any operations on the writer and with any size of a
chunk, a sequence that ends or panics is written as the array of its values, whatever its code does
while it is pulled: both are successes, both put the same part behind all that was written before, and
whatever is done to the writer until it is finished, both responses arrive as the same octets. Private
members are left out of both. -/
theorem sequence_is_written_as_its_array {peer : Peer} (takesAll : peer.TakesAll) (b : Boundary)
    (chunkSize : Nat) (before : List Writer.Operation) (debug : Bool) (patience : Nat) (id : String)
    (producer : Producer ω) (s : Session ω) (pulls : List Pull)
    (told : producer.pulls patience 0 s.workshop.modules = pulls)
    (ends : pulls.any Pull.isLast = true) :
    ∃ w streamed plain part,
      Writer.performAll before (.start peer b chunkSize) = .done () w ∧
      emit debug patience id (.ok (.sequence producer)) (s.writing w) =
        .done (.success, false) streamed ∧
      emit debug patience id (.ok (.json (.array (Pull.values pulls)))) (s.writing w) =
        .done (.success, false) plain ∧
      part = Octets.ofText (b.preamble "application/json") ++ (Encoder.keyed id
        (Encoder.successBody (.array ((Pull.values pulls).map Json.withoutPrivate)))).octets ++
        [13, 10] ∧
      streamed.desk.writer.contents = w.contents ++ part ∧
      plain.desk.writer.contents = w.contents ++ part ∧
      ∀ later, ∃ first second,
        (Writer.performAll later >>= fun _ => Writer.finish) streamed.desk.writer = .done () first ∧
        (Writer.performAll later >>= fun _ => Writer.finish) plain.desk.writer = .done () second ∧
        first.outlet.arrived = second.outlet.arrived := by
  obtain ⟨_, w, reached, floats, -⟩ := Writer.performAll_ends (fun _ struck => struck) before
    (Writer.start_floats takesAll b chunkSize)
  obtain ⟨_, streamed, ran, rfl, one⟩ :=
    emit_sequence_ends (s := s.writing w) debug patience id told ends floats
  obtain ⟨_, plain, printed, rfl, other⟩ :=
    emit_array_ends (s := s.writing w) debug patience id (Pull.values pulls) floats
  have whole : (Sheet.array id (Pull.values pulls)).octets b =
      Octets.ofText (b.preamble "application/json") ++ (Encoder.keyed id
        (Encoder.successBody (.array ((Pull.values pulls).map Json.withoutPrivate)))).octets ++
        [13, 10] := rfl
  refine ⟨w, streamed, plain, _, reached, ran, printed, rfl, ?_, ?_, ?_⟩
  · rw [← whole]
    exact Writer.contents_behind floats.counted one.counted
  · rw [← whole]
    exact Writer.contents_behind floats.counted other.counted
  · intro later
    obtain ⟨_, first, finished, arrived⟩ := Writer.finish_after later one
    obtain ⟨_, second, ended, also⟩ := Writer.finish_after later other
    exact ⟨first, second, finished, ended, arrived.trans also.symm⟩

/-- One element cannot be converted, two have values, and then the code panics. It opens a part
meanwhile. -/
def brokenOff (sink : Sink) : Producer StreamId
  | 0 => return some (.error "no form")
  | 1 => do
      let _ ← sink.openText
      return some (.ok (.object [("_key", .int 1), ("x", .null)]))
  | 2 => return some (.ok (.bool true))
  | _ => Activity.panic (.text "stuck")

def brokenOffSession : Session StreamId :=
  .start ⟨.empty, .standard, .empty, fun _ _ => 0, 9⟩ 0 .accepting ⟨"b"⟩

theorem broken_off_sequence_is_its_array :
    Peer.accepting.TakesAll ∧
    ((brokenOff ⟨true⟩).pulls 9 0 brokenOffSession.workshop.modules).any Pull.isLast = true ∧
    ∃ w streamed plain,
      Writer.performAll [.openPart "t", .write 0 [1]] (.start .accepting ⟨"b"⟩ 4) = .done () w ∧
      emit false 9 "a\"b" (.ok (.sequence (brokenOff ⟨true⟩))) (brokenOffSession.writing w) =
        .done (.success, false) streamed ∧
      emit false 9 "a\"b" (.ok (.json (.array
        [.object [("_key", .int 1), ("x", .null)], .bool true]))) (brokenOffSession.writing w) =
          .done (.success, false) plain ∧
      streamed.desk.writer.contents = plain.desk.writer.contents ∧
      streamed.desk.writer.contents =
        w.contents ++ (Octets.ofText (Boundary.preamble ⟨"b"⟩ "application/json") ++
          Octets.ofText
            "\x7b\"a\\\"b\":\x7b\"error\":false,\"result\":[\x7b\"x\":null\x7d,true]\x7d\x7d" ++
          [13, 10]) := by
  have text : (Encoder.keyed "a\"b" (Encoder.successBody (.array
      ([.object [("_key", .int 1), ("x", .null)], .bool true].map Json.withoutPrivate)))).octets =
      Octets.ofText
        "\x7b\"a\\\"b\":\x7b\"error\":false,\"result\":[\x7b\"x\":null\x7d,true]\x7d\x7d" := by
    decide +kernel
  obtain ⟨w, streamed, plain, part, reached, ran, printed, rfl, one, other, -⟩ :=
    sequence_is_written_as_its_array Peer.accepting_takes_all ⟨"b"⟩ 4 [.openPart "t", .write 0 [1]]
      false 9 "a\"b" (brokenOff ⟨true⟩) brokenOffSession _ rfl rfl
  refine ⟨Peer.accepting_takes_all, rfl, w, streamed, plain, reached, ran, printed,
    one.trans other.symm, ?_⟩
  rw [← text]
  exact one

end Session
end Multicall
