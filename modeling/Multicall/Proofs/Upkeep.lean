import Multicall.Proofs.EntryLimit
/-!
What is kept up through a run. An invariant of writers may speak of what has been told so far: the
events that the code of entries and the encoder record, in their order. If it survives the few things
that writing comes down to, namely opening and changing parts, pumping and recording, then it holds of
all that a run has told when the response is about to be finished. What is told does not depend on the
invariant: a story of the run says it, entry by entry.
-/
namespace Multicall

open Multicall.Action

variable {ω α β : Type}

/-- What writer and relay note of themselves when a command finds nothing to go to. -/
def Event.isNote : Event → Bool
  | .writeToUnopenedPart | .closeOfUnopenedPart => true
  | .writeToUnopenedStream | .closeOfUnopenedStream => true
  | _ => false

/-- An invariant that the writing of parts keeps up; the list is what has been told. A part may grow as
long as it is open, and what ends a part is never nothing. -/
structure Upkeep (holds : List Event → Writer → Prop) : Prop where
  tell : ∀ e told w, holds told w → holds (told ++ [e]) (w.logging e)
  note : ∀ e told w, e.isNote = true → holds told w → holds told (w.logging e)
  opened : ∀ told w (part : Part), part.closed = false → holds told w →
    holds told { w with parts := w.parts ++ [part], nextHandle := w.nextHandle + 1 }
  changed : ∀ told w handle bytes close, (close = true → bytes ≠ []) → holds told w →
    holds told { w with parts := (Writer.append handle bytes close w.parts).1 }
  pump : ∀ told, Writer.pump.Maintains (holds told)

namespace Upkeep

variable {holds : List Event → Writer → Prop} {told : List Event}

theorem and {other : List Event → Writer → Prop} (first : Upkeep holds) (second : Upkeep other) :
    Upkeep fun told w => holds told w ∧ other told w where
  tell e told w held := ⟨first.tell e told w held.1, second.tell e told w held.2⟩
  note e told w note held := ⟨first.note e told w note held.1, second.note e told w note held.2⟩
  opened told w part still held :=
    ⟨first.opened told w part still held.1, second.opened told w part still held.2⟩
  changed told w handle bytes close some held :=
    ⟨first.changed told w handle bytes close some held.1,
      second.changed told w handle bytes close some held.2⟩
  pump told := (first.pump told).and (second.pump told)

section Parts

variable (upkeep : Upkeep holds)
include upkeep

theorem note_maintains {e : Event} (note : e.isNote = true) :
    (Writer.record e).Maintains (holds told) :=
  fun w held => ⟨(), w.logging e, rfl, upkeep.note e told w note held⟩

theorem openPart (mime : String) : (Writer.openPart mime).Maintains (holds told) := by
  intro w held
  refine ends_get_bind _ _ _ (ends_modify_bind _ _ _ _ ?_)
  refine (upkeep.pump told _ (upkeep.opened told w _ rfl held)).bind ?_
  exact fun _ after still => ends_pure _ _ _ still

theorem onPart (handle : Nat) {bytes : Octets} {close : Bool} {otherwise : Event}
    (more : close = true → bytes ≠ []) (note : otherwise.isNote = true) :
    (Writer.onPart handle bytes close otherwise).Maintains (holds told) := by
  intro w held
  rw [Writer.onPart_eq]
  refine ends_get_bind _ _ _ (ends_modify_bind _ _ _ _ ?_)
  have changed := upkeep.changed told w handle bytes close more held
  split
  · exact upkeep.pump told _ changed
  · exact upkeep.note_maintains note _ changed

theorem write (handle : Nat) (bytes : Octets) :
    (Writer.write handle bytes).Maintains (holds told) := upkeep.onPart handle nofun rfl

theorem closePart (handle : Nat) : (Writer.closePart handle).Maintains (holds told) :=
  upkeep.onPart handle (fun _ => nofun) rfl

theorem writePart (bytes : Octets) : (Encoder.writePart bytes).Maintains (holds told) :=
  (upkeep.openPart _).bind fun handle => (upkeep.write handle bytes).bind fun _ =>
    upkeep.closePart handle

end Parts

end Upkeep

/-! What the encoder tells. -/

namespace Encoder

/-- What is told of the pulls of a sequence from some place on. `alive` says whether the transport is
still there when so many more of them have been written; the next is made only if it is. -/
def tellings (id : String) : List Pull → (index : Nat) → (alive : Nat → Bool) → List Event
  | [], _, alive => if alive 0 then [] else [.sequenceAbandoned id]
  | pull :: rest, index, alive =>
      if alive 0 then
        pull.events ++ match pull.came with
          | .error p => [.sequencePanicked id index p]
          | .ok none => []
          | .ok (some (.error reason)) =>
              .elementSkipped id index reason :: tellings id rest (index + 1) fun n => alive (n + 1)
          | .ok (some (.ok _)) => tellings id rest (index + 1) fun n => alive (n + 1)
      else [.sequenceAbandoned id]

/-- Whether the transport at a writer is still there when some of the pulls have been written. -/
def aliveAfter (id : String) (handle index written : Nat) (pulls : List Pull) (w : Writer)
    (count : Nat) : Bool :=
  !(emitPulls id handle index written (pulls.take count) w).state.outlet.broken

/-- Whether the transport is still there when a sequence has been begun at a writer and so many of its
pulls have been written. -/
def aliveIn (id : String) (pulls : List Pull) (w : Writer) (count : Nat) : Bool :=
  !((do emitPulls id (← openSequence id) 0 0 (pulls.take count)) w).state.outlet.broken

/-- What is told when an answer is written at a writer. -/
def told (id : String) (w : Writer) : Answer → List Event
  | .ok (.value (.ok _)) => []
  | .ok (.value (.error reason)) => Event.ofFailure (some id) (.ofConversion reason)
  | .ok (.sequence pulls) => tellings id pulls 0 (aliveIn id pulls w)
  | .error f => Event.ofFailure (some id) f

theorem aliveAfter_zero (id : String) (handle index written : Nat) (pulls : List Pull)
    (w : Writer) : aliveAfter id handle index written pulls w 0 = !w.outlet.broken := by
  rw [aliveAfter, List.take_zero]
  cases gone : w.outlet.broken with
  | true => rw [emitPulls_of_gone gone, Outcome.state, Writer.logging, gone]
  | false => rw [emitPulls_nil gone, Outcome.state, gone]

/-- Behind an element that is written the transport is alive as it will be. -/
theorem aliveAfter_succ {id : String} {handle index written next : Nat} {pull : Pull}
    {element : Except String Json} {w after : Writer} (whole : w.outlet.broken = false)
    (came : pull.came = .ok (some element))
    (ran : emitElement id handle index written element (w.hearing pull.events) = .done next after)
    (rest : List Pull) :
    (fun n => aliveAfter id handle index written (pull :: rest) w (n + 1)) =
      aliveAfter id handle (index + 1) next rest after := by
  funext n
  rw [aliveAfter, aliveAfter, List.take_succ_cons, emitPulls_cons whole, came]
  dsimp only
  rw [bind_apply, ran]

end Encoder

namespace Upkeep

variable {holds : List Event → Writer → Prop} {told : List Event} {w : Writer}

section Results

variable (upkeep : Upkeep holds)
include upkeep

theorem hearing (events : List Event) (held : holds told w) :
    holds (told ++ events) (w.hearing events) := by
  induction events generalizing told w with
  | nil => rwa [List.append_nil]
  | cons e rest ih =>
    rw [List.append_cons]
    exact ih (upkeep.tell e told w held)

theorem recordAll_ends (events : List Event) (held : holds told w) :
    (Encoder.recordAll events).Ends w fun _ after => holds (told ++ events) after :=
  ⟨(), _, Writer.recordAll_apply events w, upkeep.hearing events held⟩

theorem emitFault_ends (debug : Bool) (f : Failure) (held : holds told w) :
    (Encoder.emitFault debug f).Ends w fun _ after =>
      holds (told ++ Event.ofFailure none f) after :=
  (upkeep.recordAll_ends _ held).bind fun _ after still => upkeep.writePart _ after still

theorem emitFailure_ends (debug : Bool) (id : String) (f : Failure) (held : holds told w) :
    (Encoder.emitFailure debug id f).Ends w fun _ after =>
      holds (told ++ Event.ofFailure (some id) f) after :=
  (upkeep.recordAll_ends _ held).bind fun _ logged still =>
    (upkeep.writePart _ logged still).bind fun _ _ held => ends_pure _ _ _ held

/-- An element that is written is not spoken of. -/
theorem emitElement_value (id : String) (handle index written : Nat) (j : Json)
    (held : holds told w) :
    (Encoder.emitElement id handle index written (.ok j)).Ends w fun _ after =>
      holds told after := by
  rw [Encoder.emitElement]
  split
  · exact (upkeep.write _ _ w held).bind fun _ comma still =>
      (upkeep.write _ _ comma still).bind fun _ _ held => ends_pure _ _ _ held
  · exact (upkeep.write _ _ w held).bind fun _ _ held => ends_pure _ _ _ held

theorem emitPulls_ends (id : String) (handle index written : Nat) (pulls : List Pull)
    (held : holds told w) :
    (Encoder.emitPulls id handle index written pulls).Ends w fun _ after =>
      holds (told ++ Encoder.tellings id pulls index
        (Encoder.aliveAfter id handle index written pulls w)) after := by
  induction pulls generalizing told index written w with
  | nil =>
    rw [Encoder.tellings, Encoder.aliveAfter_zero]
    cases gone : w.outlet.broken with
    | true => exact ⟨_, _, Encoder.emitPulls_of_gone gone .., upkeep.tell _ _ _ held⟩
    | false => exact ⟨_, w, Encoder.emitPulls_nil gone .., by simpa using held⟩
  | cons pull rest ih =>
    rw [Encoder.tellings.eq_def]
    dsimp only
    rw [Encoder.aliveAfter_zero]
    cases gone : w.outlet.broken with
    | true => exact ⟨_, _, Encoder.emitPulls_of_gone gone .., upkeep.tell _ _ _ held⟩
    | false =>
      simp only [Bool.not_false, ↓reduceIte]
      rw [Action.Ends, Encoder.emitPulls_cons gone, ← List.append_assoc]
      have heard := upkeep.hearing pull.events held
      -- what follows an element is told from the writer that it leaves
      have going {element : Except String Json} {next : Nat} {after : Writer} {sofar : List Event}
          (came : pull.came = .ok (some element))
          (ran : Encoder.emitElement id handle index written element (w.hearing pull.events) =
            .done next after) (still : holds sofar after) :
          (Encoder.emitElement id handle index written element >>= fun written =>
              Encoder.emitPulls id handle (index + 1) written rest).Ends (w.hearing pull.events)
            fun _ last => holds (sofar ++ Encoder.tellings id rest (index + 1) fun n =>
              Encoder.aliveAfter id handle index written (pull :: rest) w (n + 1)) last := by
        rw [Encoder.aliveAfter_succ gone came ran, Action.Ends, bind_apply, ran]
        exact ih (index + 1) next still
      match came : pull.came with
      | .error p => exact ⟨_, _, rfl, upkeep.tell _ _ _ heard⟩
      | .ok none => exact ⟨_, _, rfl, by rwa [List.append_nil]⟩
      | .ok (some (.error reason)) =>
        dsimp only
        rw [List.append_cons]
        exact going came rfl (upkeep.tell _ _ _ heard)
      | .ok (some (.ok j)) =>
        obtain ⟨_, after, ran, still⟩ :=
          upkeep.emitElement_value id handle index written j heard
        exact going came ran still

theorem openSequence_maintains (id : String) :
    (Encoder.openSequence id).Maintains (holds told) :=
  (upkeep.openPart _).bind fun handle => (upkeep.write handle _).bind fun _ =>
    maintains_pure handle

theorem closeSequence (handle : Nat) : (Encoder.closeSequence handle).Maintains (holds told) :=
  (upkeep.write handle _).bind fun _ => upkeep.closePart handle

theorem emitAnswer_ends (debug : Bool) (id : String) (answer : Answer) (held : holds told w) :
    (Encoder.emitAnswer debug id answer).Ends w fun result after =>
      result.1 = answer.emitted ∧ holds (told ++ Encoder.told id w answer) after := by
  have written : (Encoder.emitAnswer debug id answer).Ends w fun _ after =>
      holds (told ++ Encoder.told id w answer) after := by
    match answer with
    | .ok (.value (.ok j)) =>
      have emitted : (Encoder.emitValue debug id (.ok j)).Ends w fun _ after => holds told after :=
        (upkeep.writePart _ w held).bind fun _ _ held => ends_pure _ _ _ held
      rw [Encoder.told, List.append_nil]
      exact emitted.bind fun _ _ held => ends_pure _ _ _ held
    | .ok (.value (.error reason)) | .error _ =>
      exact (upkeep.emitFailure_ends debug id _ held).bind fun _ _ held => ends_pure _ _ _ held
    | .ok (.sequence pulls) =>
      obtain ⟨handle, begun, ran, still⟩ := upkeep.openSequence_maintains id w held
      have alive : Encoder.aliveIn id pulls w =
          Encoder.aliveAfter id handle 0 0 pulls begun := by
        funext count
        rw [Encoder.aliveIn, Encoder.aliveAfter, bind_apply, ran]
      rw [Action.Ends, Encoder.emitAnswer, bind_apply, ran, Encoder.told, alive]
      refine (upkeep.emitPulls_ends id handle 0 0 pulls still).bind fun cut after held => ?_
      exact (upkeep.closeSequence handle after held).bind fun _ _ held => ends_pure _ _ _ held
  exact (written.and_answers (Encoder.emitAnswer_answers debug id answer)).weaken
    fun _ _ both => ⟨both.1.1, both.2⟩

/-! Desks. -/

omit upkeep in
theorem onWriter {m : Action Writer α} (maintains : m.Maintains (holds told)) :
    (Action.within Desk.onWriter m).Maintains fun d => holds told d.writer :=
  maintains.within (fun _ held => held) fun _ _ still => still

theorem apply (c : PartCommand) : (Desk.apply c).Maintains fun d => holds told d.writer := by
  have setRelay (r : Relay) : (Desk.setRelay r).Maintains fun d => holds told d.writer :=
    maintains_modify fun _ held => held
  refine maintains_get_bind fun d => ?_
  cases c with
  | openPart stream mime =>
    exact (onWriter (upkeep.openPart mime)).bind fun handle => setRelay _
  | write stream bytes =>
    dsimp only
    split
    · exact onWriter (upkeep.write _ bytes)
    · exact onWriter (upkeep.note_maintains rfl)
  | close stream =>
    dsimp only
    split
    · exact (setRelay _).bind fun _ => onWriter (upkeep.closePart _)
    · exact onWriter (upkeep.note_maintains rfl)

theorem step : Desk.step.Maintains fun d => holds told d.writer := by
  refine maintains_get_bind fun d => ?_
  dsimp only
  split
  · exact maintains_pure none
  · exact Maintains.bind (maintains_modify fun _ held => held) fun _ =>
      (upkeep.apply _).bind fun _ => maintains_pure _

theorem drain : Desk.drain.Maintains fun d => holds told d.writer := by
  have each (commands : List PartCommand) :
      (Desk.drainList commands).Maintains fun d => holds told d.writer := by
    induction commands with
    | nil => exact maintains_pure ()
    | cons c rest ih =>
      exact Maintains.bind (maintains_modify fun _ held => held) fun _ =>
        (upkeep.apply c).bind fun _ => ih
  exact maintains_get_bind fun d => each d.relay.queue

end Results

end Upkeep

/-! Whole runs. -/

namespace Session

/-- A turn that was taken: what its entry came to, what the entry's code recorded, and the writer that
the result is handed to. -/
structure Turn where
  report : Report
  own : List Event
  writer : Writer

/-- What is told in a turn. -/
def Turn.told (t : Turn) : List Event :=
  t.own ++ Encoder.told t.report.id t.writer t.report.result

/-- The turns of entries one after the other, from a session on. -/
def turns (setting : Setting ω) : Members → Session ω → List Turn
  | [], _ => []
  | (id, body) :: rest, s =>
      let course := Batch.courseOf setting id body s.workshop
      ⟨Batch.reportOf setting.patience id course, course.events,
        (runAlongside (Batch.courseOf setting id body) s).state.desk.writer⟩ ::
          turns setting rest (takeTurn setting id body s).state

/-- What is told of a fault that ends the batch. -/
def faultStory : BatchFault → List Event
  | .tooManyEntries count limit =>
      .tooManyEntries limit count :: Event.ofFailure none (.ofFault (.tooManyEntries count limit))
  | .panicked message => Event.ofFailure none (.ofFault (.panicked message))

variable {holds : List Event → Writer → Prop} {told : List Event} {s : Session ω}

section Turns

variable (upkeep : Upkeep holds)
include upkeep

theorem follow_upkeep (c : Course (Workshop ω) α) (held : holds told s.desk.writer) :
    (follow c).Comes s c.outcome fun after => holds (told ++ c.events) after.desk.writer ∧
      after.workshop = c.finalState ∧ after.summary = s.summary := by
  induction c generalizing s told with
  | ended outcome w =>
    rw [Course.events, List.append_nil]
    cases outcome with
    | ok a => exact ⟨{ s with workshop := w }, rfl, held, rfl, rfl⟩
    | error p => exact ⟨{ s with workshop := w }, rfl, held, rfl, rfl⟩
  | send c next ih => exact ih held
  | record e next ih =>
    rw [Course.events, List.append_cons]
    exact ih (upkeep.tell e told _ held)
  | suspend w next ih =>
    have moved : (setWorkshop w).Ends s fun _ after => after = { s with workshop := w } :=
      ends_modify _ _ _ rfl
    apply moved.then_comes
    rintro _ _ rfl
    apply (atDesk_ends Desk.step { s with workshop := w } _ (upkeep.step _ held)).then_comes
    rintro _ _ ⟨d, still, rfl⟩
    exact ih still

theorem drain_upkeep (held : holds told s.desk.writer) :
    (atDesk Desk.drain : Action (Session ω) Unit).Ends s fun _ after =>
      holds told after.desk.writer ∧ after.workshop = s.workshop ∧ after.summary = s.summary := by
  apply (atDesk_ends Desk.drain s _ (upkeep.drain _ held)).weaken
  rintro _ _ ⟨d, still, rfl⟩
  exact ⟨still, rfl, rfl⟩

theorem runAlongside_upkeep (code : BatchCode ω α) {a : α}
    (ended : (code s.workshop).outcome = .ok a) (held : holds told s.desk.writer) :
    (runAlongside code).Ends s fun answer after => answer = a ∧
      holds (told ++ (code s.workshop).events) after.desk.writer ∧
      after.workshop = (code s.workshop).finalState ∧ after.summary = s.summary := by
  have followed := follow_upkeep upkeep (code s.workshop) held
  rw [ended] at followed
  refine ends_get_bind _ _ _ (followed.ends.bind ?_)
  rintro _ middle ⟨rfl, held, reached, counted⟩
  apply (drain_upkeep upkeep held).bind
  rintro _ after ⟨still, same, untouched⟩
  exact ends_pure _ _ _ ⟨rfl, still, same.trans reached, untouched.trans counted⟩

/-- The result is written as it was told, and the modules are left where some number of pulls have
brought them. -/
theorem emit_upkeep (debug : Bool) (patience : Nat) (id : String) (result : EntryResult ω)
    (held : holds told s.desk.writer) :
    (emit debug patience id result).Ends s fun answer after =>
      answer.1 = (result.answer patience s.workshop.modules).emitted ∧
      holds (told ++ Encoder.told id s.desk.writer (result.answer patience s.workshop.modules))
        after.desk.writer ∧
      (∃ count ≤ (result.pulls patience s.workshop.modules).length,
        after.workshop = s.workshop.moved (result.after count s.workshop.modules)) ∧
      after.summary = s.summary := by
  obtain ⟨count, bound, same, -⟩ := emit_told debug patience id result s
  obtain ⟨answer, w, ran, counted, still⟩ := upkeep.emitAnswer_ends debug id
    (result.answer patience s.workshop.modules) held
  exact ⟨answer, _, same.trans (atWriter_done (s := s.leaving _ _) ran), counted, still,
    ⟨count, bound, rfl⟩, rfl⟩

theorem takeTurn_upkeep (setting : Setting ω) (id : String) (body : Json)
    (held : holds told s.desk.writer) {course : Course (Workshop ω) (EntryResult ω)}
    (went : Batch.courseOf setting id body s.workshop = course) {report : Report}
    (reported : Batch.reportOf setting.patience id course = report) :
    (takeTurn setting id body).Ends s fun _ after =>
      holds (told ++ course.events ++ Encoder.told report.id
          (runAlongside (Batch.courseOf setting id body) s).state.desk.writer report.result)
        after.desk.writer ∧
      (∃ count ≤ ((Batch.resultOf course).pulls setting.patience course.finalState.modules).length,
        after.workshop = Batch.pulledBy course count) ∧
      after.summary = s.summary.count report.result.emitted := by
  subst went reported
  obtain ⟨_, middle, ran, rfl, held, reached, counted⟩ := runAlongside_upkeep upkeep
    (Batch.courseOf setting id body) (Batch.courseOf_outcome setting id body s.workshop) held
  have emitted := emit_upkeep upkeep setting.settings.debug setting.patience id
    (Batch.resultOf (Batch.courseOf setting id body s.workshop)) held
  rw [reached] at emitted
  rw [Action.Ends, takeTurn, bind_apply]
  dsimp only
  rw [show runAlongside (Entry.process setting.registry _ id body) s = _ from ran, ran]
  apply emitted.bind
  rintro ⟨_, cut⟩ after ⟨rfl, still, pulled, same⟩
  exact ends_modify _ _ _ ⟨still, pulled, congrArg (Summary.count _) (same.trans counted)⟩

/-- The turns of entries lead to where the last turn begins, whatever that turn is. -/
theorem turnsThen_upkeep (setting : Setting ω) (entries : Members)
    (held : holds told s.desk.writer) :
    ∃ middle taken, (∀ last, turnsThen setting last entries s = last middle) ∧
      holds (told ++ (turns setting entries s).flatMap Turn.told) middle.desk.writer ∧
      taken.map Taken.entry = entries ∧ Batch.Fits setting taken s.workshop ∧
      (turns setting entries s).map (·.report) = Batch.reportsOf setting taken s.workshop ∧
      middle.workshop = Batch.workshopBehind setting taken s.workshop ∧
      middle.summary = tally (Batch.reportsOf setting taken s.workshop) none s.summary := by
  induction entries generalizing s told with
  | nil =>
    refine ⟨s, [], fun _ => rfl, ?_, rfl, trivial, rfl, rfl, ?_⟩
    · rwa [turns, List.flatMap_nil, List.append_nil]
    · simp [tally, Batch.reportsOf]
  | cons entry rest ih =>
    obtain ⟨id, body⟩ := entry
    obtain ⟨_, next, ran, held, ⟨count, bound, reached⟩, counted⟩ :=
      takeTurn_upkeep upkeep setting id body held rfl rfl
    obtain ⟨middle, taken, onward, held, entries, fits, same, last, tallied⟩ := ih held
    rw [reached] at fits same last tallied
    refine ⟨middle, ⟨id, body, count⟩ :: taken, fun turn => ?_, ?_, congrArg _ entries,
      ⟨bound, fits⟩, ?_, last, ?_⟩
    · exact (turnsThen_of_done ran turn rest).trans (onward turn)
    · rw [turns, ran]
      simpa only [List.flatMap_cons, Turn.told, List.append_assoc, Outcome.state] using held
    · rw [turns, ran, Batch.reportsOf, List.map_cons]
      exact congrArg _ same
    · rw [tallied, counted, Batch.reportsOf, tally_cons]

theorem abort_upkeep (debug : Bool) (f : BatchFault) (held : holds told s.desk.writer) :
    (abort debug f).Ends s fun _ after =>
      holds (told ++ Event.ofFailure none (.ofFault f)) after.desk.writer ∧
      after.workshop = s.workshop ∧ after.summary = { s.summary with aborted := true } := by
  refine ends_modify_bind _ _ _ _ ?_
  have emitted := atWriter_ends (Encoder.emitFault debug (.ofFault f))
    { s with summary := { s.summary with aborted := true } } _
    (upkeep.emitFault_ends debug (.ofFault f) held)
  apply emitted.weaken
  rintro _ _ ⟨w, still, rfl⟩
  exact ⟨still, rfl, rfl⟩

theorem lastTurn_upkeep (debug : Bool) (fault : Option BatchFault)
    (held : holds told s.desk.writer) :
    (lastTurn debug fault).Ends s fun _ after =>
      holds (told ++ fault.elim [] faultStory) after.desk.writer ∧
      after.workshop = s.workshop ∧ after.summary = tally [] (fault.map .ofFault) s.summary := by
  cases fault with
  | none =>
    refine guarded_ends _ (drain_upkeep upkeep held) ?_
    rintro after ⟨still, same, untouched⟩
    exact ends_pure _ _ _ ⟨by rwa [Option.elim, List.append_nil], same, by simp [tally, untouched]⟩
  | some f =>
    -- only the fault of the limit is announced, in front of its failure
    have announced : (takeFault f).Ends s fun _ after =>
        (∃ front, told ++ faultStory f = front ++ Event.ofFailure none (.ofFault f) ∧
          holds front after.desk.writer) ∧
        after.workshop = s.workshop ∧ after.summary = s.summary := by
      cases f with
      | panicked message =>
        apply (drain_upkeep upkeep held).weaken
        rintro _ after ⟨still, same, untouched⟩
        exact ⟨⟨told, rfl, still⟩, same, untouched⟩
      | tooManyEntries count limit =>
        refine Ends.bind (atDesk_ends (Desk.record (.tooManyEntries limit count)) s
          (fun _ d => holds (told ++ [.tooManyEntries limit count]) d.writer)
          ⟨(), _, rfl, upkeep.tell _ _ _ held⟩) ?_
        rintro _ _ ⟨d, held, rfl⟩
        apply (drain_upkeep upkeep held).weaken
        rintro _ after ⟨still, same, untouched⟩
        exact ⟨⟨_, List.append_cons .., still⟩, same, untouched⟩
    refine guarded_ends _ announced ?_
    rintro middle ⟨⟨front, whole, held⟩, same, untouched⟩
    apply (abort_upkeep upkeep debug f held).weaken
    rintro _ after ⟨still, unmoved, counted⟩
    refine ⟨?_, unmoved.trans same, ?_⟩
    · rwa [Option.elim, whole]
    · rw [counted, untouched]
      simp [tally]

/-- Up to its last step, the end of a batch tells what the close hooks record. -/
theorem conclude_upkeep (held : holds told s.desk.writer) :
    ∃ middle, holds (told ++ (Workshop.closeAll s.workshop).events) middle.desk.writer ∧
      middle.workshop = (Workshop.closeAll s.workshop).finalState ∧ middle.summary = s.summary ∧
      conclude s = match (Workshop.closeAll s.workshop).outcome with
        | .ok _ => atWriter Writer.finish middle
        | .error p => .panicked p middle := by
  obtain ⟨closed, ran, held, reached, counted⟩ :=
    follow_upkeep upkeep (Workshop.closeAll s.workshop) held
  have begins : conclude s = (follow (Workshop.closeAll s.workshop) >>= fun _ =>
      atDesk Desk.drain >>= fun _ => atWriter Writer.finish) s := rfl
  rw [begins, bind_apply, ran]
  cases (Workshop.closeAll s.workshop).outcome with
  | error p => exact ⟨closed, held, reached, counted, rfl⟩
  | ok _ =>
    obtain ⟨_, drained, went, held, same, untouched⟩ := drain_upkeep upkeep held
    refine ⟨drained, held, same.trans reached, untouched.trans counted, ?_⟩
    dsimp only [Outcome.of]
    rw [bind_apply, went]

end Turns

end Session

namespace Batch

/-- The turns of a run; a request that is refused has none. -/
def turns (setting : Setting ω) (world : ω) (body : Octets) (info : RequestInfo) (peer : Peer)
    (boundary : Boundary) : List Session.Turn :=
  match Envelope.parse body info with
  | .error _ => []
  | .ok envelope =>
      Session.turns setting (Agenda.start setting.settings.maxEntries envelope.entries).admitted
        (.start setting world peer boundary)

/-- What is told of what refuses a request or ends its batch. -/
def faultStory (setting : Setting ω) (body : Octets) (info : RequestInfo) : List Event :=
  match Envelope.parse body info with
  | .error r => Event.ofFailure none (.ofRejection r)
  | .ok envelope =>
      (Agenda.start setting.settings.maxEntries envelope.entries).fault?.elim [] Session.faultStory

/-- Everything that a run tells in which these turns are taken. -/
def story (setting : Setting ω) (world : ω) (body : Octets) (info : RequestInfo) (peer : Peer)
    (boundary : Boundary) (taken : List Taken) : List Event :=
  (turns setting world body info peer boundary).flatMap Session.Turn.told ++
    faultStory setting body info ++ (accountOf setting world body info taken).closing.events

variable {holds : List Event → Writer → Prop}

/-- A run that is refused as a whole, up to its last step. -/
theorem reject_upkeep (upkeep : Upkeep holds) (setting : Setting ω) (world : ω) (r : Rejection)
    (peer : Peer) (boundary : Boundary)
    (begun : holds [] (Writer.start peer boundary setting.settings.chunkSize)) :
    ∃ middle : Session ω, holds (Event.ofFailure none (.ofRejection r)) middle.desk.writer ∧
      middle.workshop = .start setting.order world ∧ middle.summary = ⟨0, 0, true⟩ ∧
      reject setting world r peer boundary = Session.atWriter Writer.finish middle := by
  obtain ⟨_, faulted, ran, w, held, rfl⟩ := Session.atWriter_ends
    (Encoder.emitFault setting.settings.debug (.ofRejection r))
    (Session.start setting world peer boundary) _ (upkeep.emitFault_ends _ _ begun)
  refine ⟨{ Session.start setting world peer boundary with
    desk := ⟨w, .start⟩, summary := ⟨0, 0, true⟩ }, held, rfl, rfl, ?_⟩
  rw [reject, Session.refuse, bind_apply, ran]
  rfl

/-- A run over a peer that leaves the invariant standing, up to its last step: the invariant holds of
all that has been told, and counts and modules are as the account of some turns has them. -/
theorem run_upkeep (upkeep : Upkeep holds) (setting : Setting ω) (world : ω) (body : Octets)
    (info : RequestInfo) (peer : Peer) (boundary : Boundary)
    (begun : holds [] (Writer.start peer boundary setting.settings.chunkSize)) :
    ∃ taken, MayTake setting world body info taken ∧
    (turns setting world body info peer boundary).map (·.report) =
      (accountOf setting world body info taken).reports ∧
    ∃ middle : Session ω,
      holds (story setting world body info peer boundary taken) middle.desk.writer ∧
      middle.summary = (accountOf setting world body info taken).summary ∧
      middle.workshop = (accountOf setting world body info taken).closing.finalState ∧
      run setting world body info peer boundary =
        match (accountOf setting world body info taken).closing.outcome with
        | .ok _ => Session.atWriter Writer.finish middle
        | .error p => .panicked p middle := by
  cases parsed : Envelope.parse body info with
  | error r =>
    obtain ⟨middle, held, same, counted, ran⟩ :=
      reject_upkeep upkeep setting world r peer boundary begun
    have may : MayTake setting world body info [] :=
      fun _ accepted => nomatch parsed.symm.trans accepted
    refine ⟨[], may, ?_⟩
    rw [story, turns, faultStory, accountOf,
      run_of_rejected setting world peer boundary parsed, parsed]
    refine ⟨rfl, middle, ?_, counted, same, ran⟩
    -- nothing is kept, so nothing is closed
    rw [show (Account.closing ⟨[], some (.ofRejection r), .start setting.order world⟩).events = []
      from rfl]
    simpa using held
  | ok envelope =>
    obtain ⟨turned, taken, onward, held, entries, fits, same, reached, tallied⟩ :=
      Session.turnsThen_upkeep upkeep setting
        (Agenda.start setting.settings.maxEntries envelope.entries).admitted
        (s := Session.start setting world peer boundary) begun
    obtain ⟨_, last, ran, held, unmoved, counted⟩ := Session.lastTurn_upkeep upkeep
      setting.settings.debug (Agenda.start setting.settings.maxEntries envelope.entries).fault? held
    obtain ⟨middle, held, closed, untouched, ended⟩ := Session.conclude_upkeep upkeep held
    rw [unmoved, reached] at closed ended held
    have may : MayTake setting world body info taken := by
      rintro _ accepted
      cases parsed.symm.trans accepted
      exact ⟨entries, fits⟩
    refine ⟨taken, may, ?_⟩
    rw [run_of_accepted setting world peer boundary parsed,
      runEntries_eq setting world envelope.entries peer boundary rfl, bind_apply, onward, ran, story,
      turns, faultStory, accountOf, parsed]
    refine ⟨same, middle, held, ?_, closed, ended⟩
    rw [untouched, counted, tallied]
    simp [Account.summary, Session.tally, Session.start]

end Batch
end Multicall
