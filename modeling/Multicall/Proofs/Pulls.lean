import Multicall.Batch.Runner
import Multicall.Proofs.ResultParts
/-!
Sequences told in advance. While a part is written nothing flows back to the code that is pulled for
it, so what all pulls come to is settled when the operation is over; only how many are made depends
on the transport. Writing a sequence as it is pulled is therefore writing what was told of it, with
the modules and the queue left where some number of pulls have brought them: all of them, unless the
transport fails or panics meanwhile.
-/
namespace Multicall

variable {ω α : Type}

namespace Course

variable {σ : Type}

theorem outcome_attempt (c : Course σ α) : c.attempt.outcome = .ok c.outcome := by
  induction c with
  | ended _ _ => rfl
  | send _ _ ih => exact ih
  | record _ _ ih => exact ih
  | suspend _ _ ih => exact ih

theorem finalState_attempt (c : Course σ α) : c.attempt.finalState = c.finalState := by
  induction c with
  | ended _ _ => rfl
  | send _ _ ih => exact ih
  | record _ _ ih => exact ih
  | suspend _ _ ih => exact ih

theorem commands_attempt (c : Course σ α) : c.attempt.commands = c.commands := by
  induction c with
  | ended _ _ => rfl
  | send c _ ih => exact congrArg (c :: ·) ih
  | record _ _ ih => exact ih
  | suspend _ _ ih => exact ih

theorem events_attempt (c : Course σ α) : c.attempt.events = c.events := by
  induction c with
  | ended _ _ => rfl
  | send _ _ ih => exact ih
  | record e _ ih => exact congrArg (e :: ·) ih
  | suspend _ _ ih => exact ih

variable {τ : Type} (f : σ → τ)

theorem outcome_mapState (c : Course σ α) : (c.mapState f).outcome = c.outcome := by
  induction c with
  | ended _ _ => rfl
  | send _ _ ih => exact ih
  | record _ _ ih => exact ih
  | suspend _ _ ih => exact ih

theorem finalState_mapState (c : Course σ α) : (c.mapState f).finalState = f c.finalState := by
  induction c with
  | ended _ _ => rfl
  | send _ _ ih => exact ih
  | record _ _ ih => exact ih
  | suspend _ _ ih => exact ih

theorem commands_mapState (c : Course σ α) : (c.mapState f).commands = c.commands := by
  induction c with
  | ended _ _ => rfl
  | send c _ ih => exact congrArg (c :: ·) ih
  | record _ _ ih => exact ih
  | suspend _ _ ih => exact ih

theorem events_mapState (c : Course σ α) : (c.mapState f).events = c.events := by
  induction c with
  | ended _ _ => rfl
  | send _ _ ih => exact ih
  | record e _ ih => exact congrArg (e :: ·) ih
  | suspend _ _ ih => exact ih

end Course

namespace Producer

/-- What a pull comes to from a state of the modules. -/
def pull (producer : Producer ω) (index : Nat) (m : ModuleState ω) : Pull :=
  let course := producer index m
  ⟨course.events, course.commands, course.outcome⟩

/-- The state in which a pull leaves the modules. -/
def next (producer : Producer ω) (index : Nat) (m : ModuleState ω) : ModuleState ω :=
  (producer index m).finalState

/-- What the next pulls come to, up to the one that ends the sequence. -/
def pulls (producer : Producer ω) : (patience index : Nat) → ModuleState ω → List Pull
  | 0, _, _ => []
  | patience + 1, index, m =>
      if (producer.pull index m).isLast then [producer.pull index m]
      else producer.pull index m :: producer.pulls patience (index + 1) (producer.next index m)

/-- The state of the modules after so many pulls. -/
def after (producer : Producer ω) : (count index : Nat) → ModuleState ω → ModuleState ω
  | 0, _, m => m
  | count + 1, index, m => producer.after count (index + 1) (producer.next index m)

variable (producer : Producer ω) (patience index : Nat) (m : ModuleState ω)

theorem pulls_succ :
    producer.pulls (patience + 1) index m = producer.pull index m ::
      if (producer.pull index m).isLast then []
      else producer.pulls patience (index + 1) (producer.next index m) := by
  rw [pulls]
  split <;> rfl

theorem pulls_of_last (last : (producer.pull index m).isLast = true) :
    producer.pulls (patience + 1) index m = [producer.pull index m] :=
  if_pos last

theorem pulls_of_more (more : (producer.pull index m).isLast = false) :
    producer.pulls (patience + 1) index m =
      producer.pull index m :: producer.pulls patience (index + 1) (producer.next index m) :=
  if_neg (ne_true_of_eq_false more)

end Producer

theorem Pull.isLast_of_error {pull : Pull} {p : Panic} (came : pull.came = .error p) :
    pull.isLast = true := by
  rw [isLast, came]

theorem Pull.isLast_of_none {pull : Pull} (came : pull.came = .ok none) : pull.isLast = true := by
  rw [isLast, came]

theorem Pull.isLast_of_some {pull : Pull} {element : Except String Json}
    (came : pull.came = .ok (some element)) : pull.isLast = false := by
  rw [isLast, came]

namespace EntryResult

/-- What the pulls of a result come to, when it is a sequence. -/
def pulls (patience : Nat) (m : ModuleState ω) : EntryResult ω → List Pull
  | .ok (.sequence producer) => producer.pulls patience 0 m
  | _ => []

/-- A result with its sequence told from a state of the modules. -/
def answer (patience : Nat) (m : ModuleState ω) : EntryResult ω → Answer
  | .ok (.value json) => .ok (.value json)
  | .ok (.sequence producer) => .ok (.sequence (producer.pulls patience 0 m))
  | .error f => .error f

/-- The state of the modules when a result has been pulled so often. -/
def after (count : Nat) (m : ModuleState ω) : EntryResult ω → ModuleState ω
  | .ok (.sequence producer) => producer.after count 0 m
  | _ => m

/-- How an entry is counted. -/
def emitted : EntryResult ω → Emitted
  | .ok (.value (.error _)) => .failure
  | .ok _ => .success
  | .error _ => .failure

theorem commands_answer (patience : Nat) (m : ModuleState ω) (result : EntryResult ω) :
    (result.answer patience m).commands = (result.pulls patience m).flatMap (·.commands) := by
  match result with
  | .ok (.value _) | .ok (.sequence _) | .error _ => rfl

end EntryResult

namespace Encoder

theorem abandoned_apply (id : String) (w : Writer) :
    abandoned id w = if w.outlet.broken then .done true (w.logging (.sequenceAbandoned id))
      else .done false w := by
  rw [abandoned, Action.bind_apply, Action.get_apply]
  dsimp only
  split <;> rfl

/-- A transport that is gone stays so. -/
theorem closeSequence_of_gone (handle : Nat) :
    (closeSequence handle).Maintains fun w => w.outlet.broken = true := by
  have send (block : Octets) : (Outlet.send block).Maintains fun o => o.broken = true :=
    fun o gone => ⟨(), o, Outlet.send_of_broken gone block, gone⟩
  have flush : Outlet.flush.Maintains fun o => o.broken = true :=
    fun o gone => ⟨(), o, Outlet.flush_of_broken gone, gone⟩
  have record (e : Event) : (Outlet.record e).Maintains fun o => o.broken = true :=
    fun o gone => ⟨(), _, rfl, gone⟩
  have pump := Writer.pump_maintains send flush
  exact (Writer.onPart_maintains pump handle sequenceEnd false (record _)).bind fun _ =>
    Writer.onPart_maintains pump handle Writer.lineEnd true (record _)

theorem emitPulls_of_gone {w : Writer} (gone : w.outlet.broken = true) (id : String)
    (handle index written : Nat) (pulls : List Pull) :
    emitPulls id handle index written pulls w = .done false (w.logging (.sequenceAbandoned id)) := by
  cases pulls <;>
  · rw [emitPulls, Action.bind_apply, abandoned_apply, if_pos gone]
    rfl

theorem emitPulls_nil {w : Writer} (whole : w.outlet.broken = false) (id : String)
    (handle index written : Nat) : emitPulls id handle index written [] w = .done true w := by
  rw [emitPulls, Action.bind_apply, abandoned_apply,
    if_neg (ne_true_of_eq_false whole)]
  rfl

/-- What becomes of a pull of a sequence whose part is being written. -/
theorem emitPulls_cons {w : Writer} (whole : w.outlet.broken = false) (id : String)
    (handle index written : Nat) (pull : Pull) (rest : List Pull) :
    emitPulls id handle index written (pull :: rest) w = (match pull.came with
      | .error p => do
          Writer.record (.sequencePanicked id index p)
          return false
      | .ok none => return false
      | .ok (some element) => do
          let written ← emitElement id handle index written element
          emitPulls id handle (index + 1) written rest : Action Writer Bool)
        (w.hearing pull.events) := by
  rw [emitPulls, Action.bind_apply, abandoned_apply,
    if_neg (ne_true_of_eq_false whole)]
  exact Action.bind_of_done (Writer.recordAll_apply _ _) _

/-- Where the transport is there behind a sequence, it was there behind its last element. -/
theorem emitPulls_of_whole {debug : Bool} {id : String} {pulls : List Pull} {w last : Writer}
    {a : Emitted × Bool} (ran : emitAnswer debug id (.ok (.sequence pulls)) w = .done a last)
    (whole : last.outlet.broken = false) :
    ∃ handle begun cut through, openSequence id w = .done handle begun ∧
      emitPulls id handle 0 0 pulls begun = .done cut through ∧ through.outlet.broken = false := by
  obtain ⟨handle, begun, opened, ran⟩ := Action.done_of_bind ran
  obtain ⟨cut, through, pulled, ran⟩ := Action.done_of_bind ran
  refine ⟨handle, begun, cut, through, opened, pulled, ?_⟩
  cases gone : through.outlet.broken with
  | false => rfl
  | true =>
    obtain ⟨_, closed, ended, still⟩ := closeSequence_of_gone handle through gone
    rw [Action.bind_of_done ended] at ran
    obtain ⟨-, rfl⟩ := Outcome.done.inj ran
    exact nomatch still.symm.trans whole

end Encoder

def Workshop.moved (m : ModuleState ω) (w : Workshop ω) : Workshop ω := { w with modules := m }

namespace Session

variable {s : Session ω}

def writing (w : Writer) (s : Session ω) : Session ω :=
  { s with desk := { s.desk with writer := w } }

/-- The session when code of the modules has run that nobody attended to: its commands are queued and
the modules are where it has left them. -/
def leaving (commands : List PartCommand) (m : ModuleState ω) (s : Session ω) : Session ω :=
  { s with
    desk := { s.desk with
      relay := { s.desk.relay with queue := s.desk.relay.queue ++ commands } }
    workshop := s.workshop.moved m }

theorem leaving_nil (s : Session ω) : s.leaving [] s.workshop.modules = s := by
  rw [leaving, List.append_nil]
  rfl

theorem leaving_writer (commands : List PartCommand) (m : ModuleState ω) (s : Session ω) :
    (s.leaving commands m).desk.writer = s.desk.writer := rfl

theorem atWriter_apply (m : Action Writer α) (s : Session ω) :
    atWriter m s = match m s.desk.writer with
      | .done a w => .done a (s.writing w)
      | .panicked p w => .panicked p (s.writing w) := by
  rw [atWriter, atDesk, Action.within_apply, Action.within_apply]
  have taken : s.onDesk.1.onWriter.1 = s.desk.writer := rfl
  rw [taken]
  cases m s.desk.writer <;> rfl

theorem follow_awaited (c : Course (Workshop ω) α) (s : Session ω) :
    follow c.awaited s = .of c.outcome
      { s with
        desk := ⟨s.desk.writer.hearing c.events,
          { s.desk.relay with queue := s.desk.relay.queue ++ c.commands }⟩
        workshop := c.finalState } := by
  induction c generalizing s with
  | ended outcome w =>
    have unchanged : s.desk.relay.queue ++ [] = s.desk.relay.queue := List.append_nil _
    cases outcome <;>
    · simp only [Course.commands, unchanged]
      rfl
  | send command next ih =>
    refine (ih _).trans ?_
    simp only [List.append_assoc, List.cons_append, List.nil_append]
    rfl
  | record e next ih => exact ih _
  | suspend _ _ ih => exact ih s

/-- A session when a sequence has been pulled. -/
def pulled (pull : Pull) (m : ModuleState ω) (s : Session ω) : Session ω :=
  (s.leaving pull.commands m).writing (s.desk.writer.hearing pull.events)

theorem pulled_leaving_nil (pull : Pull) (m : ModuleState ω) (s : Session ω) :
    (s.pulled pull m).leaving [] m = s.pulled pull m :=
  leaving_nil (s.pulled pull m)

theorem pull_apply (producer : Producer ω) (index : Nat) (s : Session ω) :
    pull producer index s = .done (producer.pull index s.workshop.modules).came
      (s.pulled (producer.pull index s.workshop.modules)
        (producer.next index s.workshop.modules)) := by
  refine (follow_awaited _ s).trans ?_
  rw [Activity.attempt, Course.outcome_attempt, Course.finalState_attempt, Course.commands_attempt,
    Course.events_attempt, Workshop.inModules, Activity.within, Course.outcome_mapState,
    Course.finalState_mapState, Course.commands_mapState, Course.events_mapState]
  rfl

theorem atWriter_pure (a : α) : (atWriter (pure a) : Action (Session ω) α) = pure a :=
  funext fun s => atWriter_apply _ s

theorem atWriter_bind {β : Type} (m : Action Writer α) (f : α → Action Writer β) :
    (atWriter (m >>= f) : Action (Session ω) β) = atWriter m >>= fun a => atWriter (f a) := by
  funext s
  rw [atWriter_apply, Action.bind_apply, Action.bind_apply, atWriter_apply]
  cases m s.desk.writer with
  | panicked p w => rfl
  | done a w =>
    dsimp only
    rw [atWriter_apply]
    rfl

theorem atWriter_done {m : Action Writer α} {a : α} {w : Writer}
    (ran : m s.desk.writer = .done a w) : atWriter m s = .done a (s.writing w) := by
  rw [atWriter_apply, ran]

theorem atWriter_panicked {m : Action Writer α} {p : Panic} {w : Writer}
    (ran : m s.desk.writer = .panicked p w) : atWriter m s = .panicked p (s.writing w) := by
  rw [atWriter_apply, ran]

/-- A pull that was told goes before those that follow. -/
theorem emitPulls_pulled (whole : s.desk.writer.outlet.broken = false) (id : String)
    (handle index written : Nat) (pull : Pull) (rest : List Pull) (later : List PartCommand)
    (m n : ModuleState ω) :
    (atWriter (Encoder.emitPulls id handle index written (pull :: rest)) : Action (Session ω) Bool)
        (s.leaving (pull.commands ++ later) n) =
      (atWriter (match pull.came with
        | .error p => do
            Writer.record (.sequencePanicked id index p)
            return false
        | .ok none => return false
        | .ok (some element) => do
            let written ← Encoder.emitElement id handle index written element
            Encoder.emitPulls id handle (index + 1) written rest) : Action (Session ω) Bool)
        ((s.pulled pull m).leaving later n) := by
  rw [atWriter_apply, atWriter_apply, leaving_writer, Encoder.emitPulls_cons whole]
  simp only [pulled, leaving, writing, Workshop.moved, List.append_assoc]

/-- Writing what a sequence gives, as it is pulled, is writing what was told of it. So many pulls are
made: all of them, if the transport is still there in the end. -/
structure Told (m : Action (Session ω) α) (told : Action Writer α) (pulls : List Pull)
    (after : Nat → ModuleState ω) (s : Session ω) (count : Nat) : Prop where
  bound : count ≤ pulls.length
  same : m s = atWriter told (s.leaving ((pulls.take count).flatMap (·.commands)) (after count))
  all : ∀ a w, told s.desk.writer = .done a w → w.outlet.broken = false → count = pulls.length

theorem emitElements_of_gone (producer : Producer ω) {id : String} {handle patience index : Nat}
    {written : Nat} (gone : s.desk.writer.outlet.broken = true) :
    emitElements producer id handle patience index written s =
      .done false (s.writing (s.desk.writer.logging (.sequenceAbandoned id))) := by
  have said := atWriter_done (s := s) ((Encoder.abandoned_apply id s.desk.writer).trans (if_pos gone))
  cases patience <;>
  · rw [emitElements, Action.bind_apply, said]
    rfl

/-- As long as the transport is alive the next element is asked for. -/
theorem emitElements_succ (producer : Producer ω) {id : String} {handle patience index : Nat}
    {written : Nat} (whole : s.desk.writer.outlet.broken = false) :
    emitElements producer id handle (patience + 1) index written s =
      (match (producer.pull index s.workshop.modules).came with
        | .error p => do
            atWriter (Writer.record (.sequencePanicked id index p))
            return false
        | .ok none => return false
        | .ok (some element) => do
            let written ← atWriter (Encoder.emitElement id handle index written element)
            emitElements producer id handle patience (index + 1) written : Action (Session ω) Bool)
        (s.pulled (producer.pull index s.workshop.modules)
          (producer.next index s.workshop.modules)) := by
  have said := atWriter_done (s := s) ((Encoder.abandoned_apply id s.desk.writer).trans
    (if_neg (ne_true_of_eq_false whole)))
  rw [emitElements, Action.bind_apply, said]
  exact Action.bind_of_done (pull_apply producer index s) _

section Elements

variable (producer : Producer ω) (id : String) (handle index written : Nat)

/-- The elements of a sequence from some place on, as they are pulled from a session. -/
def Tells (patience : Nat) (s : Session ω) : Prop :=
  ∃ count, Told (emitElements producer id handle patience index written)
    (Encoder.emitPulls id handle index written (producer.pulls patience index s.workshop.modules))
    (producer.pulls patience index s.workshop.modules)
    (producer.after · index s.workshop.modules) s count

theorem tells_without_patience (s : Session ω) : Tells producer id handle index written 0 s := by
  refine ⟨0, Nat.le_refl _, ?_, fun _ _ _ _ => rfl⟩
  show _ = atWriter _ (s.leaving [] s.workshop.modules)
  rw [leaving_nil, emitElements, Producer.pulls, Encoder.emitPulls, atWriter_apply,
    Action.bind_apply, atWriter_apply, Action.bind_apply]
  cases Encoder.abandoned id s.desk.writer with
  | panicked p w => rfl
  | done gone w => cases gone <;> rfl

theorem tells_of_gone (gone : s.desk.writer.outlet.broken = true) (patience : Nat) :
    Tells producer id handle index written patience s := by
  refine ⟨0, Nat.zero_le _, ?_, fun _ w ran whole => ?_⟩
  · show _ = atWriter _ (s.leaving [] s.workshop.modules)
    rw [leaving_nil, emitElements_of_gone producer gone,
      atWriter_done (Encoder.emitPulls_of_gone gone ..)]
  · rw [Encoder.emitPulls_of_gone gone] at ran
    obtain ⟨-, rfl⟩ := Outcome.done.inj ran
    exact nomatch gone.symm.trans whole

/-- Behind the last pull nothing is told. -/
theorem tells_of_last (whole : s.desk.writer.outlet.broken = false) (patience : Nat)
    (last : (producer.pull index s.workshop.modules).isLast = true) :
    Tells producer id handle index written (patience + 1) s := by
  have ahead : emitElements producer id handle (patience + 1) index written s = _ :=
    emitElements_succ producer whole
  have behind := emitPulls_pulled whole id handle index written
    (producer.pull index s.workshop.modules) [] [] (producer.next index s.workshop.modules)
    (producer.next index s.workshop.modules)
  rw [pulled_leaving_nil] at behind
  rw [Tells, producer.pulls_of_last _ _ _ last]
  refine ⟨1, Nat.le_refl _, ahead.trans (Eq.trans ?_ behind.symm), fun _ _ _ _ => rfl⟩
  match came : (producer.pull index s.workshop.modules).came with
  | .error p =>
    dsimp only
    rw [atWriter_bind]
    rfl
  | .ok none =>
    dsimp only
    rw [atWriter_pure]
  | .ok (some element) => exact nomatch last.symm.trans (Pull.isLast_of_some came)

/-- An element that a pull gives is written, and where that is done the others are told from there. -/
theorem tells_of_element (whole : s.desk.writer.outlet.broken = false) (patience : Nat)
    {element : Except String Json}
    (came : (producer.pull index s.workshop.modules).came = .ok (some element))
    (others : ∀ written t, Tells producer id handle (index + 1) written patience t) :
    Tells producer id handle index written (patience + 1) s := by
  have ahead : emitElements producer id handle (patience + 1) index written s = _ :=
    emitElements_succ producer whole
  have behind := emitPulls_pulled whole id handle index written
    (producer.pull index s.workshop.modules)
    (producer.pulls patience (index + 1) (producer.next index s.workshop.modules))
  have told := Encoder.emitPulls_cons whole id handle index written
    (producer.pull index s.workshop.modules)
    (producer.pulls patience (index + 1) (producer.next index s.workshop.modules))
  simp only [came] at ahead told
  simp only [came, atWriter_bind] at behind
  rw [Action.bind_apply] at ahead told
  rw [Tells, producer.pulls_of_more _ _ _ (Pull.isLast_of_some came)]
  cases wrote : Encoder.emitElement id handle index written element
      (s.desk.writer.hearing (producer.pull index s.workshop.modules).events) with
  | panicked p w =>
    have struck := behind [] (producer.next index s.workshop.modules)
      (producer.next index s.workshop.modules)
    have said := atWriter_panicked (s := s.pulled (producer.pull index s.workshop.modules)
      (producer.next index s.workshop.modules)) wrote
    rw [pulled_leaving_nil, Action.bind_apply, said] at struck
    rw [said] at ahead
    refine ⟨1, Nat.succ_le_succ (Nat.zero_le _), ahead.trans struck.symm, fun a w ran _ => ?_⟩
    rw [told, wrote] at ran
    cases ran
  | done count w =>
    rw [atWriter_done wrote] at ahead
    obtain ⟨more, bound, same, all⟩ := others count
      ((s.pulled (producer.pull index s.workshop.modules)
        (producer.next index s.workshop.modules)).writing w)
    have onward := behind
      (((producer.pulls patience (index + 1) (producer.next index s.workshop.modules)).take
        more).flatMap (·.commands)) (producer.next index s.workshop.modules)
      (producer.after (more + 1) index s.workshop.modules)
    have later (commands : List PartCommand) (m : ModuleState ω) := atWriter_done (s :=
      (s.pulled (producer.pull index s.workshop.modules)
        (producer.next index s.workshop.modules)).leaving commands m) wrote
    rw [Action.bind_apply, later] at onward
    refine ⟨more + 1, Nat.succ_le_succ bound, (ahead.trans same).trans onward.symm,
      fun a w ran whole => congrArg Nat.succ (all a w ?_ whole)⟩
    rw [told, wrote] at ran
    exact ran

theorem emitElements_told (patience : Nat) (s : Session ω) :
    Tells producer id handle index written patience s := by
  induction patience generalizing index written s with
  | zero => exact tells_without_patience producer id handle index written s
  | succ patience ih =>
    cases gone : s.desk.writer.outlet.broken with
    | true => exact tells_of_gone producer id handle index written gone _
    | false =>
      match came : (producer.pull index s.workshop.modules).came with
      | .error p =>
        exact tells_of_last producer id handle index written gone patience
          (Pull.isLast_of_error came)
      | .ok none =>
        exact tells_of_last producer id handle index written gone patience (Pull.isLast_of_none came)
      | .ok (some element) =>
        exact tells_of_element producer id handle index written gone patience came
          fun written t => ih (index + 1) written t

end Elements

/-- What is written before a sequence and behind it is told as it is. -/
theorem emitSequence_told (debug : Bool) (patience : Nat) (id : String) (producer : Producer ω)
    (s : Session ω) :
    ∃ count, Told (do return (Emitted.success, ← emitSequence patience id producer))
      (Encoder.emitAnswer debug id (.ok (.sequence (producer.pulls patience 0 s.workshop.modules))))
      (producer.pulls patience 0 s.workshop.modules)
      (producer.after · 0 s.workshop.modules) s count := by
  have told (t : Session ω) : atWriter (Encoder.emitAnswer debug id (.ok (.sequence
      (producer.pulls patience 0 s.workshop.modules)))) t = (do
        let handle ← atWriter (Encoder.openSequence id)
        let cut ← atWriter (Encoder.emitPulls id handle 0 0
          (producer.pulls patience 0 s.workshop.modules))
        atWriter (Encoder.closeSequence handle)
        return (Emitted.success, cut)) t := by
    simp only [Encoder.emitAnswer, atWriter_bind, atWriter_pure]
  simp only [emitSequence, bind_assoc, pure_bind]
  cases opened : Encoder.openSequence id s.desk.writer with
  | panicked p w =>
    refine ⟨0, Nat.zero_le _, ?_, fun a w ran _ => ?_⟩
    · show _ = atWriter _ (s.leaving [] s.workshop.modules)
      rw [leaving_nil, told, Action.bind_apply, Action.bind_apply, atWriter_panicked opened]
    · rw [Encoder.emitAnswer, Action.bind_apply, opened] at ran
      cases ran
  | done handle w =>
    obtain ⟨count, bound, same, all⟩ := emitElements_told producer id handle 0 0 patience
      (s.writing w)
    refine ⟨count, bound, ?_, fun a last ran whole => ?_⟩
    · have begun := atWriter_done (s := s.leaving (((producer.pulls patience 0
        s.workshop.modules).take count).flatMap (·.commands))
          (producer.after count 0 s.workshop.modules)) opened
      rw [told, Action.bind_apply, Action.bind_apply, atWriter_done opened, begun]
      show (emitElements producer id handle patience 0 0 >>= _) (s.writing w) = _
      rw [Action.bind_apply, same]
      rfl
    · obtain ⟨_, _, cut, through, again, pulled, still⟩ := Encoder.emitPulls_of_whole ran whole
      obtain ⟨rfl, rfl⟩ := Outcome.done.inj (opened.symm.trans again)
      exact all cut through pulled still

theorem atWriter_answers {m : Action Writer α} {kind : α → Prop} (answers : m.Answers kind) :
    (atWriter m : Action (Session ω) α).Answers kind := by
  rw [atWriter, atDesk]
  exact answers.within.within

theorem emit_answers (debug : Bool) (patience : Nat) (id : String) (result : EntryResult ω) :
    (emit debug patience id result).Answers fun answer => answer.1 = result.emitted := by
  match result with
  | .ok (.value json) =>
    refine (atWriter_answers (Encoder.emitValue_answers debug id json)).bind fun emitted same => ?_
    refine Action.answers_pure _ _ (same.trans ?_)
    cases json <;> rfl
  | .ok (.sequence producer) => exact Action.answers_of_last fun _ => Action.answers_pure _ _ rfl
  | .error f =>
    exact (atWriter_answers (Encoder.emitFailure_answers debug id f)).bind fun _ same =>
      Action.answers_pure _ _ same

/-- The part of an entry is written from its result as it was told when the operation was over. -/
theorem emit_told (debug : Bool) (patience : Nat) (id : String) (result : EntryResult ω)
    (s : Session ω) :
    ∃ count, Told (emit debug patience id result)
      (Encoder.emitAnswer debug id (result.answer patience s.workshop.modules))
      (result.pulls patience s.workshop.modules) (result.after · s.workshop.modules) s count := by
  match result with
  | .ok (.value json) =>
    refine ⟨0, Nat.le_refl _, ?_, fun _ _ _ _ => rfl⟩
    show _ = atWriter _ (s.leaving [] s.workshop.modules)
    rw [leaving_nil]
    simp only [emit, EntryResult.answer, Encoder.emitAnswer, atWriter_bind, atWriter_pure]
  | .error f =>
    refine ⟨0, Nat.le_refl _, ?_, fun _ _ _ _ => rfl⟩
    show _ = atWriter _ (s.leaving [] s.workshop.modules)
    rw [leaving_nil]
    simp only [emit, EntryResult.answer, Encoder.emitAnswer, atWriter_bind, atWriter_pure]
  | .ok (.sequence producer) => exact emitSequence_told debug patience id producer s

end Session
end Multicall
