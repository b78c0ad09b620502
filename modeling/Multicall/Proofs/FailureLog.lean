import Multicall.Proofs.Isolation
import Multicall.Proofs.Upkeep
/-!
What a run logs of failures. Every failure that a part speaks of is logged once, with its real message
and all its causes, whatever the client gets to see of it; so is every element that a sequence skips
while its transport is there; and a failing transport is logged once. What the code of modules records
by itself stands between these, in its place.
-/
namespace Multicall

open Multicall.Action

namespace Event

def isError (e : Event) : Bool := e.level == .error

/-- The event that a failure begins with; its causes follow. -/
def isHead : Event → Bool
  | .failed _ _ _ => true
  | _ => false

def isSkip : Event → Bool
  | .elementSkipped _ _ _ => true
  | _ => false

/-- What is said of a transport that fails. -/
def isOutage : Event → Bool
  | .writeFailed _ | .flushFailed _ => true
  | _ => false

/-- The events by which failures, skipped elements and the transport are reported. -/
def isReserved (e : Event) : Bool := e.isError || e.isSkip || e.isOutage

theorem ofFailure_errors (id : Option String) (f : Failure) :
    (ofFailure id f).filter isError = ofFailure id f := by
  rw [ofFailure, List.filter_cons_of_pos rfl, List.filter_map]
  exact congrArg _ (congrArg _ (List.filter_eq_self.mpr fun _ _ => rfl))

theorem ofFailure_heads (id : Option String) (f : Failure) : (ofFailure id f).countP isHead = 1 := by
  have causes : (f.causes.map (.causedBy id)).countP isHead = 0 :=
    List.countP_eq_zero.mpr fun e member => by
      obtain ⟨_, -, rfl⟩ := List.mem_map.mp member
      exact Bool.false_ne_true
  rw [ofFailure, List.countP_cons, causes]
  rfl

/-- Heads are errors. -/
theorem errors_heads (events : List Event) :
    (events.filter isError).countP isHead = events.countP isHead := by
  rw [List.countP_filter]
  refine congrArg (List.countP · events) (funext fun e => ?_)
  cases e <;> rfl

theorem ofFailure_skips (id : Option String) (f : Failure) :
    (ofFailure id f).filter isSkip = [] := by
  rw [ofFailure, List.filter_cons_of_neg Bool.false_ne_true, List.filter_eq_nil_iff]
  intro e member
  obtain ⟨_, -, rfl⟩ := List.mem_map.mp member
  exact Bool.false_ne_true

theorem ofFailure_outages (id : Option String) (f : Failure) :
    (ofFailure id f).countP isOutage = 0 := by
  rw [List.countP_eq_zero, ofFailure]
  rintro e (_ | ⟨_, member⟩)
  · exact Bool.false_ne_true
  · obtain ⟨_, -, rfl⟩ := List.mem_map.mp member
    exact Bool.false_ne_true

end Event

namespace Answer

/-- What an entry fails with; a value without a JSON form is a failure too. -/
def failure? : Answer → Option Failure
  | .ok (.value (.error reason)) => some (.ofConversion reason)
  | .ok _ => none
  | .error f => some f

/-- An answer is written as a failure if there is one, and its part spells it. -/
theorem body_of_failure {answer : Answer} {f : Failure} (failed : answer.failure? = some f)
    (debug : Bool) : answer.emitted = .failure ∧ answer.body debug = Encoder.failureBody debug f := by
  match answer, failed with
  | .ok (.value (.error reason)), rfl => exact ⟨rfl, rfl⟩
  | .error f, rfl => exact ⟨rfl, rfl⟩

theorem emitted_eq_failure (answer : Answer) :
    answer.emitted = .failure ↔ answer.failure?.isSome = true := by
  match answer with
  | .ok (.value (.ok j)) => exact ⟨nofun, nofun⟩
  | .ok (.value (.error reason)) => exact ⟨fun _ => rfl, fun _ => rfl⟩
  | .ok (.sequence s) => exact ⟨nofun, nofun⟩
  | .error f => exact ⟨fun _ => rfl, fun _ => rfl⟩

end Answer

/-- The failure that an entry comes to, as it is logged. -/
def Report.failures (r : Report) : List Event :=
  r.result.failure?.toList.flatMap (Event.ofFailure (some r.id))

theorem Report.failures_heads (r : Report) :
    r.failures.countP Event.isHead = if r.result.emitted = .failure then 1 else 0 := by
  rw [failures]
  cases failed : r.result.failure? with
  | none =>
    have other : r.result.emitted ≠ .failure := by simp [Answer.emitted_eq_failure, failed]
    rw [if_neg other]
    rfl
  | some f =>
    rw [if_pos (Answer.body_of_failure failed false).1, Option.toList_some,
      List.flatMap_singleton, Event.ofFailure_heads]

/-- What is said of an element that is skipped, by its place among all. -/
def Pull.skip (id : String) (place : Nat) (pull : Pull) : List Event :=
  match pull.came with
  | .ok (some (.error reason)) => [.elementSkipped id place reason]
  | _ => []

namespace Encoder

/-- The pulls that are made: as long as the transport is alive, and none behind the end. -/
def made : List Pull → (alive : Nat → Bool) → List Pull
  | [], _ => []
  | pull :: rest, alive =>
      if alive 0 then
        if pull.isLast then [pull] else pull :: made rest fun n => alive (n + 1)
      else []

/-- A skipped element is reported under its place among all that were pulled. -/
def skips (id : String) (index : Nat) (pulls : List Pull) : List Event :=
  (pulls.zipIdx index).flatMap fun (pull, place) => pull.skip id place

/-- The same with what the code of the sequence records of this kind by itself. -/
def skipsAmong (id : String) (index : Nat) (pulls : List Pull) : List Event :=
  (pulls.zipIdx index).flatMap fun (pull, place) =>
    pull.events.filter Event.isSkip ++ pull.skip id place

theorem skipsAmong_cons (id : String) (index : Nat) (pull : Pull) (rest : List Pull) :
    skipsAmong id index (pull :: rest) = pull.events.filter Event.isSkip ++
      (pull.skip id index ++ skipsAmong id (index + 1) rest) := by
  rw [skipsAmong, List.zipIdx_cons, List.flatMap_cons, List.append_assoc]
  rfl

theorem tellings_skips (id : String) (pulls : List Pull) (index : Nat) (alive : Nat → Bool) :
    (tellings id pulls index alive).filter Event.isSkip =
      skipsAmong id index (made pulls alive) := by
  induction pulls generalizing index alive with
  | nil =>
    rw [tellings]
    cases alive 0 <;> rfl
  | cons pull rest ih =>
    rw [tellings.eq_def, made.eq_def]
    dsimp only
    cases alive 0 with
    | false => rfl
    | true =>
      simp only [↓reduceIte, List.filter_append]
      cases came : pull.came with
      | error p =>
        rw [if_pos (Pull.isLast_of_error came), skipsAmong_cons, Pull.skip, came]
        rfl
      | ok given =>
        cases given with
        | none =>
          rw [if_pos (Pull.isLast_of_none came), skipsAmong_cons, Pull.skip, came]
          rfl
        | some element =>
          rw [if_neg (ne_true_of_eq_false (Pull.isLast_of_some came)), skipsAmong_cons,
            Pull.skip, came, ← ih]
          cases element <;> rfl

/-- Of events other than its own a sequence tells what its code records while it is pulled. -/
theorem tellings_own {pick : Event → Bool} {id : String}
    (abandoned : pick (.sequenceAbandoned id) = false)
    (panicked : ∀ place p, pick (.sequencePanicked id place p) = false)
    (skipped : ∀ place reason, pick (.elementSkipped id place reason) = false) (pulls : List Pull)
    (index : Nat) (alive : Nat → Bool) :
    (tellings id pulls index alive).filter pick =
      ((made pulls alive).flatMap (·.events)).filter pick := by
  induction pulls generalizing index alive with
  | nil =>
    rw [tellings, made]
    cases alive 0 with
    | false => exact List.filter_cons_of_neg (ne_true_of_eq_false abandoned)
    | true => rfl
  | cons pull rest ih =>
    rw [tellings.eq_def, made.eq_def]
    dsimp only
    cases alive 0 with
    | false => exact List.filter_cons_of_neg (ne_true_of_eq_false abandoned)
    | true =>
      simp only [↓reduceIte, List.filter_append]
      cases came : pull.came with
      | error p =>
        rw [if_pos (Pull.isLast_of_error came), List.flatMap_singleton,
          List.filter_cons_of_neg (ne_true_of_eq_false (panicked _ _)), List.filter_nil,
          List.append_nil]
      | ok given =>
        cases given with
        | none =>
          rw [if_pos (Pull.isLast_of_none came), List.flatMap_singleton, List.filter_nil,
            List.append_nil]
        | some element =>
          rw [if_neg (ne_true_of_eq_false (Pull.isLast_of_some came)),
            List.flatMap_cons, List.filter_append, ← ih (index + 1)]
          cases element with
          | ok j => rfl
          | error reason =>
            exact congrArg _ (List.filter_cons_of_neg (ne_true_of_eq_false (skipped _ _)))

end Encoder

example : Encoder.skips "a" 0 (Encoder.made [⟨[], [], .ok (some (.error "x"))⟩,
    ⟨[], [], .ok (some (.ok .null))⟩, ⟨[], [], .ok (some (.error "y"))⟩,
    ⟨[], [], .ok (some (.error "z"))⟩] (· < 3)) =
    [.elementSkipped "a" 0 "x", .elementSkipped "a" 2 "y"] := rfl

namespace Session.Turn

/-- The pulls that were made in a turn, if its entry came to a sequence. -/
def made (t : Turn) : List Pull :=
  match t.report.result with
  | .ok (.sequence pulls) => Encoder.made pulls (Encoder.aliveIn t.report.id pulls t.writer)
  | _ => []

/-- What the code of the sequence recorded. -/
def late (t : Turn) : List Event := t.made.flatMap (·.events)

theorem told_errors (t : Turn) : t.told.filter Event.isError =
    t.own.filter Event.isError ++ (t.report.failures ++ t.late.filter Event.isError) := by
  obtain ⟨⟨id, commands, result⟩, own, w⟩ := t
  rw [told, List.filter_append, late, Report.failures]
  refine congrArg _ ?_
  rcases result with f | (reason | j) | pulls
  case error | ok.value.error =>
    exact (Event.ofFailure_errors _ _).trans
      ((List.append_nil _).trans (List.flatMap_singleton ..)).symm
  case ok.value.ok => rfl
  case ok.sequence =>
    exact Encoder.tellings_own rfl (fun _ _ => rfl) (fun _ _ => rfl) pulls 0 _

theorem told_skips (t : Turn) : t.told.filter Event.isSkip =
    t.own.filter Event.isSkip ++ Encoder.skipsAmong t.report.id 0 t.made := by
  obtain ⟨⟨id, commands, result⟩, own, w⟩ := t
  rw [told, List.filter_append]
  refine congrArg _ ?_
  rcases result with f | (reason | j) | pulls
  case error | ok.value.error => exact Event.ofFailure_skips _ _
  case ok.value.ok => rfl
  case ok.sequence => exact Encoder.tellings_skips id pulls 0 _

theorem told_outages (t : Turn) :
    t.told.countP Event.isOutage = (t.own ++ t.late).countP Event.isOutage := by
  obtain ⟨⟨id, commands, result⟩, own, w⟩ := t
  rw [told, List.countP_append, List.countP_append]
  refine congrArg _ ?_
  rcases result with f | (reason | j) | pulls
  case error | ok.value.error => exact Event.ofFailure_outages _ _
  case ok.value.ok => rfl
  case ok.sequence =>
    rw [List.countP_eq_length_filter, List.countP_eq_length_filter]
    exact congrArg _ (Encoder.tellings_own rfl (fun _ _ => rfl) (fun _ _ => rfl) pulls 0 _)

end Session.Turn

/-! The log of an outlet, against what has been told. -/

namespace Event

/-- Neither a note of the writer nor said of the transport. -/
def isTold (e : Event) : Bool := !e.isNote && !e.isOutage

theorem isTold_of_error {e : Event} (error : e.isError = true) : e.isTold = true := by
  cases e <;> first | rfl | cases error

theorem isTold_of_skip {e : Event} (skip : e.isSkip = true) : e.isTold = true := by
  cases e <;> first | rfl | cases skip

/-- A pick from what is told is a pick from the whole. -/
theorem pick_told {pick : Event → Bool} (told : ∀ {e : Event}, pick e = true → e.isTold = true)
    (events : List Event) : (events.filter isTold).filter pick = events.filter pick := by
  rw [List.filter_filter]
  refine congrArg (List.filter · events) (funext fun e => ?_)
  cases picked : pick e with
  | false => rfl
  | true => exact told picked

end Event

/-- The log holds what has been told, in its order, and what the writer adds: notes, and at most once
that the transport failed. -/
structure Outlet.Logged (told : List Event) (o : Outlet) : Prop where
  calm : o.Calm
  same : o.log.toList.filter Event.isTold = told.filter Event.isTold
  outages : o.log.toList.countP Event.isOutage =
    told.countP Event.isOutage + if o.broken then 1 else 0

namespace Outlet.Logged

variable {told : List Event}

theorem picks {o : Outlet} (logged : o.Logged told) {pick : Event → Bool}
    (among : ∀ {e : Event}, pick e = true → e.isTold = true) :
    o.log.toList.filter pick = told.filter pick := by
  rw [← Event.pick_told among, logged.same, Event.pick_told among]

/-- A transport that failed just now is logged, and nothing else. -/
theorem fails {o after : Outlet} {e : Event} (logged : o.Logged told) (outage : e.isOutage = true)
    (calm : after.Calm) (whole : o.broken = false) (gone : after.broken = true)
    (log : after.log = o.log.push e) : after.Logged told where
  calm := calm
  same := by
    rw [log, Array.toList_push, List.filter_append, logged.same, List.filter_cons_of_neg]
    · simp
    · simp [Event.isTold, outage]
  outages := by
    rw [log, Array.toList_push, List.countP_append, logged.outages, whole, gone,
      List.countP_singleton, outage]
    rfl

theorem sent (block : Octets) : (Outlet.send block).Maintains (Logged told) := by
  intro o logged
  cases gone : o.broken with
  | true => exact ⟨(), o, send_of_broken gone block, logged⟩
  | false =>
    obtain ⟨after, samePeer, ⟨complete, -⟩ | ⟨reason, -, failed, -, -⟩⟩ :=
      Transport.writeAll_calm block o.transport logged.calm
    all_goals have calm : after.peer.NeverPanics := samePeer ▸ logged.calm
    · exact ⟨(), _, send_of_complete gone complete, calm, logged.same, logged.outages⟩
    · exact ⟨(), _, send_of_failed gone failed, logged.fails rfl calm gone rfl rfl⟩

theorem flushed : Outlet.flush.Maintains (Logged told) := by
  intro o logged
  cases gone : o.broken with
  | true => exact ⟨(), o, flush_of_broken gone, logged⟩
  | false =>
    cases answer : o.transport.peer.onFlush (o.transport.flushes + 1) with
    | ok done =>
      exact ⟨(), _, flush_of_ok gone (Transport.flush_of_ok answer), logged.calm, logged.same,
        logged.outages⟩
    | error reason =>
      exact ⟨(), _, flush_of_error gone (Transport.flush_of_error answer),
        logged.fails rfl logged.calm gone rfl rfl⟩

theorem shut : Outlet.shutdown.Maintains (Logged told) := by
  intro o logged
  cases gone : o.broken with
  | true => exact ⟨(), o, shutdown_of_broken gone, logged⟩
  | false =>
    refine ⟨(), _, shutdown_of_whole gone, ?_, logged.same, logged.outages⟩
    rw [Outlet.Calm, Transport.shutdown_peer]
    exact logged.calm

end Outlet.Logged

namespace Writer

theorem logged_upkeep : Upkeep fun told w => w.outlet.Logged told where
  tell e told w logged := by
    refine ⟨logged.calm, ?_, ?_⟩
    · simp only [logging, Array.toList_push, List.filter_append, logged.same]
    · rw [logging, Array.toList_push, List.countP_append, logged.outages, List.countP_append,
        Nat.add_right_comm]
  note e told w note logged := by
    have other : e.isOutage = false := by cases e <;> first | rfl | cases note
    refine ⟨logged.calm, ?_, ?_⟩
    · rw [logging, Array.toList_push, List.filter_append, logged.same, List.filter_cons_of_neg]
      · simp
      · simp [Event.isTold, note]
    · rw [logging, Array.toList_push, List.countP_append, logged.outages, List.countP_singleton,
        other]
      rfl
  opened _ _ _ _ logged := logged
  changed _ _ _ _ _ _ logged := logged
  pump _ := pump_maintains Outlet.Logged.sent Outlet.Logged.flushed

theorem start_logged {peer : Peer} (calm : peer.NeverPanics) (b : Boundary) (chunkSize : Nat) :
    (Writer.start peer b chunkSize).outlet.Logged [] := ⟨calm, rfl, rfl⟩

theorem finish_logged {told : List Event} : finish.Maintains fun w => w.outlet.Logged told :=
  finish_maintains Outlet.Logged.sent Outlet.Logged.flushed Outlet.Logged.shut

end Writer

/-! The log of a run. -/

def Session.log {ω : Type} (s : Session ω) : List Event := s.desk.writer.outlet.log.toList

namespace Batch

variable {ω : Type}

/-- What code records by itself: that of entries, of sequences and of close hooks. -/
def ownEvents (setting : Setting ω) (world : ω) (body : Octets) (info : RequestInfo) (peer : Peer)
    (boundary : Boundary) (taken : List Taken) : List Event :=
  (turns setting world body info peer boundary).flatMap (fun t => t.own ++ t.late) ++
    (accountOf setting world body info taken).closing.events

theorem faultStory_errors (setting : Setting ω) (world : ω) (body : Octets) (info : RequestInfo)
    (taken : List Taken) :
    (faultStory setting body info).filter Event.isError =
      (accountOf setting world body info taken).fault.toList.flatMap (Event.ofFailure none) := by
  rw [faultStory, accountOf]
  cases Envelope.parse body info with
  | error r =>
    dsimp only
    rw [Option.toList_some, List.flatMap_singleton, Event.ofFailure_errors]
  | ok envelope =>
    dsimp only
    cases (Agenda.start setting.settings.maxEntries envelope.entries).fault? with
    | none => rfl
    | some f =>
      rw [Option.elim, Option.map_some, Option.toList_some, List.flatMap_singleton]
      cases f with
      | tooManyEntries count limit =>
        rw [Session.faultStory, List.filter_cons_of_neg Bool.false_ne_true, Event.ofFailure_errors]
      | panicked message => exact Event.ofFailure_errors _ _

theorem faultStory_quiet (setting : Setting ω) (body : Octets) (info : RequestInfo) :
    (faultStory setting body info).filter Event.isSkip = [] ∧
      (faultStory setting body info).countP Event.isOutage = 0 := by
  rw [faultStory]
  split
  · exact ⟨Event.ofFailure_skips _ _, Event.ofFailure_outages _ _⟩
  · next envelope _ =>
    cases (Agenda.start setting.settings.maxEntries envelope.entries).fault? with
    | none => exact ⟨rfl, rfl⟩
    | some f =>
      cases f with
      | tooManyEntries count limit =>
        refine ⟨?_, ?_⟩
        · rw [Option.elim, Session.faultStory, List.filter_cons_of_neg Bool.false_ne_true,
            Event.ofFailure_skips]
        · rw [Option.elim, Session.faultStory, List.countP_cons_of_neg Bool.false_ne_true,
            Event.ofFailure_outages]
      | panicked message => exact ⟨Event.ofFailure_skips _ _, Event.ofFailure_outages _ _⟩

section Story

variable (setting : Setting ω) (world : ω) (body : Octets) (info : RequestInfo) (peer : Peer)
  (boundary : Boundary) (taken : List Taken)

theorem story_errors :
    (story setting world body info peer boundary taken).filter Event.isError =
      (turns setting world body info peer boundary).flatMap (fun t =>
          t.own.filter Event.isError ++ (t.report.failures ++ t.late.filter Event.isError)) ++
        (accountOf setting world body info taken).fault.toList.flatMap (Event.ofFailure none) ++
        (accountOf setting world body info taken).closing.events.filter Event.isError := by
  rw [story, List.filter_append, List.filter_append, faultStory_errors setting world body info taken,
    List.filter_flatMap]
  simp only [Session.Turn.told_errors]

theorem story_skips :
    (story setting world body info peer boundary taken).filter Event.isSkip =
      (turns setting world body info peer boundary).flatMap (fun t => t.own.filter Event.isSkip ++
          Encoder.skipsAmong t.report.id 0 t.made) ++
        (accountOf setting world body info taken).closing.events.filter Event.isSkip := by
  rw [story, List.filter_append, List.filter_append, (faultStory_quiet setting body info).1,
    List.append_nil, List.filter_flatMap]
  simp only [Session.Turn.told_skips]

theorem story_outages :
    (story setting world body info peer boundary taken).countP Event.isOutage =
      (ownEvents setting world body info peer boundary taken).countP Event.isOutage := by
  rw [story, ownEvents, List.countP_append, List.countP_append, List.countP_append,
    (faultStory_quiet setting body info).2, Nat.add_zero, List.countP_flatMap, List.countP_flatMap]
  simp only [Function.comp_def, Session.Turn.told_outages]

end Story

theorem turns_heads (turns : List Session.Turn) :
    (turns.flatMap fun t => t.own.filter Event.isError ++
        (t.report.failures ++ t.late.filter Event.isError)).countP Event.isHead =
      (turns.flatMap fun t => t.own ++ t.late).countP Event.isHead +
        (turns.map (·.report)).countP (·.result.emitted = .failure) := by
  induction turns with
  | nil => rfl
  | cons t rest ih =>
    simp only [List.flatMap_cons, List.map_cons, List.countP_append, List.countP_cons, ih,
      Event.errors_heads, Report.failures_heads, decide_eq_true_eq]
    omega

/-- What a log holds of failures, of skipped elements and of the transport, whatever the code of modules
records by itself: that stands in its place. -/
structure LogOf (setting : Setting ω) (world : ω) (body : Octets) (info : RequestInfo) (peer : Peer)
    (boundary : Boundary) (taken : List Taken) (log : List Event) : Prop where
  errors : log.filter Event.isError =
    (turns setting world body info peer boundary).flatMap (fun t =>
        t.own.filter Event.isError ++ (t.report.failures ++ t.late.filter Event.isError)) ++
      (accountOf setting world body info taken).fault.toList.flatMap (Event.ofFailure none) ++
      (accountOf setting world body info taken).closing.events.filter Event.isError
  heads : log.countP Event.isHead =
    (ownEvents setting world body info peer boundary taken).countP Event.isHead +
      (accountOf setting world body info taken).summary.failed +
        if (accountOf setting world body info taken).summary.aborted then 1 else 0
  skips : log.filter Event.isSkip =
    (turns setting world body info peer boundary).flatMap (fun t => t.own.filter Event.isSkip ++
        Encoder.skipsAmong t.report.id 0 t.made) ++
      (accountOf setting world body info taken).closing.events.filter Event.isSkip
  outages : log.countP Event.isOutage ≤
    (ownEvents setting world body info peer boundary taken).countP Event.isOutage + 1

theorem logOf_logged (setting : Setting ω) (world : ω) (body : Octets) (info : RequestInfo)
    (peer : Peer) (boundary : Boundary) (taken : List Taken) {o : Outlet}
    (reported : (turns setting world body info peer boundary).map (·.report) =
      (accountOf setting world body info taken).reports)
    (logged : o.Logged (story setting world body info peer boundary taken)) :
    LogOf setting world body info peer boundary taken o.log.toList := by
  have errors := (logged.picks Event.isTold_of_error).trans
    (story_errors setting world body info peer boundary taken)
  refine ⟨errors, ?_, ?_, ?_⟩
  · rw [← Event.errors_heads, errors, List.countP_append, List.countP_append, turns_heads,
      reported, Event.errors_heads, ownEvents, List.countP_append, Account.summary,
      Session.tally]
    cases (accountOf setting world body info taken).fault with
    | none => simp [Summary.start]; omega
    | some f => simp [Summary.start, Event.ofFailure_heads]; omega
  · rw [logged.picks Event.isTold_of_skip, story_skips]
  · rw [logged.outages, story_outages]
    split <;> omega

/-- Nothing of this kind is picked from what code records, if it records none of it. -/
theorem pick_unreserved {pick : Event → Bool} {events : List Event}
    (reserved : ∀ {e : Event}, pick e = true → e.isReserved = true)
    (plain : ∀ e ∈ events, e.isReserved = false) : events.filter pick = [] := by
  refine List.filter_eq_nil_iff.mpr fun e member picked => ?_
  exact nomatch (plain e member).symm.trans (reserved picked)

theorem skipsAmong_plain (id : String) (index : Nat) (pulls : List Pull)
    (plain : ∀ pull ∈ pulls, pull.events.filter Event.isSkip = []) :
    Encoder.skipsAmong id index pulls = Encoder.skips id index pulls := by
  refine List.flatMap_congr fun place member => ?_
  dsimp only
  rw [plain _ (List.fst_mem_of_mem_zipIdx member), List.nil_append]

/-- The log of a run whose modules record nothing of this kind. -/
theorem LogOf.plain {setting : Setting ω} {world : ω} {body : Octets} {info : RequestInfo}
    {peer : Peer} {boundary : Boundary} {taken : List Taken} {log : List Event}
    (logOf : LogOf setting world body info peer boundary taken log)
    (reported : (turns setting world body info peer boundary).map (·.report) =
      (accountOf setting world body info taken).reports)
    (plain : ∀ e ∈ ownEvents setting world body info peer boundary taken, e.isReserved = false) :
    log.filter Event.isError =
        (accountOf setting world body info taken).reports.flatMap Report.failures ++
        (accountOf setting world body info taken).fault.toList.flatMap (Event.ofFailure none) ∧
      log.countP Event.isHead = (accountOf setting world body info taken).summary.failed +
        (if (accountOf setting world body info taken).summary.aborted then 1 else 0) ∧
      log.filter Event.isSkip = (turns setting world body info peer boundary).flatMap
        (fun t => Encoder.skips t.report.id 0 t.made) ∧
      log.countP Event.isOutage ≤ 1 := by
  have error {e : Event} (is : e.isError = true) : e.isReserved = true := by
    simp [Event.isReserved, is]
  have skip {e : Event} (is : e.isSkip = true) : e.isReserved = true := by
    simp [Event.isReserved, is]
  have outage {e : Event} (is : e.isOutage = true) : e.isReserved = true := by
    simp [Event.isReserved, is]
  have closing : ∀ e ∈ (accountOf setting world body info taken).closing.events,
      e.isReserved = false := fun e member => plain e (List.mem_append_right _ member)
  have turned (t : Session.Turn) (member : t ∈ turns setting world body info peer boundary) :
      (∀ e ∈ t.own, e.isReserved = false) ∧ ∀ e ∈ t.late, e.isReserved = false :=
    List.forall_mem_append.mp fun e among =>
      plain e (List.mem_append_left _ (List.mem_flatMap.mpr ⟨t, member, among⟩))
  refine ⟨?_, ?_, ?_, ?_⟩
  · rw [logOf.errors, pick_unreserved error closing, List.append_nil, ← reported, List.flatMap_map]
    refine congrArg (· ++ _) (List.flatMap_congr fun t member => ?_)
    rw [pick_unreserved error (turned t member).1, pick_unreserved error (turned t member).2,
      List.nil_append, List.append_nil]
  · have heads : (ownEvents setting world body info peer boundary taken).countP Event.isHead = 0 := by
      rw [← Event.errors_heads, pick_unreserved error plain, List.countP_nil]
    rw [logOf.heads, heads, Nat.zero_add]
  · rw [logOf.skips, pick_unreserved skip closing, List.append_nil]
    refine List.flatMap_congr fun t member => ?_
    rw [pick_unreserved skip (turned t member).1, List.nil_append]
    refine skipsAmong_plain _ _ _ fun pull pulled => pick_unreserved skip fun e among => ?_
    exact (turned t member).2 e (List.mem_flatMap.mpr ⟨pull, pulled, among⟩)
  · have outages : (ownEvents setting world body info peer boundary taken).countP Event.isOutage =
        0 := by
      rw [List.countP_eq_length_filter, pick_unreserved outage plain, List.length_nil]
    have once := logOf.outages
    omega

/-- Every failure of a run is logged once, over any transport that never panics and whether or not
messages are shown to clients. The errors of the log are, entry by entry, the failure that the entry
came to under its id, and then the fault of the request or the batch under none, each followed by its
causes from the nearest to the root. So there are as many heads as the summary counts failures, and one
more if the batch was aborted. Every element that has no JSON form and is asked for while the transport
is there is reported under its place among all that are pulled, and the transport's failure is
reported at most once. What the code of modules records of this kind by itself comes in addition, in its
place; where it records nothing of this kind, the log holds nothing else. A request that is refused
outright has its rejection in the log. -/
theorem failures_logged_once {peer : Peer} (calm : peer.NeverPanics) (setting : Setting ω)
    (world : ω) (body : Octets) (info : RequestInfo) (boundary : Boundary) :
    (∃ taken after, MayTake setting world body info taken ∧
      (turns setting world body info peer boundary).map (·.report) =
        (accountOf setting world body info taken).reports ∧
      run setting world body info peer boundary =
        .of (accountOf setting world body info taken).closing.outcome after ∧
      after.summary = (accountOf setting world body info taken).summary ∧
      LogOf setting world body info peer boundary taken after.log ∧
      ((∀ e ∈ ownEvents setting world body info peer boundary taken, e.isReserved = false) →
        after.log.filter Event.isError =
          (accountOf setting world body info taken).reports.flatMap Report.failures ++
            (accountOf setting world body info taken).fault.toList.flatMap (Event.ofFailure none) ∧
        after.log.countP Event.isHead =
          after.summary.failed + (if after.summary.aborted then 1 else 0) ∧
        after.log.filter Event.isSkip = (turns setting world body info peer boundary).flatMap
          (fun t => Encoder.skips t.report.id 0 t.made) ∧
        after.log.countP Event.isOutage ≤ 1)) ∧
    ∀ r, ∃ after, reject setting world r peer boundary = .done () after ∧
      after.summary = ⟨0, 0, true⟩ ∧
      after.log.filter Event.isError = Event.ofFailure none (.ofRejection r) ∧
      after.log.filter Event.isSkip = [] ∧ after.log.countP Event.isOutage ≤ 1 := by
  -- every layer keeps the log in agreement with the story so far
  have begun := Writer.start_logged calm boundary setting.settings.chunkSize
  have finished (middle : Session ω) (told : List Event)
      (logged : middle.desk.writer.outlet.Logged told) :
      ∃ after, Session.atWriter Writer.finish middle = .done () after ∧
        after.summary = middle.summary ∧ after.desk.writer.outlet.Logged told := by
    obtain ⟨_, _, ran, w, still, rfl⟩ :=
      Session.atWriter_ends Writer.finish middle _ (Writer.finish_logged _ logged)
    exact ⟨_, ran, rfl, still⟩
  refine ⟨?_, fun r => ?_⟩
  · obtain ⟨taken, may, reported, middle, logged, counted, -, ran⟩ :=
      run_upkeep Writer.logged_upkeep setting world body info peer boundary begun
    have ended : ∃ after, run setting world body info peer boundary =
        .of (accountOf setting world body info taken).closing.outcome after ∧
        after.summary = (accountOf setting world body info taken).summary ∧
        after.desk.writer.outlet.Logged (story setting world body info peer boundary taken) := by
      rw [ran]
      cases (accountOf setting world body info taken).closing.outcome with
      | ok _ =>
        obtain ⟨after, ended, same, still⟩ := finished middle _ logged
        exact ⟨after, ended, same.trans counted, still⟩
      | error p => exact ⟨middle, rfl, counted, logged⟩
    obtain ⟨after, ran, counted, logged⟩ := ended
    have log := logOf_logged setting world body info peer boundary taken reported logged
    refine ⟨taken, after, may, reported, ran, counted, log, fun plain => ?_⟩
    rw [counted]
    exact log.plain reported plain
  · obtain ⟨middle, logged, -, counted, ran⟩ := reject_upkeep Writer.logged_upkeep setting world r
      peer boundary begun
    obtain ⟨after, ended, same, still⟩ := finished middle _ logged
    refine ⟨after, ran.trans ended, same.trans counted, ?_, ?_, ?_⟩
    · exact (still.picks Event.isTold_of_error).trans (Event.ofFailure_errors _ _)
    · exact (still.picks Event.isTold_of_skip).trans (Event.ofFailure_skips _ _)
    · rw [Session.log, still.outages, Event.ofFailure_outages]
      split <;> omega

def hauntedTurns : List Taken :=
  wholeTurns noteSetting (Agenda.start (some 2) hauntedEntries).admitted (.start noteSetting.order 0)

/-- Three entries where two are allowed, the second of which nobody answers, over a peer that fails at
the second write. -/
theorem failures_of_haunted_request :
    (Peer.scripted ⟨some 2, none, none, none, none, false⟩).NeverPanics ∧
    ∃ after, run noteSetting 0 hauntedRequest ⟨some "application/json", true⟩
        (.scripted ⟨some 2, none, none, none, none, false⟩) ⟨"b"⟩ = .done () after ∧
      after.log.filter Event.isError =
        [.failed (some "c") 400 "Invalid namespace",
         .causedBy (some "c") (.load (.unknownNamespace "ghost")),
         .failed none 400 "Too many operations",
         .causedBy none (.fault (.tooManyEntries 3 2))] ∧
      after.log.countP Event.isHead = 2 ∧ after.log.countP Event.isOutage ≤ 1 := by
  have calm := Peer.scripted_never_panics ⟨some 2, none, none, none, none, false⟩ rfl
  obtain ⟨⟨taken, after, may, -, ran, counted, -, literal⟩, -⟩ := failures_logged_once calm
    noteSetting 0 hauntedRequest ⟨some "application/json", true⟩ ⟨"b"⟩
  obtain ⟨entries, fits⟩ := may _ hauntedRequest_accepted
  have single : hauntedTurns.all (·.pulled == 0) = true := by decide +kernel
  obtain rfl : taken = hauntedTurns := eq_wholeTurns entries fits fun t member =>
    eq_of_beq (List.all_eq_true.mp single t member)
  have plain : (ownEvents noteSetting 0 hauntedRequest ⟨some "application/json", true⟩
      (.scripted ⟨some 2, none, none, none, none, false⟩) ⟨"b"⟩ hauntedTurns).all
        (fun e => !e.isReserved) = true := by
    rw [ownEvents, turns, accountOf, hauntedRequest_accepted]
    decide +kernel
  obtain ⟨errors, heads, -, once⟩ := literal fun e member => by
    simpa using List.all_eq_true.mp plain e member
  simp only [accountOf, hauntedRequest_accepted] at ran counted errors
  refine ⟨calm, after, ran, ?_, ?_, once⟩
  · rw [errors]
    decide +kernel
  · rw [heads, counted]
    decide +kernel

end Batch
end Multicall
