import Multicall.Proofs.Pulls
import Multicall.Proofs.RelayOrder
/-!
The turns of a batch. What the entries of a batch do is known before any of it is carried out, as
reports: the part commands each entry sends, the result it comes to, and the part commands that its
sequence sends while that is written. Those stay queued and are carried out in the next turn, so
between two turns a session owes what is left in its queue. Over a peer that takes everything the
turns end, with the sheets that the reports name, as many entries as the limit admits, and the counts
of their results.
-/
namespace Multicall

/-- A part of a response as its reader finds it. -/
structure ResponsePart where
  mime : String
  body : Octets
  deriving DecidableEq

def ResponsePart.octets (b : Boundary) (p : ResponsePart) : Octets :=
  Octets.ofText ("--" ++ b.token ++ "\r\nContent-Type: " ++ p.mime ++ "\r\n\r\n") ++ p.body ++
    Octets.ofText "\r\n"

/-- What processing an entry comes to: the commands it sends on the way, and its result. -/
structure Report where
  id : String
  commands : List PartCommand
  result : Answer

namespace Report

/-- What the entry sends behind its result, while the sequence is pulled that it has handed back. -/
def behind (r : Report) : List PartCommand := r.result.commands

/-- All that an entry sends. -/
def sent (r : Report) : List PartCommand := r.commands ++ r.behind

/-- What is written to a stream up to its first close. No sink opens a stream twice; if a stream
were opened again, its earlier part would end there as well. -/
def written (stream : StreamId) : List PartCommand → Octets
  | [] => []
  | .openPart other _ :: rest => if other = stream then [] else written stream rest
  | .write other bytes :: rest =>
      if other = stream then bytes ++ written stream rest else written stream rest
  | .close other :: rest => if other = stream then [] else written stream rest

/-- The parts that commands open, in the order of the openings; `later` is what is sent after them,
for a part may be written to as long as the batch lasts. -/
def moduleParts (later : List PartCommand) : List PartCommand → List ResponsePart
  | [] => []
  | .openPart stream mime :: rest =>
      ⟨mime, written stream (rest ++ later)⟩ :: moduleParts later rest
  | .write _ _ :: rest | .close _ :: rest => moduleParts later rest

def resultPart (debug : Bool) (r : Report) : ResponsePart :=
  ⟨"application/json", (Json.object [(r.id, r.result.body debug)]).octets⟩

/-- The parts of a response: for each entry those it opened, then the one with its result, then those
that its sequence opened while the result was written. -/
def parts (debug : Bool) : List Report → List ResponsePart
  | [] => []
  | r :: rest =>
      moduleParts (r.behind ++ rest.flatMap (·.sent)) r.commands ++ r.resultPart debug ::
        (moduleParts (rest.flatMap (·.sent)) r.behind ++ parts debug rest)

/-- The parts of reports when more commands are to come behind them. -/
def partsThen (debug : Bool) (later : List PartCommand) : List Report → List ResponsePart
  | [] => []
  | r :: rest =>
      moduleParts (r.behind ++ (rest.flatMap (·.sent) ++ later)) r.commands ++ r.resultPart debug ::
        (moduleParts (rest.flatMap (·.sent) ++ later) r.behind ++ partsThen debug later rest)

theorem parts_eq_partsThen (debug : Bool) (reports : List Report) :
    parts debug reports = partsThen debug [] reports := by
  induction reports with
  | nil => rfl
  | cons r rest ih => rw [parts, partsThen, ih, List.append_nil]

end Report

namespace Batch

variable {ω : Type}

/-- What a course hands back. A course that panicked would hand back the panic; processing an entry
never does. -/
def resultOf (c : Course (Workshop ω) (EntryResult ω)) : EntryResult ω :=
  match c.outcome with
  | .ok result => result
  | .error p => .error (.ofPanic p)

def courseOf (setting : Setting ω) (id : String) (body : Json) (w : Workshop ω) :
    Course (Workshop ω) (EntryResult ω) :=
  Entry.process setting.registry ⟨setting.settings, setting.app, ⟨true⟩⟩ id body w

/-- The report of a course. A sequence is told from the state that the course ends in. -/
def reportOf (patience : Nat) (id : String) (c : Course (Workshop ω) (EntryResult ω)) : Report where
  id := id
  commands := c.commands
  result := (resultOf c).answer patience c.finalState.modules

/-- The state of the workshop when the sequence that a course hands back has been pulled so often. -/
def pulledBy (c : Course (Workshop ω) (EntryResult ω)) (count : Nat) : Workshop ω :=
  c.finalState.moved ((resultOf c).after count c.finalState.modules)

/-- The state of the workshop behind the turn of an entry. -/
def leftBy (patience : Nat) (c : Course (Workshop ω) (EntryResult ω)) : Workshop ω :=
  pulledBy c ((resultOf c).pulls patience c.finalState.modules).length

/-- The reports of entries one after the other, and the state of the workshop after them. -/
def reports (setting : Setting ω) : Members → Workshop ω → List Report × Workshop ω
  | [], w => ([], w)
  | (id, body) :: rest, w =>
      let course := courseOf setting id body w
      let (later, last) := reports setting rest (leftBy setting.patience course)
      (reportOf setting.patience id course :: later, last)

end Batch

/-- The turn of an entry, and how often the sequence has been pulled that it came to, if it came to
one. That depends on the transport, and so may whatever the modules do behind it. -/
structure Taken where
  id : String
  body : Json
  pulled : Nat

def Taken.entry (t : Taken) : String × Json := (t.id, t.body)

namespace Batch

variable {ω : Type}

/-- The reports of turns one after the other. -/
def reportsOf (setting : Setting ω) : List Taken → Workshop ω → List Report
  | [], _ => []
  | t :: rest, w =>
      reportOf setting.patience t.id (courseOf setting t.id t.body w) ::
        reportsOf setting rest (pulledBy (courseOf setting t.id t.body w) t.pulled)

/-- The workshop behind turns one after the other. -/
def workshopBehind (setting : Setting ω) : List Taken → Workshop ω → Workshop ω
  | [], w => w
  | t :: rest, w => workshopBehind setting rest (pulledBy (courseOf setting t.id t.body w) t.pulled)

/-- No sequence has been pulled any more when it had come to its end. -/
def Fits (setting : Setting ω) : List Taken → Workshop ω → Prop
  | [], _ => True
  | t :: rest, w =>
      let course := courseOf setting t.id t.body w
      t.pulled ≤ ((resultOf course).pulls setting.patience course.finalState.modules).length ∧
        Fits setting rest (pulledBy course t.pulled)

/-- The turns of entries whose sequences have all been pulled up to their ends. -/
def wholeTurns (setting : Setting ω) : Members → Workshop ω → List Taken
  | [], _ => []
  | (id, body) :: rest, w =>
      let course := courseOf setting id body w
      ⟨id, body, ((resultOf course).pulls setting.patience course.finalState.modules).length⟩ ::
        wholeTurns setting rest (leftBy setting.patience course)

theorem workshopBehind_whole (setting : Setting ω) (entries : Members) (w : Workshop ω) :
    workshopBehind setting (wholeTurns setting entries w) w = (reports setting entries w).2 := by
  induction entries generalizing w with
  | nil => rfl
  | cons entry rest ih =>
    obtain ⟨id, body⟩ := entry
    exact ih _

theorem wholeTurns_entries (setting : Setting ω) (entries : Members) (w : Workshop ω) :
    (wholeTurns setting entries w).map (·.entry) = entries := by
  induction entries generalizing w with
  | nil => rfl
  | cons entry rest ih =>
    obtain ⟨id, body⟩ := entry
    exact congrArg _ (ih _)

theorem wholeTurns_fits (setting : Setting ω) (entries : Members) (w : Workshop ω) :
    Fits setting (wholeTurns setting entries w) w := by
  induction entries generalizing w with
  | nil => trivial
  | cons entry rest ih =>
    obtain ⟨id, body⟩ := entry
    exact ⟨Nat.le_refl _, ih _⟩

/-- Where no entry comes to a sequence, there is one way to take the turns. -/
theorem eq_wholeTurns {setting : Setting ω} {entries : Members} {turns : List Taken}
    {w : Workshop ω} (taken : turns.map (·.entry) = entries) (fits : Fits setting turns w)
    (plain : ∀ t ∈ wholeTurns setting entries w, t.pulled = 0) :
    turns = wholeTurns setting entries w := by
  induction turns generalizing entries w with
  | nil =>
    cases taken
    rfl
  | cons t rest ih =>
    obtain ⟨id, body, pulled⟩ := t
    subst taken
    obtain ⟨first, later⟩ := List.forall_mem_cons.mp plain
    have unpulled : pulled = 0 := Nat.le_zero.mp (Nat.le_trans fits.1 (Nat.le_of_eq first))
    have whole := first.trans unpulled.symm
    dsimp only at whole
    subst whole
    exact congrArg _ (ih rfl fits.2 later)

end Batch

namespace Sheet

def finished (later : List PartCommand) (s : Sheet) : ResponsePart where
  mime := s.mime
  body := s.body ++ match s.owner with
    | some stream => Report.written stream later
    | none => []

theorem finished_after (c : PartCommand) (later : List PartCommand) (s : Sheet) :
    (s.after c).finished later = s.finished (c :: later) := by
  obtain ⟨mime, body, owner, closed⟩ := s
  cases owner with
  | none => cases c <;> simp [after, finished]
  | some own =>
    cases c with
    | openPart stream mime =>
      by_cases same : own = stream <;> simp [after, finished, Report.written, same, eq_comm]
    | write stream bytes =>
      by_cases same : own = stream <;> simp [after, finished, Report.written, add, same, eq_comm]
    | close stream =>
      by_cases same : own = stream <;> simp [after, finished, Report.written, same, eq_comm]

/-- Carrying out commands finishes the sheets that are there and adds the parts they open. -/
theorem finished_carryOut (commands later : List PartCommand) (sheets : List Sheet) :
    (carryOut commands sheets).map (finished later) =
      sheets.map (finished (commands ++ later)) ++ Report.moduleParts later commands := by
  induction commands generalizing sheets with
  | nil => simp [carryOut, Report.moduleParts]
  | cons c rest ih =>
    have one : carryOut (c :: rest) sheets = carryOut rest (next sheets c) := rfl
    rw [one, ih, next, List.map_append, List.map_map]
    have finishedAfter : finished (rest ++ later) ∘ after c = finished (c :: rest ++ later) :=
      funext fun s => finished_after c _ s
    rw [finishedAfter]
    cases c <;> simp [begun, Report.moduleParts, finished]

def afterReports (debug : Bool) : List Report → List Sheet → List Sheet
  | [], sheets => sheets
  | r :: rest, sheets =>
      afterReports debug rest (carryOut r.behind
        (carryOut r.commands sheets ++ [.json (Encoder.keyed r.id (r.result.body debug)).octets]))

theorem finished_partsThen (debug : Bool) (reports : List Report) (later : List PartCommand)
    (sheets : List Sheet) :
    (afterReports debug reports sheets).map (finished later) =
      sheets.map (finished (reports.flatMap (·.sent) ++ later)) ++
        Report.partsThen debug later reports := by
  induction reports generalizing sheets with
  | nil => simp [afterReports, Report.partsThen]
  | cons r rest ih =>
    rw [afterReports, ih, finished_carryOut, List.map_append, finished_carryOut]
    simp [Report.partsThen, Report.resultPart, Report.sent, finished, json, jsonMime, Encoder.keyed]

theorem octets_finished (b : Boundary) (s : Sheet) : (s.finished []).octets b = s.ended.octets b := by
  have nothing : (s.finished []).body = s.body := by
    simp only [finished]
    cases s.owner <;> simp [Report.written]
  rw [ResponsePart.octets, nothing]
  rfl

end Sheet

namespace Course

variable {σ α β : Type}

theorem attempt_andThen_outcome (f : Except Panic α → σ → Course σ β)
    (calm : ∀ result s, ∃ b, (f result s).outcome = .ok b) (c : Course σ α) :
    ∃ b, (c.attempt.andThen f).outcome = .ok b := by
  induction c with
  | ended outcome s => exact calm outcome s
  | send c next ih => exact ih
  | record e next ih => exact ih
  | suspend s next ih => exact ih

end Course

namespace Batch

variable {ω : Type}

theorem courseOf_outcome (setting : Setting ω) (id : String) (body : Json) (w : Workshop ω) :
    (courseOf setting id body w).outcome = .ok (resultOf (courseOf setting id body w)) := by
  have ends : ∃ result, (courseOf setting id body w).outcome = .ok result := by
    apply Course.attempt_andThen_outcome
    intro result s
    cases result with
    | ok result => exact ⟨result, rfl⟩
    | error p => exact ⟨.error (.ofPanic p), rfl⟩
  obtain ⟨result, ended⟩ := ends
  rw [resultOf, ended]

end Batch

namespace Encoder

theorem emitFault_ends {b : Boundary} {sheets : List Sheet} {w : Writer} (debug : Bool) (f : Failure)
    (keeps : w.Keeps b sheets) :
    (emitFault debug f).Ends w fun _ after =>
      after.Keeps b (sheets ++ [.json (failureBody debug f).octets]) := by
  apply (recordAll_ends _ keeps.floats).bind
  intro _ noted floats
  refine (Action.Goes.ends ((writePart_goes _ floats).weaken (fun _ _ => id) ?_)).weaken ?_
  · rintro after ⟨_, -, struck⟩
    exact struck.struck
  · intro _ after floats
    exact floats.clear

end Encoder

namespace Course

variable {σ α : Type}

/-- The states that a course shows, up to the one at its end. -/
def states : Course σ α → List σ
  | ended _ s => [s]
  | send _ next => next.states
  | record _ next => next.states
  | suspend s next => s :: next.states

theorem finalState_mem_states (c : Course σ α) : c.finalState ∈ c.states := by
  induction c with
  | ended outcome s => exact List.mem_singleton_self s
  | send c next ih => exact ih
  | record e next ih => exact ih
  | suspend s next ih => exact List.mem_cons_of_mem s ih

end Course

namespace Session

open Multicall.Action

variable {ω α : Type}

def delivered (s : Session ω) : Octets := s.desk.writer.outlet.transport.accepted.toList

structure Settled (b : Boundary) (s : Session ω) (sheets : List Sheet) : Prop where
  shown : s.desk.Shows b sheets
  drained : s.desk.relay.queue = []

theorem start_settled (setting : Setting ω) (world : ω) (peer : Peer) (b : Boundary)
    (takesAll : peer.TakesAll) : (start setting world peer b).Settled b [] :=
  ⟨⟨Writer.start_keeps peer b _ takesAll, fun stream handle => by
    simp [start, Relay.start, Relay.handle?], by simp⟩, rfl⟩

/-- No panic has struck, the desk shows these sheets and nothing is queued. -/
structure Rests (way : Way) (b : Boundary) (s : Session ω) (sheets : List Sheet) : Prop where
  floats : s.desk.Floats way b sheets
  drained : s.desk.relay.queue = []

theorem Settled.rests {b : Boundary} {s : Session ω} {sheets : List Sheet}
    (settled : s.Settled b sheets) : s.Rests .clear b sheets :=
  ⟨settled.shown.floats, settled.drained⟩

theorem Rests.settled {b : Boundary} {s : Session ω} {sheets : List Sheet}
    (rests : s.Rests .clear b sheets) : s.Settled b sheets :=
  ⟨rests.floats.clear, rests.drained⟩

theorem start_rests (way : Way) (setting : Setting ω) (world : ω) (peer : Peer) (b : Boundary)
    (sound : way.sound ⟨.start peer, false, 0, #[]⟩) :
    (start setting world peer b).Rests way b [] :=
  ⟨⟨sound, (start_settled setting world .accepting b Peer.accepting_takes_all).shown⟩, rfl⟩

theorem atDesk_ends (m : Action Desk α) (s : Session ω) (after : α → Desk → Prop)
    (ends : m.Ends s.desk after) :
    (atDesk m : Action (Session ω) α).Ends s fun a last =>
      ∃ d, after a d ∧ last = { s with desk := d } :=
  Action.Ends.within ends

theorem atWriter_ends (m : Action Writer α) (s : Session ω) (after : α → Writer → Prop)
    (ends : m.Ends s.desk.writer after) :
    (atWriter m : Action (Session ω) α).Ends s fun a last =>
      ∃ w, after a w ∧ last = { s with desk := ⟨w, s.desk.relay⟩ } := by
  have onDesk : (Action.within Desk.onWriter m).Ends s.desk fun a d =>
      ∃ w, after a w ∧ d = ⟨w, s.desk.relay⟩ := ends.within
  apply (atDesk_ends _ s _ onDesk).weaken
  rintro a _ ⟨_, ⟨w, holds, rfl⟩, rfl⟩
  exact ⟨w, holds, rfl⟩

theorem atDesk_goes {after : α → Desk → Prop} {stopped : Desk → Prop} (m : Action Desk α)
    (s : Session ω) (goes : m.Goes s.desk after stopped) :
    (atDesk m : Action (Session ω) α).Goes s
      (fun a last => ∃ d, after a d ∧ last = { s with desk := d })
      fun last => ∃ d, stopped d ∧ last = { s with desk := d } :=
  Goes.within goes

section

variable {way : Way} {b : Boundary} {sheets : List Sheet} {commands : List PartCommand}
  {s : Session ω}

/-- A panic has struck while these commands were applied. The workshop shows one of these states. -/
structure Halted (way : Way) (b : Boundary) (sheets : List Sheet) (commands : List PartCommand)
    (states : List (Workshop ω)) (counts : Summary) (after : Session ω) : Prop where
  sunk : ∃ sofar, sofar <+: commands ∧ after.desk.Sunk way b sheets sofar
  workshop : after.workshop ∈ states
  summary : after.summary = counts

/-- Carrying out a course, with its suspensions, comes to carrying its commands, whether the course
ends or panics, unless a panic of the transport strikes. -/
theorem follow_exits (c : Course (Workshop ω) α) (s : Session ω)
    (carries : s.desk.Carries way b sheets commands) :
    (follow c).Exits s c.outcome
      (fun after => after.desk.Carries way b sheets (commands ++ c.commands) ∧
        after.workshop = c.finalState ∧ after.summary = s.summary)
      (Halted way b sheets (commands ++ c.commands) (s.workshop :: c.states) s.summary) := by
  induction c generalizing s commands with
  | ended outcome w =>
    rw [Course.commands, List.append_nil]
    cases outcome with
    | ok a => exact .inl ⟨{ s with workshop := w }, rfl, carries, rfl, rfl⟩
    | error p => exact .inl ⟨{ s with workshop := w }, rfl, carries, rfl, rfl⟩
  | send c next ih =>
    refine (atDesk_ends _ s _ (Desk.enqueue_ends c carries)).goes.then_exits ?_
    rintro _ _ ⟨d, carries, rfl⟩
    rw [Course.commands, List.append_cons]
    exact ih { s with desk := d } carries
  | record e next ih =>
    refine (atDesk_ends _ s _ (Desk.record_ends e carries)).goes.then_exits ?_
    rintro _ _ ⟨d, carries, rfl⟩
    exact ih { s with desk := d } carries
  | suspend w next ih =>
    have moved : (setWorkshop w).Ends s fun _ after => after = { s with workshop := w } :=
      ends_modify _ _ _ rfl
    refine moved.goes.then_exits ?_
    rintro _ _ rfl
    refine ((atDesk_goes _ { s with workshop := w } (Desk.step_goes carries)).weaken
      (fun _ _ same => same) ?_).then_exits ?_
    · rintro _ ⟨d, sunk, rfl⟩
      exact ⟨⟨commands, List.prefix_append _ _, sunk⟩, by simp [Course.states], rfl⟩
    · rintro _ _ ⟨d, carries, rfl⟩
      rcases ih { s with workshop := w, desk := d } carries with came | ⟨p, t, ran, halted⟩
      · exact .inl came
      · exact .inr ⟨p, t, ran, halted.sunk, List.mem_cons_of_mem _ halted.workshop, halted.summary⟩

theorem Rests.carries (rests : s.Rests way b sheets) : s.desk.Carries way b sheets [] :=
  ⟨[], by rw [rests.drained]; rfl, rests.floats⟩

theorem drain_goes (carries : s.desk.Carries way b sheets commands) :
    (atDesk Desk.drain : Action (Session ω) Unit).Goes s
      (fun _ after => after.Rests way b (Sheet.carryOut commands sheets) ∧
        after.workshop = s.workshop ∧ after.summary = s.summary)
      (Halted way b sheets commands [s.workshop] s.summary) := by
  refine (atDesk_goes _ s (Desk.drain_goes carries)).weaken ?_ ?_
  · rintro _ _ ⟨d, ⟨floats, empty⟩, rfl⟩
    exact ⟨⟨floats, empty⟩, rfl, rfl⟩
  · rintro _ ⟨d, sunk, rfl⟩
    exact ⟨⟨commands, List.prefix_rfl, sunk⟩, List.mem_singleton_self _, rfl⟩

/-- No panic has struck, the desk shows these sheets, and these commands are queued. -/
structure Trails (way : Way) (b : Boundary) (s : Session ω) (sheets : List Sheet)
    (late : List PartCommand) : Prop where
  floats : s.desk.Floats way b sheets
  queued : s.desk.relay.queue = late

/-- No panic has struck, and the desk shows these sheets as soon as the queue is carried out. -/
def Owes (way : Way) (b : Boundary) (s : Session ω) (sheets : List Sheet) : Prop :=
  ∃ written late, s.Trails way b written late ∧ Sheet.carryOut late written = sheets

theorem Rests.trails (rests : s.Rests way b sheets) : s.Trails way b sheets [] :=
  ⟨rests.floats, rests.drained⟩

theorem Rests.owes (rests : s.Rests way b sheets) : s.Owes way b sheets :=
  ⟨sheets, [], rests.trails, rfl⟩

section

variable {written : List Sheet} {late : List PartCommand}

theorem Trails.carries (trails : s.Trails way b written late) :
    s.desk.Carries way b written late :=
  trails.queued ▸ trails.floats.carries

theorem Trails.owes (trails : s.Trails way b written late) :
    s.Owes way b (Sheet.carryOut late written) :=
  ⟨written, late, trails, rfl⟩

end

theorem drain_of_drained (drained : s.desk.relay.queue = []) :
    (atDesk Desk.drain : Action (Session ω) Unit) s = .done () s := by
  show Action.within onDesk Desk.drain s = _
  have nothing : Desk.drain s.desk = .done () s.desk := by
    show Desk.drainList s.desk.relay.queue s.desk = _
    rw [drained]
    rfl
  rw [within_apply, show (onDesk s).1 = s.desk from rfl, nothing]
  rfl

theorem Halted.not_clear {states : List (Workshop ω)} {counts : Summary}
    (halted : s.Halted .clear b sheets commands states counts) : False := by
  obtain ⟨_, -, sunk⟩ := halted.sunk
  exact sunk.not_clear

theorem runAlongside_goes (code : BatchCode ω α) {written : List Sheet} {late : List PartCommand}
    (trails : s.Trails way b written late) (a : α) (ended : (code s.workshop).outcome = .ok a) :
    (runAlongside code).Goes s
      (fun answer after => answer = a ∧
        after.Rests way b (Sheet.carryOut (late ++ (code s.workshop).commands) written) ∧
        after.workshop = (code s.workshop).finalState ∧ after.summary = s.summary)
      (Halted way b written (late ++ (code s.workshop).commands)
        (s.workshop :: (code s.workshop).states) s.summary) := by
  have followed := follow_exits (code s.workshop) s trails.carries
  rw [ended] at followed
  refine goes_get_bind _ _ (followed.goes.bind ?_)
  rintro _ middle ⟨rfl, carries, reached, counted⟩
  refine ((drain_goes carries).weaken (fun _ _ => id) ?_).bind ?_
  · rintro after ⟨sunk, same, untouched⟩
    refine ⟨sunk, ?_, untouched.trans counted⟩
    rw [List.mem_singleton.mp same, reached]
    exact List.mem_cons_of_mem _ (Course.finalState_mem_states _)
  · rintro _ after ⟨rests, same, untouched⟩
    exact goes_pure _ _ ⟨rfl, rests, same.trans reached, untouched.trans counted⟩

/-- A panic has struck while the part with a result was written; what the sequence has sent so far is
queued. -/
structure Torn (way : Way) (b : Boundary) (sheets : List Sheet) (text : Octets)
    (late : List PartCommand) (after : Session ω) : Prop where
  struck : ∃ part : Sheet, part.Begins text ∧ after.desk.Struck way b (sheets ++ [part])
  queued : after.desk.relay.queue <+: late

/-- The part of a result stands behind all others, and what its sequence has sent is queued. -/
theorem emit_goes (debug : Bool) (patience : Nat) (id : String) (result : EntryResult ω)
    (rests : s.Rests way b sheets) :
    (emit debug patience id result).Goes s
      (fun answer after =>
        answer.1 = (result.answer patience s.workshop.modules).emitted ∧
        after.Trails way b (sheets ++ [.json (Encoder.keyed id
            ((result.answer patience s.workshop.modules).body debug)).octets])
          (result.answer patience s.workshop.modules).commands ∧
        after.workshop = s.workshop.moved (result.after
          (result.pulls patience s.workshop.modules).length s.workshop.modules) ∧
        after.summary = s.summary)
      (fun after =>
        after.Torn way b sheets (Encoder.keyed id
            ((result.answer patience s.workshop.modules).body debug)).octets
          (result.answer patience s.workshop.modules).commands ∧
        (∃ count ≤ (result.pulls patience s.workshop.modules).length,
          after.workshop = s.workshop.moved (result.after count s.workshop.modules)) ∧
        after.summary = s.summary) := by
  obtain ⟨count, bound, same, all⟩ := emit_told debug patience id result s
  rw [EntryResult.commands_answer]
  have written := (Encoder.emitAnswer_goes debug id (result.answer patience s.workshop.modules)
    (w := s.desk.writer) ⟨rests.floats.sound, rests.floats.shown.keeps⟩).and_answers
      (Encoder.emitAnswer_answers debug id _)
  rw [Goes, same]
  have queue (late : List PartCommand) : s.desk.relay.queue ++ late = late := by
    rw [rests.drained, List.nil_append]
  rcases written with ⟨answer, w, ran, counted, still⟩ | ⟨p, w, ran, part, begins, cut⟩
  · -- the transport is still there, so all pulls were made
    rw [all answer w ran (way.whole _ still.sound), List.take_length]
    refine .inl ⟨answer, _, atWriter_done ran, counted.1, ?_, rfl, rfl⟩
    have shows := rests.floats.shown.unowned rfl still.keeps
    exact ⟨⟨still.sound, shows.with_queue _⟩, queue _⟩
  · obtain ⟨struck, lost, kept, torn⟩ := cut
    have shows := rests.floats.shown.unowned begins.owner kept
    refine .inr ⟨p, _, atWriter_panicked ran, ⟨⟨part, begins, struck, lost, shows.with_queue _, torn⟩,
      ?_⟩, ⟨count, bound, rfl⟩, rfl⟩
    show s.desk.relay.queue ++ _ <+: _
    rw [queue]
    refine ⟨((result.pulls patience s.workshop.modules).drop count).flatMap (·.commands), ?_⟩
    rw [← List.flatMap_append, List.take_append_drop]

/-- A panic has struck during the turn of an entry: while commands were applied, those first that were
still queued, or while the part with its result was written behind them. -/
inductive Interrupted (way : Way) (b : Boundary) (debug : Bool) (written : List Sheet)
    (late : List PartCommand) (r : Report) (states : List (Workshop ω)) (counts : Summary)
    (after : Session ω) : Prop
  | sending (halted : after.Halted way b written (late ++ r.commands) states counts)
  | answering (torn : after.Torn way b (Sheet.carryOut (late ++ r.commands) written)
        (Encoder.keyed r.id (r.result.body debug)).octets r.behind)
      (workshop : after.workshop ∈ states) (summary : after.summary = counts)

end

end Session

namespace Batch

variable {ω : Type}

/-- The states that the workshop shows during the turn of an entry. -/
def statesOf (patience : Nat) (c : Course (Workshop ω) (EntryResult ω)) : List (Workshop ω) :=
  c.states ++ (List.range (((resultOf c).pulls patience c.finalState.modules).length + 1)).map
    (pulledBy c)

theorem pulledBy_mem_statesOf {patience count : Nat} {c : Course (Workshop ω) (EntryResult ω)}
    (bound : count ≤ ((resultOf c).pulls patience c.finalState.modules).length) :
    pulledBy c count ∈ statesOf patience c :=
  List.mem_append_right _ (List.mem_map_of_mem (List.mem_range.mpr (Nat.lt_succ_of_le bound)))

end Batch

namespace Session

open Multicall.Action

variable {ω α : Type} {way : Way} {b : Boundary} {sheets : List Sheet} {s : Session ω}

/-- Following a course does to a session what its commands, its events and its suspensions do. -/
theorem follow_leaves {κ : Type} {view : Session ω → κ}
    (workshop : ∀ w, (setWorkshop w).Leaves view)
    (enqueue : ∀ c, (atDesk (Desk.enqueue c)).Leaves view)
    (record : ∀ e, (atDesk (Desk.record e)).Leaves view) (step : (atDesk Desk.step).Leaves view)
    (c : Course (Workshop ω) α) : (follow c).Leaves view := by
  induction c with
  | ended outcome w =>
    cases outcome with
    | ok a => exact (workshop w).bind fun _ => leaves_pure a
    | error p => exact (workshop w).bind fun _ => fun _ => rfl
  | send c next ih => exact (enqueue c).bind fun _ => ih
  | record e next ih => exact (record e).bind fun _ => ih
  | suspend w next ih => exact (workshop w).bind fun _ => step.bind fun _ => ih

/-! Only the turn of an entry may say that a sequence has been cut short. -/

theorem atDesk_leaves_exhausted (m : Action Desk α) :
    (atDesk m : Action (Session ω) α).Leaves exhausted := leaves_within fun _ => rfl

theorem follow_leaves_exhausted (c : Course (Workshop ω) α) : (follow c).Leaves exhausted :=
  follow_leaves (fun _ => leaves_modify fun _ => rfl) (fun _ => atDesk_leaves_exhausted _)
    (fun _ => atDesk_leaves_exhausted _) (atDesk_leaves_exhausted _) c

theorem runAlongside_leaves_exhausted (code : BatchCode ω α) :
    (runAlongside code).Leaves exhausted :=
  leaves_get_bind fun _ => (follow_leaves_exhausted _).bind fun _ =>
    (atDesk_leaves_exhausted _).bind fun _ => leaves_pure _

theorem conclude_leaves_exhausted : (conclude : Action (Session ω) Unit).Leaves exhausted :=
  leaves_get_bind fun _ => (follow_leaves_exhausted _).bind fun _ =>
    (atDesk_leaves_exhausted _).bind fun _ => atDesk_leaves_exhausted _

theorem abort_leaves_exhausted (debug : Bool) (f : BatchFault) :
    (abort debug f : Action (Session ω) Unit).Leaves exhausted :=
  Leaves.bind (leaves_modify fun _ => rfl) fun _ => atDesk_leaves_exhausted _

theorem refuse_leaves_exhausted (debug : Bool) (r : Rejection) :
    (refuse debug r : Action (Session ω) Unit).Leaves exhausted :=
  (atDesk_leaves_exhausted _).bind fun _ =>
    Leaves.bind (leaves_modify fun _ => rfl) fun _ => atDesk_leaves_exhausted _

theorem guarded_leaves_exhausted (debug : Bool) {m next : Action (Session ω) Unit}
    (first : m.Leaves exhausted) (second : next.Leaves exhausted) :
    (guarded debug m next).Leaves exhausted := by
  refine first.attempt.bind fun result => ?_
  cases result with
  | ok _ => exact second
  | error p => exact abort_leaves_exhausted debug _

theorem takeFault_leaves_exhausted (f : BatchFault) :
    (takeFault f : Action (Session ω) Unit).Leaves exhausted := by
  cases f with
  | panicked message => exact atDesk_leaves_exhausted _
  | tooManyEntries count limit =>
    exact (atDesk_leaves_exhausted _).bind fun _ => atDesk_leaves_exhausted _

theorem lastTurn_leaves_exhausted (debug : Bool) (fault : Option BatchFault) :
    (lastTurn debug fault : Action (Session ω) Unit).Leaves exhausted := by
  cases fault with
  | none => exact guarded_leaves_exhausted debug (atDesk_leaves_exhausted _) (leaves_pure ())
  | some f =>
    exact guarded_leaves_exhausted debug (takeFault_leaves_exhausted f)
      (abort_leaves_exhausted debug f)

/-- Code that has been run alongside has come to its end. -/
theorem follow_done {c : Course (Workshop ω) α} {s t : Session ω} {a : α}
    (ran : follow c s = .done a t) : c.outcome = .ok a ∧ t.workshop = c.finalState := by
  induction c generalizing s with
  | ended outcome w =>
    cases outcome with
    | ok b =>
      cases ran
      exact ⟨rfl, rfl⟩
    | error p => cases ran
  | send c next ih =>
    obtain ⟨_, _, -, ran⟩ := done_of_bind ran
    exact ih ran
  | record e next ih =>
    obtain ⟨_, _, -, ran⟩ := done_of_bind ran
    exact ih ran
  | suspend w next ih =>
    obtain ⟨_, _, -, ran⟩ := done_of_bind ran
    obtain ⟨_, _, -, ran⟩ := done_of_bind ran
    exact ih ran

theorem runAlongside_done {code : BatchCode ω α} {s t : Session ω} {a : α}
    (ran : runAlongside code s = .done a t) :
    (code s.workshop).outcome = .ok a ∧ t.workshop = (code s.workshop).finalState := by
  obtain ⟨b, u, followed, ran⟩ := done_of_bind (m := follow (code s.workshop)) ran
  obtain ⟨_, v, drained, ran⟩ := done_of_bind ran
  cases ran
  have unmoved : (atDesk Desk.drain : Action (Session ω) Unit).Leaves workshop :=
    leaves_within fun _ => rfl
  obtain ⟨ended, reached⟩ := follow_done followed
  exact ⟨ended, (unmoved.of_done drained).trans reached⟩

/-- No sequence is cut short that comes to its end, whatever becomes of its part. -/
theorem takeTurn_exhausted (setting : Setting ω) (id : String) (body : Json) (s : Session ω)
    (finite : (Batch.reportOf setting.patience id
      (Batch.courseOf setting id body s.workshop)).result.isFinite = true) :
    (takeTurn setting id body s).state.exhausted = s.exhausted := by
  have unchanged := runAlongside_leaves_exhausted (Batch.courseOf setting id body) s
  show ((runAlongside (Batch.courseOf setting id body) >>= _) s).state.exhausted = _
  rw [bind_apply]
  cases ran : runAlongside (Batch.courseOf setting id body) s with
  | panicked p t => rwa [ran] at unchanged
  | done result t =>
    rw [ran] at unchanged
    obtain ⟨ended, reached⟩ := runAlongside_done ran
    have known : Batch.resultOf (Batch.courseOf setting id body s.workshop) = result := by
      rw [Batch.resultOf, ended]
    rw [Batch.reportOf, known, ← reached] at finite
    obtain ⟨count, -, same, -⟩ := emit_told setting.settings.debug setting.patience id result t
    dsimp only
    rw [bind_apply, same, atWriter_apply]
    cases wrote : Encoder.emitAnswer setting.settings.debug id
        (result.answer setting.patience t.workshop.modules) t.desk.writer with
    | panicked p w =>
      rw [leaving_writer, wrote]
      exact unchanged
    | done answer w =>
      have whole : answer.2 = false := (Encoder.emitAnswer_answers _ _ _ _ _ _ wrote).2 finite
      rw [leaving_writer, wrote]
      show (t.exhausted || answer.2) = s.exhausted
      rw [whole, Bool.or_false]
      exact unchanged

theorem takeTurn_goes (setting : Setting ω) (id : String) (body : Json) {written : List Sheet}
    {late : List PartCommand} (trails : s.Trails way b written late)
    {course : Course (Workshop ω) (EntryResult ω)}
    (ran : Batch.courseOf setting id body s.workshop = course) {report : Report}
    (reported : Batch.reportOf setting.patience id course = report) :
    (takeTurn setting id body).Goes s
      (fun _ after =>
        after.Trails way b (Sheet.carryOut (late ++ report.commands) written ++
          [.json (Encoder.keyed report.id (report.result.body setting.settings.debug)).octets])
            report.behind ∧
        after.workshop = Batch.leftBy setting.patience course ∧
        after.summary = s.summary.count report.result.emitted)
      (Interrupted way b setting.settings.debug written late report
        (s.workshop :: Batch.statesOf setting.patience course) s.summary) := by
  subst reported ran
  have processed := runAlongside_goes _ trails _ (Batch.courseOf_outcome setting id body s.workshop)
  refine (processed.weaken (fun _ _ same => same) ?_).bind ?_
  · rintro after halted
    refine .sending ⟨halted.sunk, ?_, halted.summary⟩
    exact (List.cons_subset_cons _ (List.subset_append_left _ _)) halted.workshop
  rintro _ middle ⟨rfl, rests, reached, counted⟩
  have emitted := emit_goes setting.settings.debug setting.patience id
    (Batch.resultOf (Batch.courseOf setting id body s.workshop)) rests
  rw [show middle.workshop = _ from reached] at emitted
  refine (emitted.weaken (fun _ _ same => same) ?_).bind ?_
  · rintro after ⟨torn, ⟨count, bound, left⟩, same⟩
    refine .answering torn ?_ (same.trans counted)
    rw [left]
    exact List.mem_cons_of_mem _ (Batch.pulledBy_mem_statesOf bound)
  · rintro ⟨_, cut⟩ after ⟨rfl, ⟨floats, queued⟩, left, same⟩
    refine (ends_modify _ _ _ ⟨⟨floats, queued⟩, left, ?_⟩).goes
    exact congrArg (Summary.count _) (same.trans counted)

theorem Interrupted.not_clear {debug : Bool} {late : List PartCommand} {report : Report}
    {states : List (Workshop ω)} {counts : Summary}
    (interrupted : s.Interrupted .clear b debug sheets late report states counts) : False := by
  cases interrupted with
  | sending halted => exact halted.not_clear
  | answering torn =>
    obtain ⟨_, -, struck⟩ := torn.struck
    exact struck.struck

theorem runAlongside_ends (b : Boundary) (code : BatchCode ω α) (s : Session ω)
    (sheets : List Sheet) (owes : s.Owes .clear b sheets) (a : α)
    (ended : (code s.workshop).outcome = .ok a) :
    (runAlongside code).Ends s fun answer after => answer = a ∧
      after.Settled b (Sheet.carryOut (code s.workshop).commands sheets) ∧
      after.workshop = (code s.workshop).finalState ∧ after.summary = s.summary := by
  obtain ⟨written, late, trails, rfl⟩ := owes
  refine (Goes.ends ((runAlongside_goes code trails a ended).weaken (fun _ _ same => same)
    fun _ halted => halted.not_clear)).weaken ?_
  rintro _ after ⟨same, rests, left⟩
  rw [Sheet.carryOut_append] at rests
  exact ⟨same, rests.settled, left⟩

theorem takeTurn_ends (b : Boundary) (setting : Setting ω) (id : String) (body : Json)
    (s : Session ω) (sheets : List Sheet) (owes : s.Owes .clear b sheets)
    {course : Course (Workshop ω) (EntryResult ω)}
    (ran : Batch.courseOf setting id body s.workshop = course) {report : Report}
    (reported : Batch.reportOf setting.patience id course = report) :
    (takeTurn setting id body).Ends s fun _ after =>
      after.Trails .clear b (Sheet.carryOut report.commands sheets ++
        [.json (Encoder.keyed report.id (report.result.body setting.settings.debug)).octets])
          report.behind ∧
      after.workshop = Batch.leftBy setting.patience course ∧
      after.summary = s.summary.count report.result.emitted := by
  obtain ⟨written, late, trails, rfl⟩ := owes
  rw [← Sheet.carryOut_append]
  exact Goes.ends ((takeTurn_goes setting id body trails ran reported).weaken (fun _ _ same => same)
    fun _ interrupted => interrupted.not_clear)

/-- The part of a fault stands behind all others, whatever is still queued. -/
theorem emitFault_ends (b : Boundary) (debug : Bool) (f : Failure) (s : Session ω)
    (sheets : List Sheet) (shown : s.desk.Shows b sheets) :
    (atWriter (Encoder.emitFault debug f) : Action (Session ω) Unit).Ends s fun _ after =>
      after.desk.Shows b (sheets ++ [.json (Encoder.failureBody debug f).octets]) ∧
        after.desk.relay = s.desk.relay ∧ after.workshop = s.workshop ∧
          after.summary = s.summary := by
  apply (atWriter_ends _ s _ (Encoder.emitFault_ends debug f shown.keeps)).weaken
  rintro _ _ ⟨w, kept, rfl⟩
  exact ⟨shown.unowned rfl kept, rfl, rfl, rfl⟩

theorem abort_ends (b : Boundary) (debug : Bool) (f : BatchFault) (s : Session ω)
    (sheets : List Sheet) (shown : s.desk.Shows b sheets) :
    (abort debug f).Ends s fun _ after =>
      after.desk.Shows b (sheets ++ [.json (Encoder.failureBody debug (.ofFault f)).octets]) ∧
      after.desk.relay = s.desk.relay ∧ after.workshop = s.workshop ∧
        after.summary = { s.summary with aborted := true } :=
  ends_modify_bind _ _ _ _ (emitFault_ends b debug (.ofFault f) _ sheets shown)

theorem finish_ends (b : Boundary) (s : Session ω) (sheets : List Sheet)
    (shown : s.desk.Shows b sheets) :
    (atWriter Writer.finish : Action (Session ω) Unit).Ends s fun _ after =>
      after.workshop = s.workshop ∧ after.summary = s.summary ∧ after.delivered =
        sheets.flatMap (fun sheet => sheet.ended.octets b) ++ Octets.ofText b.terminator := by
  apply (atWriter_ends _ s _ (Writer.finish_ends b _ _ shown.keeps)).weaken
  rintro _ _ ⟨w, arrived, rfl⟩
  exact ⟨rfl, rfl, arrived⟩

theorem drain_ends (b : Boundary) (s : Session ω) (sheets : List Sheet)
    (commands : List PartCommand) (carries : s.desk.Carries .clear b sheets commands) :
    (atDesk Desk.drain : Action (Session ω) Unit).Ends s fun _ after =>
      after.Settled b (Sheet.carryOut commands sheets) ∧ after.workshop = s.workshop ∧
        after.summary = s.summary := by
  refine (Goes.ends ((drain_goes carries).weaken (fun _ _ same => same)
    fun _ halted => halted.not_clear)).weaken ?_
  rintro _ after ⟨rests, left⟩
  exact ⟨rests.settled, left⟩

theorem takeFault_goes (f : BatchFault) {commands : List PartCommand}
    (carries : s.desk.Carries way b sheets commands) :
    (takeFault f).Goes s
      (fun _ after => after.Rests way b (Sheet.carryOut commands sheets) ∧
        after.workshop = s.workshop ∧ after.summary = s.summary)
      (Halted way b sheets commands [s.workshop] s.summary) := by
  cases f with
  | panicked message => exact drain_goes carries
  | tooManyEntries count limit =>
    refine (atDesk_ends _ s _ (Desk.record_ends _ carries)).goes.bind ?_
    rintro _ _ ⟨d, carries, rfl⟩
    exact drain_goes (s := { s with desk := d }) carries

theorem takeFault_ends (b : Boundary) (f : BatchFault) (s : Session ω) (sheets : List Sheet)
    (commands : List PartCommand) (carries : s.desk.Carries .clear b sheets commands) :
    (takeFault f).Ends s fun _ after =>
      after.Settled b (Sheet.carryOut commands sheets) ∧ after.workshop = s.workshop ∧
        after.summary = s.summary := by
  refine (Goes.ends ((takeFault_goes f carries).weaken (fun _ _ same => same)
    fun _ halted => halted.not_clear)).weaken ?_
  rintro _ after ⟨rests, left⟩
  exact ⟨rests.settled, left⟩

theorem guarded_ends {m next : Action (Session ω) Unit} {s : Session ω}
    {middle after : Unit → Session ω → Prop} (debug : Bool) (first : m.Ends s middle)
    (second : ∀ t, middle () t → next.Ends t after) : (guarded debug m next).Ends s after := by
  apply first.attempt.bind
  rintro _ t ⟨_, rfl, holds⟩
  exact second t holds

def faultSheets (debug : Bool) (fault : Option Failure) : List Sheet :=
  fault.toList.map fun f => .json (Encoder.failureBody debug f).octets

def tally (reports : List Report) (fault : Option Failure) (s : Summary) : Summary where
  succeeded := s.succeeded + reports.countP (·.result.emitted = .success)
  failed := s.failed + reports.countP (·.result.emitted = .failure)
  aborted := s.aborted || fault.isSome

theorem tally_cons (r : Report) (rest : List Report) (fault : Option Failure) (s : Summary) :
    tally (r :: rest) fault s = tally rest fault (s.count r.result.emitted) := by
  cases counted : r.result.emitted with
  | success =>
    simp only [tally, Summary.count, counted, List.countP_cons, decide_true, reduceCtorEq,
      decide_false, Bool.false_eq_true, ↓reduceIte, Nat.add_zero, Summary.mk.injEq, and_true]
    omega
  | failure =>
    simp only [tally, Summary.count, counted, List.countP_cons, decide_true, reduceCtorEq,
      decide_false, Bool.false_eq_true, ↓reduceIte, Nat.add_zero, Summary.mk.injEq, and_true,
      true_and]
    omega

theorem tally_behind (reports : List Report) (fault : Option Failure) (s : Summary) :
    tally [] fault (tally reports none s) = tally reports fault s := by
  simp [tally]

/-- Over a peer that takes everything the entries bring a session to where the last turn begins,
whatever that turn is. -/
theorem turnsThen_reaches (b : Boundary) (setting : Setting ω) (entries : Members) (s : Session ω)
    (sheets : List Sheet) (owes : s.Owes .clear b sheets) :
    ∃ middle, (∀ last, turnsThen setting last entries s = last middle) ∧
      middle.Owes .clear b (Sheet.afterReports setting.settings.debug
        (Batch.reports setting entries s.workshop).1 sheets) ∧
      middle.workshop = (Batch.reports setting entries s.workshop).2 ∧
      middle.summary = tally (Batch.reports setting entries s.workshop).1 none s.summary ∧
      ((∀ r ∈ (Batch.reports setting entries s.workshop).1, r.result.isFinite = true) →
        middle.exhausted = s.exhausted) ∧
      ((∀ r ∈ (Batch.reports setting entries s.workshop).1, r.behind = []) →
        s.desk.relay.queue = [] → middle.desk.relay.queue = []) := by
  induction entries generalizing s sheets with
  | nil =>
    exact ⟨s, fun _ => rfl, owes, rfl, by simp [tally, Batch.reports], fun _ => rfl, fun _ => id⟩
  | cons entry rest ih =>
    obtain ⟨id, body⟩ := entry
    rw [Batch.reports]
    obtain ⟨_, next, ran, trails, reached, counted⟩ :=
      takeTurn_ends b setting id body s sheets owes rfl rfl
    obtain ⟨middle, onward, shown, last, tallied, whole, drained⟩ := ih next _ trails.owes
    rw [reached] at shown last tallied whole drained
    refine ⟨middle, fun turn => (turnsThen_of_done ran turn rest).trans (onward turn), shown, last,
      ?_, fun finite => ?_, fun silent _ => ?_⟩
    · rw [tallied, counted, tally_cons]
    · obtain ⟨first, others⟩ := List.forall_mem_cons.mp finite
      have same := takeTurn_exhausted setting id body s first
      rw [ran] at same
      exact (whole others).trans same
    · obtain ⟨first, others⟩ := List.forall_mem_cons.mp silent
      exact drained others (trails.queued.trans first)

/-- The last turn carries out what is owed and adds the part of the fault, if entries are left. -/
theorem lastTurn_ends (b : Boundary) (debug : Bool) (fault : Option BatchFault) (s : Session ω)
    (sheets : List Sheet) (owes : s.Owes .clear b sheets) :
    (lastTurn debug fault).Ends s fun _ after =>
      after.Settled b (sheets ++ faultSheets debug (fault.map .ofFault)) ∧
      after.workshop = s.workshop ∧ after.summary = tally [] (fault.map .ofFault) s.summary := by
  obtain ⟨written, late, trails, rfl⟩ := owes
  cases fault with
  | none =>
    refine guarded_ends _ (drain_ends b s written late trails.carries) ?_
    rintro after ⟨settled, same, counted⟩
    refine Action.ends_pure _ _ _ ⟨?_, same, ?_⟩
    · simpa [faultSheets] using settled
    · simp [tally, counted]
  | some f =>
    refine guarded_ends _ (takeFault_ends b f s written late trails.carries) ?_
    rintro middle ⟨settled, same, counted⟩
    apply (abort_ends b debug f middle _ settled.shown).weaken
    rintro _ after ⟨shown, relay, still, summed⟩
    refine ⟨⟨?_, ?_⟩, still.trans same, ?_⟩
    · simpa [faultSheets] using shown
    · rw [relay, settled.drained]
    · simp [tally, summed, counted]

/-- The turns end, whatever the limit: the entries that it admits take theirs, and if others are left
the batch ends in one more part. -/
theorem turns_end (b : Boundary) (setting : Setting ω) (a : Agenda) (running : a.halted = false)
    (s : Session ω) (sheets : List Sheet) (owes : s.Owes .clear b sheets) :
    (takeTurns setting a).Ends s fun _ after =>
      after.Settled b (Sheet.afterReports setting.settings.debug
        (Batch.reports setting a.admitted s.workshop).1 sheets ++
          faultSheets setting.settings.debug (a.fault?.map .ofFault)) ∧
      after.workshop = (Batch.reports setting a.admitted s.workshop).2 ∧
      after.summary = tally (Batch.reports setting a.admitted s.workshop).1 (a.fault?.map .ofFault)
        s.summary ∧
      ((∀ r ∈ (Batch.reports setting a.admitted s.workshop).1, r.result.isFinite = true) →
        after.exhausted = s.exhausted) := by
  obtain ⟨middle, onward, owes, reached, tallied, whole, -⟩ :=
    turnsThen_reaches b setting a.admitted s sheets owes
  obtain ⟨_, after, ran, settled, same, counted⟩ :=
    lastTurn_ends b setting.settings.debug a.fault? middle _ owes
  rw [takeTurns_eq_turnsThen setting a running]
  refine ⟨(), after, (onward _).trans ran, settled, same.trans reached, ?_, fun finite => ?_⟩
  · rw [counted, tallied, tally_behind]
  · exact ((lastTurn_leaves_exhausted _ _).of_done ran).trans (whole finite)

/-- The end of a batch carries out what is still queued and what the close hooks send. Where none of
them panics the response is whole. -/
theorem conclude_comes (b : Boundary) (s : Session ω) (sheets : List Sheet)
    (shown : s.desk.Shows b sheets) :
    conclude.Comes s (Workshop.closeAll s.workshop).outcome fun after =>
      after.workshop = (Workshop.closeAll s.workshop).finalState ∧ after.summary = s.summary ∧
      ((Workshop.closeAll s.workshop).outcome = .ok () → after.desk.writer.outlet.arrived =
        (Sheet.carryOut (s.desk.relay.queue ++ (Workshop.closeAll s.workshop).commands) sheets).flatMap
          (fun sheet => sheet.ended.octets b) ++ Octets.ofText b.terminator) := by
  have followed := Exits.comes ((follow_exits (Workshop.closeAll s.workshop) s
    shown.floats.carries).imp id fun ⟨p, t, ran, halted⟩ => ⟨p, t, ran, halted.not_clear⟩)
  cases ended : (Workshop.closeAll s.workshop).outcome with
  | error p =>
    -- nothing guards the close hooks, so the closing line is never written
    rw [ended] at followed
    obtain ⟨after, ran, -, reached, counted⟩ := followed
    refine Comes.panics ⟨after, ran, reached, counted, nofun⟩ _
  | ok _ =>
    rw [ended] at followed
    apply (followed.ends).then_comes
    rintro _ closed ⟨-, carries, reached, counted⟩
    apply (drain_ends b closed sheets _ carries).then_comes
    rintro _ drained ⟨settled, same, untouched⟩
    obtain ⟨_, last, ran, still, summed, arrived⟩ := finish_ends b drained _ settled.shown
    exact ⟨last, ran, still.trans (same.trans reached), summed.trans (untouched.trans counted),
      fun _ => arrived⟩

end Session
end Multicall
