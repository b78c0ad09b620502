import Multicall.Proofs.LikeRuns
import Multicall.Proofs.Strike
/-!
What follows a panic. The batch is ended with the part of the fault, the handlers are given up, what is
still queued is applied and the response is closed, all of it over a transport that cannot panic again.
Octets for octets this is what a sound transport would get at which the block that was lost had arrived
as well.
-/
namespace Multicall

open Multicall.Action

namespace Sheet

/-- The part begins with the octets of the sheet, and is no more than that if the sheet is closed. -/
structure Fronts (b : Boundary) (s : Sheet) (p : ResponsePart) : Prop where
  front : s.octets b <+: p.octets b
  whole : s.closed = true → s.octets b = p.octets b

/-- A sheet with a front piece of the body, or all of it if the sheet is closed. -/
theorem fronts_of_body {b : Boundary} {s : Sheet} {p : ResponsePart} (mime : s.mime = p.mime)
    (front : s.body <+: p.body) (whole : s.closed = true → s.body = p.body) : s.Fronts b p := by
  have text : p.octets b = Octets.ofText (b.preamble p.mime) ++ p.body ++ Writer.lineEnd := rfl
  have same (shut : s.closed = true) : s.octets b = p.octets b := by
    rw [text, Sheet.octets, if_pos shut, mime, whole shut]
  refine ⟨?_, same⟩
  cases shut : s.closed with
  | true => exact same shut ▸ List.prefix_rfl
  | false =>
    obtain ⟨more, rest⟩ := front
    refine ⟨more ++ Writer.lineEnd, ?_⟩
    simp [text, Sheet.octets, shut, mime, ← rest]

theorem fronts_finished (b : Boundary) (later : List PartCommand) (s : Sheet)
    (ownedOpen : s.owner ≠ none → s.closed = false) : s.Fronts b (s.finished later) := by
  refine fronts_of_body rfl (List.prefix_append _ _) fun shut => ?_
  have nobody : s.owner = none := by
    by_contra owned
    exact Bool.false_ne_true ((ownedOpen owned).symm.trans shut)
  simp [finished, nobody]

end Sheet

namespace Writer

/-- What has left of the sheets that wait is a front piece of the first of them. -/
theorem sent_front {b : Boundary} {handle : Nat} {sent : Octets} {parts : List Part}
    {sheets : List Sheet} (awaits : Awaits b handle sent parts sheets) {texts : List ResponsePart}
    (fronts : List.Forall₂ (Sheet.Fronts b) sheets texts) :
    sent <+: texts.flatMap (ResponsePart.octets b) := by
  cases parts with
  | nil =>
    obtain ⟨-, rfl⟩ := awaits
    exact List.nil_prefix
  | cons part rest =>
    cases fronts with
    | nil => exact awaits.elim
    | cons front others =>
      obtain ⟨-, -, text, -⟩ := awaits
      rw [List.flatMap_cons]
      exact (text ▸ List.prefix_append sent _).trans (front.front.trans (List.prefix_append _ _))

/-- What has arrived is a front piece of the text of the parts that the sheets begin. -/
theorem Keeps.arrived_front {b : Boundary} {w : Writer} {sheets : List Sheet}
    {texts : List ResponsePart} (keeps : w.Keeps b sheets)
    (fronts : List.Forall₂ (Sheet.Fronts b) sheets texts) :
    w.outlet.arrived <+: texts.flatMap (ResponsePart.octets b) := by
  obtain ⟨gone, waiting, sent, rfl, closed, arrived, awaits⟩ := keeps.order
  have waits : ∃ handle, Awaits b handle sent w.parts waiting := ⟨_, awaits⟩
  rw [arrived]
  clear arrived keeps awaits
  obtain ⟨handle, awaits⟩ := waits
  induction gone generalizing texts with
  | nil => exact sent_front awaits fronts
  | cons s rest ih =>
    obtain ⟨own, others⟩ := List.forall_mem_cons.mp closed
    cases fronts with
    | cons front later =>
      rw [List.flatMap_cons, List.flatMap_cons, List.append_assoc, front.whole own,
        List.prefix_append_right_inj]
      exact ih later others

end Writer

theorem Desk.Shows.fronts {b : Boundary} {d : Desk} {sheets : List Sheet} (shown : d.Shows b sheets)
    (later : List PartCommand) :
    List.Forall₂ (Sheet.Fronts b) sheets (sheets.map (Sheet.finished later)) :=
  List.forall₂_map_right_iff.mpr (List.forall₂_same.mpr fun s member =>
    Sheet.fronts_finished b later s (shown.ownedOpen s member))

/-- An outlet at which everything is taken again, beside a sound one at which the lost octets have
arrived as well; what has come since is the same at both. -/
def Coupling.lacking (n : Nat) (front whole : Octets) : Coupling where
  together o v := o.Spent n ∧ v.Healthy ∧
    ∃ more, o.arrived = front ++ more ∧ v.arrived = whole ++ more
  apart _ _ := False
  broken _ _ still := still.1.1.whole.trans still.2.1.whole.symm
  recordLeft _ _ _ still := ⟨⟨⟨still.1.1.whole, still.1.1.once⟩, still.1.2⟩, still.2⟩
  recordRight _ _ _ still := ⟨still.1, ⟨still.2.1.whole, still.2.1.takesAll⟩, still.2.2⟩
  recordLeftApart _ _ _ := id
  recordRightApart _ _ _ := id
  send block := alike block (Outlet.send_of_spent block) (Outlet.send_ends block)
  flush := alike [] (by simpa only [List.append_nil] using Outlet.flush_of_spent)
    (by simpa only [List.append_nil] using Outlet.flush_ends)
  shutdown := alike [] (by simpa only [List.append_nil] using Outlet.shutdown_of_spent)
    (by simpa only [List.append_nil] using Outlet.shutdown_healthy)
where
  alike {m : Action Outlet Unit} (block : Octets)
      (left : ∀ o : Outlet, o.Spent n →
        m.Ends o fun _ after => after.Spent n ∧ after.arrived = o.arrived ++ block)
      (right : ∀ v : Outlet, v.Healthy →
        m.Ends v fun _ after => after.Healthy ∧ after.arrived = v.arrived ++ block) :
      Coupled (fun o v => o.Spent n ∧ v.Healthy ∧
        ∃ more, o.arrived = front ++ more ∧ v.arrived = whole ++ more) (fun _ _ => False) m m := by
    refine ⟨?_, fun _ _ => False.elim, fun _ _ => False.elim⟩
    rintro o v ⟨spent, healthy, more, came, went⟩
    obtain ⟨_, p, leftRan, still, arrived⟩ := left o spent
    obtain ⟨_, u, rightRan, sound, reached⟩ := right v healthy
    rw [leftRan, rightRan]
    exact .together ⟨still, sound, more ++ block, by rw [arrived, came, List.append_assoc],
      by rw [reached, went, List.append_assoc]⟩

namespace Writer

variable {n : Nat}

/-- The last calls of a response are a flush and the shutdown. -/
theorem finish_calls (w : Writer) (spent : w.outlet.Spent n) :
    finish.Ends w fun _ after => ∃ earlier,
      after.outlet.transport.calls.toList = earlier ++ [.flushed, .shut] := by
  apply ends_modify_bind
  apply (Outlet.spent_lasts.writer Coupling.keeps_pump
    { w with parts := w.parts.map closed } spent).bind
  rintro _ pumped spent
  apply ends_get_bind
  apply (Outlet.send_of_spent _ pumped.outlet spent).within.bind
  rintro _ _ ⟨sent, ⟨spent, -⟩, rfl⟩
  apply (Outlet.flush_once sent spent.1).within.bind
  rintro _ _ ⟨flushed, ⟨once, -, -, noted⟩, rfl⟩
  apply (Outlet.shutdown_once flushed once).within.weaken
  rintro _ _ ⟨last, ⟨-, -, -, ended⟩, rfl⟩
  refine ⟨sent.transport.calls.toList, ?_⟩
  show last.transport.calls.toList = _
  rw [ended, noted]
  simp

end Writer

namespace Session

variable {ω : Type} {n : Nat}

theorem conclude_calls (s : Session ω) (spent : s.Has (Outlet.Spent n))
    (ended : (Workshop.closeAll s.workshop).outcome = .ok ()) :
    conclude.Ends s fun _ after => ∃ earlier,
      after.desk.writer.outlet.transport.calls.toList = earlier ++ [.flushed, .shut] := by
  have followed := follow_lasts Outlet.spent_lasts (Workshop.closeAll s.workshop) s spent
  rw [ended] at followed
  refine ends_get_bind _ _ _ (followed.ends.bind ?_)
  rintro _ closed ⟨-, spent, -⟩
  apply (atDesk_lasts Outlet.spent_lasts Desk.drain Coupling.serves_drain closed spent).bind
  rintro _ drained ⟨spent, -⟩
  apply (atWriter_ends _ drained _ (Writer.finish_calls _ spent)).weaken
  rintro _ _ ⟨w, calls, rfl⟩
  exact calls

/-- What is done once a turn has panicked. -/
def windUp (debug : Bool) (f : BatchFault) : Action (Session ω) Unit := do
  abort debug f
  conclude

/-- Over a transport that cannot panic again the batch is wound up as far as the close hooks let it. -/
theorem windUp_comes (debug : Bool) (f : BatchFault) (s : Session ω)
    (spent : s.Has (Outlet.Spent n)) :
    (windUp debug f).Comes s (Workshop.closeAll s.workshop).outcome fun after =>
      after.workshop = (Workshop.closeAll s.workshop).finalState ∧
      after.summary = { s.summary with aborted := true } ∧
      ((Workshop.closeAll s.workshop).outcome = .ok () → ∃ earlier,
        after.desk.writer.outlet.transport.calls.toList = earlier ++ [.flushed, .shut]) := by
  apply (abort_lasts Outlet.spent_lasts debug f s spent).then_comes
  rintro _ aborted ⟨spent, still, counted, -⟩
  obtain ⟨after, ran, -, reached, summed, -⟩ := conclude_lasts Outlet.spent_lasts aborted spent
  rw [still] at ran reached
  refine ⟨after, ran, reached, summed.trans counted, fun ended => ?_⟩
  obtain ⟨_, last, went, calls⟩ := conclude_calls aborted spent (by rw [still]; exact ended)
  rw [ended] at ran
  cases ran.symm.trans went
  exact calls

theorem windUp_exhausted {debug : Bool} {f : BatchFault} {s after : Session ω}
    {outcome : Except Panic Unit} (ran : windUp debug f s = .of outcome after) :
    after.exhausted = s.exhausted := by
  have unmoved := ((abort_leaves_exhausted debug f).bind fun _ => conclude_leaves_exhausted) s
  rwa [show (abort debug f >>= fun _ => conclude) s = _ from ran, Outcome.state_of] at unmoved

/-- The commands that are applied only after the part of the fault: those still queued, and those that
the close hooks send. -/
def remaining (s : Session ω) : List PartCommand :=
  s.desk.relay.queue ++ (Workshop.closeAll s.workshop).commands

/-- The parts of a batch that is wound up: those that had been begun, the part of the fault, and those
that are opened only after it. -/
def woundUpParts (debug : Bool) (f : BatchFault) (s : Session ω) (sheets : List Sheet) :
    List ResponsePart :=
  sheets.map (Sheet.finished s.remaining) ++ Account.faultParts debug (some (.ofFault f)) ++
    Report.moduleParts [] s.remaining

theorem windUp_ends (b : Boundary) (debug : Bool) (f : BatchFault) (s : Session ω)
    (sheets : List Sheet) (shown : s.desk.Shows b sheets)
    (ended : (Workshop.closeAll s.workshop).outcome = .ok ()) :
    (windUp debug f).Ends s fun _ after => after.delivered =
      (woundUpParts debug f s sheets).flatMap (ResponsePart.octets b) ++
        Octets.ofText b.terminator := by
  apply (abort_ends b debug f s sheets shown).bind
  rintro _ aborted ⟨shown, relay, still, -⟩
  have concluded := conclude_comes b aborted _ shown
  rw [relay, still, ended] at concluded
  apply concluded.ends.weaken
  rintro _ after ⟨-, -, -, arrived⟩
  refine (arrived rfl).trans (congrArg (· ++ _) (Batch.octets_of_sheets b _ _ ?_))
  rw [Sheet.finished_carryOut, List.append_nil, List.map_append, woundUpParts]
  exact congrArg (_ ++ · ++ _) (Sheet.finished_faultSheets debug (some (.ofFault f)) _)

def holding (octets : Octets) (s : Session ω) : Session ω :=
  { s with desk := s.desk.holding octets }

/-- What arrives in the end, with the lost octets put back where they are missing, is the text of the
parts. -/
theorem windUp_text (setting : Setting ω) (b : Boundary) (f : BatchFault) (s after : Session ω)
    (spent : s.Has (Outlet.Spent n)) {lost : Octets} {sheets : List Sheet}
    (shown : (s.desk.holding (s.delivered ++ lost)).Shows b sheets)
    (ended : (Workshop.closeAll s.workshop).outcome = .ok ())
    (ran : windUp setting.settings.debug f s = .done () after) :
    ∃ more, after.delivered = s.delivered ++ more ∧ s.delivered ++ lost ++ more =
      (woundUpParts setting.settings.debug f s sheets).flatMap (ResponsePart.octets b) ++
        Octets.ofText b.terminator := by
  -- beside the session goes one at whose transport nothing is missing
  have related : Session.Alike (Coupling.lacking n s.delivered (s.delivered ++ lost)) (· = ·) s
      (s.holding (s.delivered ++ lost)) := by
    refine ⟨.inl ⟨_, ⟨_, ⟨spent, Outlet.holding_healthy _, [], ?_, ?_⟩, rfl⟩, rfl⟩, rfl, rfl⟩
    · exact (List.append_nil _).symm
    · exact (List.append_nil _).symm
  have matched : Matches (Coupling.lacking n s.delivered (s.delivered ++ lost)) (· = ·)
      setting.settings.debug (fun _ _ => True) (windUp setting.settings.debug f)
      (windUp setting.settings.debug f) :=
    (abort_matches (.refl _ _)).bind fun _ _ _ => conclude_matches (.refl setting)
  obtain ⟨_, last, went, arrived⟩ := windUp_ends b setting.settings.debug f
    (s.holding (s.delivered ++ lost)) sheets shown ended
  have met := matched _ _ related
  rw [ran, went] at met
  cases met with
  | done _ alike =>
    rcases alike.desk with ⟨w, ⟨o, ⟨-, -, more, came, reached⟩, rfl⟩, same⟩ | apart
    · refine ⟨more, came, ?_⟩
      rw [← reached]
      refine Eq.trans ?_ arrived
      rw [delivered, same]
      rfl
    · exact apart.elim

end Session

end Multicall
