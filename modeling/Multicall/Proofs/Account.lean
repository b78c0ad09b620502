import Multicall.Proofs.Turns
/-!
The account of a run. Before any octet is sent it is settled what a run comes to over a peer that takes
everything: the reports of the entries that are admitted, the failure that ends the batch early or
refuses it as a whole, and what the close hooks do at the end. Parts, counts and the state of the
modules are read off this account.
-/
namespace Multicall

variable {ω : Type}

structure Account (ω : Type) where
  reports : List Report
  /-- What refuses the request, or ends the batch before its last entry. -/
  fault : Option Failure
  workshop : Workshop ω

namespace Account

def closing (a : Account ω) : Course (Workshop ω) Unit := Workshop.closeAll a.workshop

def commands (a : Account ω) : List PartCommand :=
  a.reports.flatMap (·.sent) ++ a.closing.commands

def faultParts (debug : Bool) (fault : Option Failure) : List ResponsePart :=
  fault.toList.map fun f => ⟨jsonMime, (Encoder.failureBody debug f).octets⟩

def parts (debug : Bool) (a : Account ω) : List ResponsePart :=
  Report.partsThen debug a.closing.commands a.reports ++ faultParts debug a.fault ++
    Report.moduleParts [] a.closing.commands

def writtenParts (a : Account ω) : List ResponsePart := Report.moduleParts [] a.commands

def summary (a : Account ω) : Summary := Session.tally a.reports a.fault .start

/-- Nothing is loaded for a request that is refused, so nothing is given up. -/
theorem parts_of_refusal (debug : Bool) (f : Failure) (order : ClosingOrder) (world : ω) :
    parts debug ⟨[], some f, .start order world⟩ = faultParts debug (some f) :=
  List.append_nil _

end Account

namespace Batch

def account (setting : Setting ω) (world : ω) (body : Octets) (info : RequestInfo) : Account ω :=
  match Envelope.parse body info with
  | .error r => ⟨[], some (.ofRejection r), .start setting.order world⟩
  | .ok envelope =>
      let agenda := Agenda.start setting.settings.maxEntries envelope.entries
      let (reports, last) := reports setting agenda.admitted (.start setting.order world)
      ⟨reports, agenda.fault?.map .ofFault, last⟩

/-- The account of a run in which these turns are taken. -/
def accountOf (setting : Setting ω) (world : ω) (body : Octets) (info : RequestInfo)
    (turns : List Taken) : Account ω :=
  match Envelope.parse body info with
  | .error r => ⟨[], some (.ofRejection r), .start setting.order world⟩
  | .ok envelope =>
      ⟨reportsOf setting turns (.start setting.order world),
        (Agenda.start setting.settings.maxEntries envelope.entries).fault?.map .ofFault,
        workshopBehind setting turns (.start setting.order world)⟩

/-- Turns that a run may take: those of the entries that are admitted, with no sequence pulled further
than to its end. -/
def MayTake (setting : Setting ω) (world : ω) (body : Octets) (info : RequestInfo)
    (turns : List Taken) : Prop :=
  ∀ envelope, Envelope.parse body info = .ok envelope →
    turns.map (·.entry) = (Agenda.start setting.settings.maxEntries envelope.entries).admitted ∧
      Fits setting turns (.start setting.order world)

theorem account_of_accepted (setting : Setting ω) (world : ω) {body : Octets} {info : RequestInfo}
    {envelope : Envelope} (accepted : Envelope.parse body info = .ok envelope) :
    account setting world body info =
      ⟨(reports setting (Agenda.start setting.settings.maxEntries envelope.entries).admitted
          (.start setting.order world)).1,
        (Agenda.start setting.settings.maxEntries envelope.entries).fault?.map .ofFault,
        (reports setting (Agenda.start setting.settings.maxEntries envelope.entries).admitted
          (.start setting.order world)).2⟩ := by
  rw [account, accepted]

theorem account_of_refused (setting : Setting ω) (world : ω) {body : Octets} {info : RequestInfo}
    {r : Rejection} (refused : Envelope.parse body info = .error r) :
    account setting world body info = ⟨[], some (.ofRejection r), .start setting.order world⟩ := by
  rw [account, refused]

end Batch

namespace Sheet

theorem finished_faultSheets (debug : Bool) (fault : Option Failure) (later : List PartCommand) :
    (Session.faultSheets debug fault).map (finished later) = Account.faultParts debug fault := by
  cases fault with
  | none => rfl
  | some f => simp [Session.faultSheets, Account.faultParts, finished, json]

/-- The sheets at the end are the parts of the account. -/
theorem finished_account (debug : Bool) (a : Account ω) :
    (carryOut a.closing.commands (afterReports debug a.reports [] ++
      Session.faultSheets debug a.fault)).map (finished []) = a.parts debug := by
  rw [finished_carryOut, List.append_nil, List.map_append, finished_partsThen,
    finished_faultSheets, List.map_nil, List.nil_append, Account.parts]

end Sheet

namespace Session

theorem refuse_ends (b : Boundary) (debug : Bool) (r : Rejection) (s : Session ω)
    (settled : s.Settled b []) :
    (refuse debug r).Ends s fun _ after => after.workshop = s.workshop ∧
      after.summary = { s.summary with aborted := true } ∧ after.delivered =
        (faultSheets debug (some (.ofRejection r))).flatMap (fun sheet => sheet.ended.octets b) ++
          Octets.ofText b.terminator := by
  apply (emitFault_ends b debug (.ofRejection r) s [] settled.shown).bind
  rintro _ middle ⟨shown, -, same, counted⟩
  apply Action.ends_modify_bind
  apply (finish_ends b { middle with summary := { middle.summary with aborted := true } } _
    shown).weaken
  rintro _ after ⟨still, summed, arrived⟩
  exact ⟨still.trans same, by rw [summed, counted], arrived⟩

end Session

namespace Batch

theorem octets_of_sheets (b : Boundary) (sheets : List Sheet) (parts : List ResponsePart)
    (finished : sheets.map (Sheet.finished []) = parts) :
    sheets.flatMap (fun sheet => sheet.ended.octets b) = parts.flatMap (ResponsePart.octets b) := by
  rw [← finished, List.flatMap_map]
  simp only [Sheet.octets_finished]

/-- Over a peer that takes everything a run comes to what its account says: it ends where no close
hook panics and panics with the first hook that does; counts and modules are left as the account has
them; and a run that ends has sent the parts of the account and the closing line. -/
theorem run_comes (setting : Setting ω) (world : ω) (body : Octets) (info : RequestInfo)
    (peer : Peer) (boundary : Boundary) (takesAll : peer.TakesAll) :
    ∃ after, run setting world body info peer boundary =
        .of (account setting world body info).closing.outcome after ∧
      after.summary = (account setting world body info).summary ∧
      after.workshop = (account setting world body info).closing.finalState ∧
      ((account setting world body info).closing.outcome = .ok () → after.delivered =
        ((account setting world body info).parts setting.settings.debug).flatMap
          (ResponsePart.octets boundary) ++ Octets.ofText boundary.terminator) ∧
      ((∀ r ∈ (account setting world body info).reports, r.result.isFinite = true) →
        after.exhausted = false) := by
  have begun := Session.start_settled setting world peer boundary takesAll
  cases parsed : Envelope.parse body info with
  | error r =>
    obtain ⟨after, ran, reached, counted, arrived⟩ :=
      (Session.refuse_ends boundary setting.settings.debug r _ begun).comes
    have unchanged := Session.refuse_leaves_exhausted setting.settings.debug r
      (Session.start setting world peer boundary)
    rw [ran] at unchanged
    rw [run_of_rejected setting world peer boundary parsed, account_of_refused setting world parsed]
    refine ⟨after, ran, counted, reached, fun _ => arrived.trans ?_, fun _ => unchanged⟩
    rw [octets_of_sheets boundary _ _ (Sheet.finished_faultSheets _ _ []),
      Account.parts_of_refusal]
  | ok envelope =>
    rw [run_of_accepted setting world peer boundary parsed, runEntries]
    rw [account_of_accepted setting world parsed]
    have turns := Session.turns_end boundary setting
      (.start setting.settings.maxEntries envelope.entries) rfl
      (Session.start setting world peer boundary) [] begun.rests.owes
    apply turns.then_comes
    rintro _ middle ⟨settled, reached, counted, whole⟩
    obtain ⟨after, ran, last, summed, arrived⟩ :=
      Session.conclude_comes boundary middle _ settled.shown
    rw [settled.drained, List.nil_append] at arrived
    rw [reached] at ran last arrived
    refine ⟨after, ran, summed.trans counted, last, fun ended => (arrived ended).trans ?_,
      fun finite => ?_⟩
    · exact congrArg (· ++ _) (octets_of_sheets boundary _ _
        (Sheet.finished_account setting.settings.debug ⟨_, _, _⟩))
    · have same := Session.conclude_leaves_exhausted middle
      rw [ran, Outcome.state_of] at same
      exact same.trans (whole finite)

/-- What has arrived where a run over such a peer has ended. -/
theorem delivered_of_ended {setting : Setting ω} {world : ω} {body : Octets} {info : RequestInfo}
    {peer : Peer} {boundary : Boundary} {response : Session ω} (takesAll : peer.TakesAll)
    (ended : run setting world body info peer boundary = .done () response) :
    response.delivered = ((account setting world body info).parts setting.settings.debug).flatMap
        (ResponsePart.octets boundary) ++ Octets.ofText boundary.terminator ∧
      ((∀ r ∈ (account setting world body info).reports, r.result.isFinite = true) →
        response.exhausted = false) := by
  obtain ⟨last, ran, -, -, arrived, whole⟩ :=
    run_comes setting world body info peer boundary takesAll
  cases closed : (account setting world body info).closing.outcome with
  | error p =>
    rw [closed] at ran
    exact nomatch ended.symm.trans ran
  | ok _ =>
    rw [closed] at ran
    cases ended.symm.trans ran
    exact ⟨arrived closed, whole⟩

end Batch
end Multicall
