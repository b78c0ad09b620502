import Multicall.Proofs.Account
/-!
The whole response. The response to an accepted request is the text of the parts that its reports
name, in opening order, and the closing line; the chunk size, the suspensions and the pieces in which
the peer takes the octets leave no trace in it.
-/
namespace Multicall

theorem Sheet.finished_afterReports (debug : Bool) (reports : List Report) (sheets : List Sheet) :
    (afterReports debug reports sheets).map (finished []) =
      sheets.map (finished (reports.flatMap (·.sent))) ++ Report.parts debug reports := by
  rw [finished_partsThen, List.append_nil, Report.parts_eq_partsThen]

/-! Close hooks that write nothing. -/

/-- Whatever state the modules are in, the close hook writes nothing. It may panic. -/
def Handler.ClosesSilently {ω : Type} (h : Handler ω) : Prop := ∀ m, (h.close m).commands = []

theorem Handler.close_of_hookless {ω : Type} {h : Handler ω} (hookless : h.onClose = none) :
    h.close = pure () := by
  rw [close, hookless]

theorem Handler.closesSilently_of_hookless {ω : Type} {h : Handler ω} (hookless : h.onClose = none) :
    h.ClosesSilently := by
  intro m
  rw [close_of_hookless hookless]
  rfl

theorem Course.silent_andThen {σ α β : Type} {f : α → σ → Course σ β} {c : Course σ α}
    (first : c.commands = []) (second : ∀ a s, (f a s).commands = []) :
    (c.andThen f).commands = [] := by
  induction c with
  | ended outcome s =>
    cases outcome with
    | ok a => exact second a s
    | error p => rfl
  | send command _ _ => cases first
  | record _ _ ih => exact ih first
  | suspend _ _ ih => exact ih first

namespace Workshop

variable {ω : Type}

theorem closeAll_silent (w : Workshop ω) (silent : ∀ entry ∈ w.cache, entry.2.ClosesSilently) :
    (closeAll w).commands = [] := by
  have each (handlers : List (Handler ω)) (quiet : ∀ h ∈ handlers, h.ClosesSilently)
      (v : Workshop ω) : (closeHandlers handlers v).commands = [] := by
    induction handlers generalizing v with
    | nil => rfl
    | cons handler rest ih =>
      refine Course.silent_andThen ?_ fun _ => ih fun h among => quiet h (List.mem_cons_of_mem _ among)
      exact (Course.commands_mapState _ _).trans (quiet handler List.mem_cons_self _)
  exact each _ (forall_mem_leaving silent) _

theorem closeAll_of_hookless (w : Workshop ω) (hookless : ∀ entry ∈ w.cache, entry.2.onClose = none) :
    closeAll w = .ended (.ok ()) { w with cache := [] } := by
  have each (handlers : List (Handler ω)) (quiet : ∀ h ∈ handlers, h.onClose = none)
      (v : Workshop ω) : closeHandlers handlers v = .ended (.ok ()) v := by
    induction handlers with
    | nil => rfl
    | cons handler rest ih =>
      show (inModules handler.close v).andThen _ = _
      rw [Handler.close_of_hookless (quiet handler List.mem_cons_self)]
      exact ih fun h among => quiet h (List.mem_cons_of_mem _ among)
  exact each _ (forall_mem_leaving hookless) _

end Workshop

namespace Batch

variable {ω : Type}

def noteOperation (name : String) (code : StreamId → ModuleCode StreamId Unit) :
    Operation StreamId where
  name := name
  parameters := []
  returns := Operation.noReturn
  invoke _ := do
    code (← Activity.get).world
    return .ok (.json .null)

def openNote (sink : Sink) : ModuleCode StreamId Unit := do
  let stream ← sink.openText
  Activity.modify fun m => { m with world := stream }

def notes : Registry StreamId := Registry.empty.register "note" fun ctx =>
  return Draft.build ⟨"note",
    [noteOperation "open" fun _ => openNote ctx.sink,
     noteOperation "add" fun stream => ctx.sink.print stream "hi"], none⟩

def noteSetting : Setting StreamId := ⟨notes, ⟨false, none, some 2, 3⟩, .empty, fun _ _ => 0, 0⟩

def noteEntries : Members :=
  [("a", .object [("ns", .string "note"), ("function", .string "open")]),
   ("b", .object [("ns", .string "note"), ("function", .string "add")])]

def noteRequest : Octets := (Json.object
  [("version", .int 1), ("payload", .object noteEntries)]).octets

theorem noteRequest_accepted :
    Envelope.parse noteRequest ⟨some "application/json", true⟩ = .ok ⟨1, noteEntries⟩ := by
  with_unfolding_all rfl

theorem noteReports_finite :
    ∀ r ∈ (reports noteSetting noteEntries (.start noteSetting.order 0)).1, r.result.isFinite = true :=
  List.all_eq_true.mp (by decide +kernel)

theorem noteAccount_finite :
    ∀ r ∈ (account noteSetting 0 noteRequest ⟨some "application/json", true⟩).reports,
      r.result.isFinite = true := by
  rw [account_of_accepted noteSetting 0 noteRequest_accepted]
  exact noteReports_finite

theorem noteAccount_quiet :
    (account noteSetting 0 noteRequest ⟨some "application/json", true⟩).closing.outcome =
      .ok () := by
  rw [account_of_accepted noteSetting 0 noteRequest_accepted]
  rfl

def noteTurns : List Taken := noteEntries.map fun entry => ⟨entry.1, entry.2, 0⟩

theorem eq_noteTurns {turns : List Taken}
    (may : MayTake noteSetting 0 noteRequest ⟨some "application/json", true⟩ turns) :
    turns = noteTurns := by
  obtain ⟨taken, fits⟩ := may _ noteRequest_accepted
  have plain : (wholeTurns noteSetting noteEntries (.start noteSetting.order 0)).all
      (·.pulled == 0) = true := by decide +kernel
  exact eq_wholeTurns taken fits fun t member => eq_of_beq (List.all_eq_true.mp plain t member)

theorem noteTurns_quiet :
    (accountOf noteSetting 0 noteRequest ⟨some "application/json", true⟩
      noteTurns).closing.outcome = .ok () := by
  rw [accountOf, noteRequest_accepted]
  rfl

/-! Another module answers with a sequence of one element, whose code opens a part before it gives the
element. -/

def feed (sink : Sink) : Producer StreamId
  | 0 => do
      let stream ← sink.openText
      sink.print stream "late"
      return some (.ok (.int 1))
  | _ => return none

def feedOperation (sink : Sink) : Operation StreamId where
  name := "read"
  parameters := []
  returns := Operation.noReturn
  invoke _ := return .ok (.sequence (feed sink))

def feeds : Registry StreamId := notes.register "feed" fun ctx =>
  return Draft.build ⟨"feed", [feedOperation ctx.sink], none⟩

end Batch
end Multicall
