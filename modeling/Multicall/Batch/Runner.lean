import Multicall.Batch.Agenda
import Multicall.Batch.Entry
import Multicall.Batch.Envelope
import Multicall.Response.Encoder
import Multicall.Response.Relay
/-!
A whole request, from its octets to the end of the response. Entries are processed in turn and
each result is written before the next entry begins. Part commands of a module are applied while
its operation is suspended and when it has ended, so they come before the entry's own result. A
sequence is pulled while its part is written, until it ends, its producer panics or the transport is
gone; what the producer sends meanwhile stays queued and comes behind the result. A panic of the
transport while a turn is under way ends the batch with one more part; then the handlers are given
up, what is still queued is applied, and the response is ended.
-/
namespace Multicall

/-- Counts of a batch that has been written out. -/
structure Summary where
  succeeded : Nat
  failed : Nat
  /-- Whether the request was refused or the batch ended before its last entry. -/
  aborted : Bool
  deriving DecidableEq, Repr

namespace Summary

def start : Summary := ⟨0, 0, false⟩

def entries (s : Summary) : Nat := s.succeeded + s.failed

def count (e : Emitted) (s : Summary) : Summary :=
  match e with
  | .success => { s with succeeded := s.succeeded + 1 }
  | .failure => { s with failed := s.failed + 1 }

end Summary

/-- Everything that a run changes. -/
structure Session (ω : Type) where
  desk : Desk
  workshop : Workshop ω
  summary : Summary
  /-- Whether a sequence outlasted the patience of the run. -/
  exhausted : Bool

/-- What a run depends on besides the request. The handlers are given up in whatever order there is.
`patience` bounds how often a sequence is pulled. -/
structure Setting (ω : Type) where
  registry : Registry ω
  settings : BatchSettings
  app : AppContext
  order : ClosingOrder
  patience : Nat

namespace Session

variable {ω α : Type}

def onDesk : Session ω → Desk × (Desk → Session ω)
  | ⟨desk, workshop, summary, exhausted⟩ =>
      (desk, fun desk => ⟨desk, workshop, summary, exhausted⟩)

def atDesk (m : Action Desk α) : Action (Session ω) α := .within onDesk m

def atWriter (m : Action Writer α) : Action (Session ω) α := atDesk (.within Desk.onWriter m)

def setWorkshop (w : Workshop ω) : Action (Session ω) Unit :=
  Action.modify fun s => { s with workshop := w }

/-- Carries out a course up to its end. One queued command is applied at each suspension. -/
def follow : Course (Workshop ω) α → Action (Session ω) α
  | .ended outcome w => do
      setWorkshop w
      match outcome with
      | .ok a => return a
      | .error p => Action.panic p
  | .send c next => do
      atDesk (Desk.enqueue c)
      follow next
  | .record e next => do
      atDesk (Desk.record e)
      follow next
  | .suspend w next => do
      setWorkshop w
      let _ ← atDesk Desk.step
      follow next

/-- Runs code of the batch, then applies all that it queued. -/
def runAlongside (code : BatchCode ω α) : Action (Session ω) α := do
  let a ← follow (code (← Action.get).workshop)
  atDesk Desk.drain
  return a

/-- Asks a sequence for its next element. What the code of the module queues is left in the queue. -/
def pull (producer : Producer ω) (index : Nat) :
    Action (Session ω) (Except Panic (Option (Except String Json))) := do
  follow ((Workshop.inModules (producer index)).attempt (← Action.get).workshop).awaited

/-- Pulls a sequence at most `patience` times and writes what it gives; says whether that cut it
short. -/
def emitElements (producer : Producer ω) (id : String) (handle : Nat) :
    (patience index written : Nat) → Action (Session ω) Bool
  | 0, _, _ => return !(← atWriter (Encoder.abandoned id))
  | patience + 1, index, written => do
      if ← atWriter (Encoder.abandoned id) then return false
      match ← pull producer index with
      | .error p => do
          atWriter (Writer.record (.sequencePanicked id index p))
          return false
      | .ok none => return false
      | .ok (some element) => do
          let written ← atWriter (Encoder.emitElement id handle index written element)
          emitElements producer id handle patience (index + 1) written

/-- Writes a sequence part. The answer is whether the sequence outlasted the patience. -/
def emitSequence (patience : Nat) (id : String) (producer : Producer ω) :
    Action (Session ω) Bool := do
  let handle ← atWriter (Encoder.openSequence id)
  let cut ← emitElements producer id handle patience 0 0
  atWriter (Encoder.closeSequence handle)
  return cut

/-- Writes the part of an entry. The second answer is whether a sequence outlasted the patience. -/
def emit (debug : Bool) (patience : Nat) (id : String) :
    EntryResult ω → Action (Session ω) (Emitted × Bool)
  | .ok (.value json) => return (← atWriter (Encoder.emitValue debug id json), false)
  | .ok (.sequence producer) => return (.success, ← emitSequence patience id producer)
  | .error f => return (← atWriter (Encoder.emitFailure debug id f), false)

/-- Processes an entry and writes its result. -/
def takeTurn (setting : Setting ω) (id : String) (body : Json) : Action (Session ω) Unit := do
  let ctx : LoadContext := ⟨setting.settings, setting.app, ⟨true⟩⟩
  let result ← runAlongside (Entry.process setting.registry ctx id body)
  let (emitted, cut) ← emit setting.settings.debug setting.patience id result
  Action.modify fun s =>
    { s with summary := s.summary.count emitted, exhausted := s.exhausted || cut }

/-- Announces that the limit is reached; commands queued so far are applied as after an entry. -/
def takeFault (f : BatchFault) : Action (Session ω) Unit := do
  match f with
  | .tooManyEntries count limit => atDesk (Desk.record (.tooManyEntries limit count))
  | .panicked _ => pure ()
  atDesk Desk.drain

/-- Ends a batch before its last entry with one part of its own. -/
def abort (debug : Bool) (f : BatchFault) : Action (Session ω) Unit := do
  Action.modify fun s => { s with summary := { s.summary with aborted := true } }
  atWriter (Encoder.emitFault debug (.ofFault f))

/-- What is left of a turn that yields nothing more. -/
def takeRest : Action (Session ω) Unit := atDesk Desk.drain

/-- Takes turns until none is left or one faults. A panic inside a turn is such a fault. -/
def takeTurns (setting : Setting ω) (agenda : Agenda) : Action (Session ω) Unit :=
  match _h : agenda.next with
  | none => do
      match ← takeRest.attempt with
      | .ok () => return ()
      | .error p => abort setting.settings.debug (.ofPanic p)
  | some (.fault f, _) => do
      match ← (takeFault f).attempt with
      | .ok () => abort setting.settings.debug f
      | .error p => abort setting.settings.debug (.ofPanic p)
  | some (.entry id body, rest) => do
      match ← (takeTurn setting id body).attempt with
      | .ok () => takeTurns setting rest
      | .error p => abort setting.settings.debug (.ofPanic p)
termination_by agenda.pending.length
decreasing_by simp [Agenda.pending_next (by assumption)]

/-- Goes on where an action ends, and ends the batch where it panics. -/
def guarded (debug : Bool) (m next : Action (Session ω) Unit) : Action (Session ω) Unit := do
  match ← m.attempt with
  | .ok () => next
  | .error p => abort debug (.ofPanic p)

theorem guarded_of_done {debug : Bool} {m next : Action (Session ω) Unit} {s t : Session ω}
    (ran : m s = .done () t) : guarded debug m next s = next t := by
  rw [guarded, Action.bind_apply, Action.attempt, ran]

theorem guarded_of_panicked {debug : Bool} {m next : Action (Session ω) Unit} {s broken : Session ω}
    {p : Panic} (struck : m s = .panicked p broken) :
    guarded debug m next s = abort debug (.ofPanic p) broken := by
  rw [guarded, Action.bind_apply, Action.attempt, struck]

theorem takeTurns_eq (setting : Setting ω) (agenda : Agenda) :
    takeTurns setting agenda = match agenda.next with
      | none => guarded setting.settings.debug takeRest (return ())
      | some (.fault f, _) =>
          guarded setting.settings.debug (takeFault f) (abort setting.settings.debug f)
      | some (.entry id body, rest) =>
          guarded setting.settings.debug (takeTurn setting id body) (takeTurns setting rest) := by
  rw [takeTurns]
  split <;> simp only [*] <;> rfl

/-- Turns of entries one after the other, and then something last. -/
def turnsThen (setting : Setting ω) (last : Action (Session ω) Unit) :
    Members → Action (Session ω) Unit
  | [] => last
  | (id, body) :: rest =>
      guarded setting.settings.debug (takeTurn setting id body) (turnsThen setting last rest)

/-- The turn behind those of the entries. -/
def lastTurn (debug : Bool) : Option BatchFault → Action (Session ω) Unit
  | none => guarded debug takeRest (return ())
  | some f => guarded debug (takeFault f) (abort debug f)

theorem turnsThen_of_done {setting : Setting ω} {id : String} {body : Json} {s t : Session ω}
    (ran : takeTurn setting id body s = .done () t) (last : Action (Session ω) Unit)
    (rest : Members) :
    turnsThen setting last ((id, body) :: rest) s = turnsThen setting last rest t :=
  guarded_of_done ran

/-- Of an agenda the turns need to know no more than the entries that it admits and its fault. -/
theorem takeTurns_eq_turnsThen (setting : Setting ω) (a : Agenda) (running : a.halted = false) :
    takeTurns setting a =
      turnsThen setting (lastTurn setting.settings.debug a.fault?) a.admitted := by
  induction entries : a.pending generalizing a with
  | nil =>
    obtain ⟨spent, none_admitted, no_fault⟩ := Agenda.next_of_spent running entries
    rw [takeTurns_eq, spent, none_admitted, no_fault]
    rfl
  | cons entry rest ih =>
    cases full : a.limitReached with
    | true =>
      obtain ⟨f, halted, turn, none_admitted, fault⟩ := Agenda.next_of_full running entries full
      rw [takeTurns_eq, turn, none_admitted, fault]
      rfl
    | false =>
      obtain ⟨after, turn, still, left, admitted, fault⟩ :=
        Agenda.next_of_room running entries full
      rw [takeTurns_eq, turn, admitted, fault, turnsThen, ← ih after still left]

/-- Gives up the handlers, applies what is left in the queue and ends the response. -/
def conclude : Action (Session ω) Unit := do
  let _ ← follow (Workshop.closeAll (← Action.get).workshop)
  atDesk Desk.drain
  atWriter Writer.finish

/-- Answers a request that is refused as a whole. -/
def refuse (debug : Bool) (r : Rejection) : Action (Session ω) Unit := do
  atWriter (Encoder.emitFault debug (.ofRejection r))
  Action.modify fun s => { s with summary := { s.summary with aborted := true } }
  atWriter Writer.finish

def respond (setting : Setting ω) (body : Octets) (info : RequestInfo) : Action (Session ω) Unit :=
  match Envelope.parse body info with
  | .error r => refuse setting.settings.debug r
  | .ok envelope => do
      takeTurns setting (.start setting.settings.maxEntries envelope.entries)
      conclude

/-- A session that has not begun. -/
def start (setting : Setting ω) (world : ω) (peer : Peer) (boundary : Boundary) : Session ω where
  desk := ⟨Writer.start peer boundary setting.settings.chunkSize, .start⟩
  workshop := .start setting.order world
  summary := .start
  exhausted := false

end Session

namespace Batch

variable {ω : Type}

/-- Runs a request against a peer. The outcome is a panic only if the transport panicked outside
every turn. -/
def run (setting : Setting ω) (world : ω) (body : Octets) (info : RequestInfo) (peer : Peer)
    (boundary : Boundary) : Outcome (Session ω) Unit :=
  Session.respond setting body info (.start setting world peer boundary)

/-- Answers a request whose body never arrived. -/
def reject (setting : Setting ω) (world : ω) (r : Rejection) (peer : Peer) (boundary : Boundary) :
    Outcome (Session ω) Unit :=
  Session.refuse setting.settings.debug r (.start setting world peer boundary)

/-- A run over entries that have been accepted. -/
def runEntries (setting : Setting ω) (world : ω) (entries : Members) (peer : Peer)
    (boundary : Boundary) : Outcome (Session ω) Unit :=
  (do Session.takeTurns setting (.start setting.settings.maxEntries entries)
      Session.conclude : Action (Session ω) Unit) (.start setting world peer boundary)

theorem runEntries_eq (setting : Setting ω) (world : ω) (entries : Members) (peer : Peer)
    (boundary : Boundary) {a : Agenda} (agenda : .start setting.settings.maxEntries entries = a) :
    runEntries setting world entries peer boundary =
      (Session.turnsThen setting (Session.lastTurn setting.settings.debug a.fault?) a.admitted >>=
        fun _ => Session.conclude) (.start setting world peer boundary) := by
  subst agenda
  rw [runEntries, Session.takeTurns_eq_turnsThen setting _ rfl]

section Parsed

variable (setting : Setting ω) (world : ω) {body : Octets} {info : RequestInfo} (peer : Peer)
  (boundary : Boundary)

theorem run_of_rejected {r : Rejection} (rejected : Envelope.parse body info = .error r) :
    run setting world body info peer boundary = reject setting world r peer boundary := by
  rw [run, Session.respond, rejected]
  rfl

theorem run_of_accepted {envelope : Envelope}
    (accepted : Envelope.parse body info = .ok envelope) :
    run setting world body info peer boundary =
      runEntries setting world envelope.entries peer boundary := by
  rw [run, Session.respond, accepted]
  rfl

end Parsed

end Batch
end Multicall
