import Multicall.Proofs.Lasting
/-!
The limit on entries. An agenda gives one turn after the other: entries in their order, and where some
are left when the limit is reached, one fault and nothing more. So a batch within the limit runs as if
there were none, and a longer one runs as its first entries would by themselves, up to the part of the
fault behind theirs. Whatever stands behind the limit plays no part but for how much there is of it.
-/
namespace Multicall

variable {ω : Type}

namespace Agenda

/-- The turns that an agenda has given one after the other, and what it is then. -/
inductive Gives (first : Agenda) : List Turn → Agenda → Prop
  | start : Gives first [] first
  | turn {turns : List Turn} {a b : Agenda} {t : Turn} (before : Gives first turns a)
      (next : a.next = some (t, b)) : Gives first (turns ++ [t]) b

def entryTurns (entries : Members) : List Turn := entries.map fun entry => .entry entry.1 entry.2

/-- What one step can be: the next entry, or the fault that stops the agenda. -/
theorem next_cases {a b : Agenda} {t : Turn} (next : a.next = some (t, b)) :
    a.halted = false ∧ ∃ id body rest, a.pending = (id, body) :: rest ∧
      (a.limitReached = false ∧ t = .entry id body ∧
          b = { a with processed := a.processed + 1, pending := rest } ∨
        a.limitReached = true ∧ t = .fault (.tooManyEntries a.total (a.limit.getD 0)) ∧
          b = { a with halted := true }) := by
  rw [Agenda.next] at next
  by_cases halted : a.halted = true
  · rw [if_pos halted] at next
    cases next
  · rw [if_neg halted] at next
    cases pending : a.pending with
    | nil =>
      rw [pending] at next
      cases next
    | cons entry rest =>
      rw [pending] at next
      refine ⟨Bool.eq_false_iff.mpr halted, entry.1, entry.2, rest, rfl, ?_⟩
      by_cases full : a.limitReached = true
      · simp only [if_pos full, Option.some.injEq, Prod.mk.injEq] at next
        exact .inr ⟨full, next.1.symm, next.2.symm⟩
      · simp only [if_neg full, Option.some.injEq, Prod.mk.injEq] at next
        exact .inl ⟨Bool.eq_false_iff.mpr full, next.1.symm, next.2.symm⟩

/-- Entries have taken their turns so far, and no more of them than the limit admits. -/
structure Underway (limit : Nat) (entries : Members) (turns : List Turn) (a : Agenda) : Prop where
  running : a.halted = false
  bounded : a.limit = some limit
  total : a.total = entries.length
  pending : a.pending = entries.drop a.processed
  admitted : a.processed ≤ limit
  within : a.processed ≤ entries.length
  turns : turns = entryTurns (entries.take a.processed)

/-- As many entries as the limit admits have taken their turns, and then the fault. -/
structure Stopped (limit : Nat) (entries : Members) (turns : List Turn) (a : Agenda) : Prop where
  halted : a.halted = true
  processed : a.processed = limit
  left : limit < entries.length
  turns : turns = entryTurns (entries.take limit) ++ [.fault (.tooManyEntries entries.length limit)]

variable {limit : Nat} {entries : Members} {turns : List Turn} {a b : Agenda} {t : Turn}

theorem Underway.step (underway : Underway limit entries turns a) (next : a.next = some (t, b)) :
    Underway limit entries (turns ++ [t]) b ∨ Stopped limit entries (turns ++ [t]) b := by
  obtain ⟨-, id, body, rest, pending, cases⟩ := next_cases next
  rw [underway.pending] at pending
  have left : a.processed < entries.length := by
    have size := congrArg List.length pending
    rw [List.length_drop, List.length_cons] at size
    omega
  rcases cases with ⟨room, rfl, rfl⟩ | ⟨full, rfl, rfl⟩
  · left
    have one : entries.take (a.processed + 1) = entries.take a.processed ++ [(id, body)] := by
      rw [List.take_add_one, ← List.head?_drop, pending]
      rfl
    have others : rest = entries.drop (a.processed + 1) := by
      rw [← List.tail_drop, pending]
      rfl
    have below : a.processed < limit := by simpa [limitReached, underway.bounded] using room
    refine ⟨underway.running, underway.bounded, underway.total, others, below, left, ?_⟩
    rw [underway.turns, one, entryTurns, entryTurns, List.map_append]
    rfl
  · right
    have reached : limit ≤ a.processed := by simpa [limitReached, underway.bounded] using full
    have all : a.processed = limit := Nat.le_antisymm underway.admitted reached
    refine ⟨rfl, all, all ▸ left, ?_⟩
    rw [underway.turns, all, underway.total, underway.bounded]
    rfl

/-- A stopped agenda gives nothing more. -/
theorem Stopped.next_none (stopped : Stopped limit entries turns a) : a.next = none := by
  rw [Agenda.next, if_pos stopped.halted]

theorem gives_cases (gives : Gives (start (some limit) entries) turns a) :
    Underway limit entries turns a ∨ Stopped limit entries turns a := by
  induction gives with
  | start => exact .inl ⟨rfl, rfl, rfl, rfl, Nat.zero_le _, Nat.zero_le _, rfl⟩
  | turn _ next ih =>
    rcases ih with underway | stopped
    · exact underway.step next
    · exact nomatch stopped.next_none.symm.trans next

theorem Underway.counts (underway : Underway limit entries turns a) :
    a.processed + a.remaining = entries.length := by
  have within := underway.within
  rw [remaining, underway.running, if_neg Bool.false_ne_true, underway.pending, List.length_drop]
  omega

theorem Stopped.nothing_remains (stopped : Stopped limit entries turns a) : a.remaining = 0 := by
  rw [remaining, if_pos stopped.halted]

end Agenda

/-! What is logged before. -/

namespace Outlet

theorem send_logs (block : Octets) (o : Outlet) :
    o.log.toList <+: (send block o).state.log.toList := by
  cases gone : o.broken with
  | true =>
    rw [send_of_broken gone]
    exact List.prefix_rfl
  | false =>
    rw [send_of_whole gone]
    split
    · exact List.prefix_rfl
    · simp [Outcome.state]
    · exact List.prefix_rfl

theorem flush_logs (o : Outlet) : o.log.toList <+: (flush o).state.log.toList := by
  cases gone : o.broken with
  | true =>
    rw [flush_of_broken gone]
    exact List.prefix_rfl
  | false =>
    rw [flush_of_whole gone]
    split
    · exact List.prefix_rfl
    · simp [Outcome.state]

theorem shutdown_logs (o : Outlet) : o.log.toList <+: (shutdown o).state.log.toList := by
  rw [shutdown, Action.modify_apply, Outcome.state]
  split <;> exact List.prefix_rfl

theorem healthy_lasts : Lasting Healthy where
  record _ _ healthy := ⟨healthy.whole, healthy.takesAll⟩
  send block o healthy := (send_ends block o healthy).weaken fun _ _ => And.left
  flush o healthy := (flush_ends o healthy).weaken fun _ _ => And.left
  shutdown o healthy := (shutdown_healthy o healthy).weaken fun _ _ => And.left

/-- What has been logged stays in front of all that is logged later. -/
theorem logged_lasts (front : List Event) :
    Lasting fun o => o.Healthy ∧ front <+: o.log.toList := by
  have grows {m : Action Outlet Unit} {o : Outlet} (ends : m.Ends o fun _ after => after.Healthy)
      (logs : o.log.toList <+: (m o).state.log.toList) (logged : front <+: o.log.toList) :
      m.Ends o fun _ after => after.Healthy ∧ front <+: after.log.toList := by
    obtain ⟨_, after, ran, healthy⟩ := ends
    rw [ran] at logs
    exact ⟨_, after, ran, healthy, logged.trans logs⟩
  constructor
  · intro e o held
    refine ⟨healthy_lasts.record e o held.1, held.2.trans ?_⟩
    simp
  · exact fun block o held => grows (healthy_lasts.send block o held.1) (send_logs block o) held.2
  · exact fun o held => grows (healthy_lasts.flush o held.1) (flush_logs o) held.2
  · exact fun o held => grows (healthy_lasts.shutdown o held.1) (shutdown_logs o) held.2

end Outlet

theorem Encoder.recordAll_eq (events : List Event) (w : Writer) :
    recordAll events w = .done () { w with
      outlet := { w.outlet with log := w.outlet.log ++ events } } := by
  induction events generalizing w with
  | nil => simp [recordAll]
  | cons e rest ih =>
    show recordAll rest { w with outlet := { w.outlet with log := w.outlet.log.push e } } = _
    rw [ih]
    simp

namespace Session

open Multicall.Action

def events (s : Session ω) : List Event := s.desk.writer.outlet.log.toList

variable {b : Boundary} {s : Session ω} {sheets : List Sheet}

theorem Settled.healthy (settled : s.Settled b sheets) : s.desk.writer.outlet.Healthy :=
  settled.shown.keeps.healthy

theorem healthy_of_carries {commands : List PartCommand}
    (carries : s.desk.Carries .clear b sheets commands) : s.desk.writer.outlet.Healthy :=
  carries.choose_spec.2.sound

/-- Applying what is queued adds to the log. -/
theorem drain_logs (healthy : s.desk.writer.outlet.Healthy) :
    (atDesk Desk.drain : Action (Session ω) Unit).Ends s fun _ after => s.events <+: after.events :=
  (atDesk_lasts (Outlet.logged_lasts s.events) Desk.drain Coupling.serves_drain s
    ⟨healthy, List.prefix_rfl⟩).weaken fun _ _ held => held.1.2

/-- The turn that yields nothing more applies what is queued. -/
theorem lastTurn_of_none (debug : Bool) (owes : s.Owes .clear b sheets) :
    (lastTurn debug none).Ends s fun _ after => after.Settled b sheets ∧
      after.workshop = s.workshop ∧ after.summary = s.summary ∧ s.events <+: after.events := by
  obtain ⟨written, owed, trails, rfl⟩ := owes
  have carries := trails.carries
  have drained := (drain_ends b s written owed carries).and (drain_logs (healthy_of_carries carries))
  refine guarded_ends debug drained fun t held => ends_pure _ _ _ ?_
  exact ⟨held.1.1, held.1.2.1, held.1.2.2, held.2⟩

theorem abort_logs (debug : Bool) (f : BatchFault) (s : Session ω)
    (healthy : s.desk.writer.outlet.Healthy) :
    (abort debug f).Ends s fun _ after =>
      s.events ++ Event.ofFailure none (.ofFault f) <+: after.events := by
  refine ends_modify_bind _ _ _ _ ((atWriter_ends _ _
    (fun _ w => s.events ++ Event.ofFailure none (.ofFault f) <+: w.outlet.log.toList) ?_).weaken ?_)
  · have logged : (Encoder.recordAll (Event.ofFailure none (.ofFault f))).Ends s.desk.writer
        fun _ w => w.outlet.Healthy ∧
          s.events ++ Event.ofFailure none (.ofFault f) <+: w.outlet.log.toList :=
      ⟨(), _, Encoder.recordAll_eq _ _, ⟨healthy.whole, healthy.takesAll⟩, by simp [events]⟩
    apply logged.bind
    intro _ w held
    exact ((Outlet.logged_lasts _).writer (Coupling.keeps_writePart _) w held).weaken
      fun _ _ => And.right
  · rintro _ _ ⟨w, log, rfl⟩
    exact log

/-- The fault of the limit is announced, what is queued is applied, and the fault gets its part, behind
all others. -/
theorem lastTurn_of_limit (debug : Bool) (count limit : Nat) (owes : s.Owes .clear b sheets) :
    (lastTurn debug (some (.tooManyEntries count limit))).Ends s fun _ after =>
      after.Settled b (sheets ++
        [.json (Encoder.failureBody debug (.ofFault (.tooManyEntries count limit))).octets]) ∧
      after.workshop = s.workshop ∧ after.summary = { s.summary with aborted := true } ∧
      ∃ late, s.events ++ .tooManyEntries limit count ::
          (late ++ Event.ofFailure none (.ofFault (.tooManyEntries count limit))) <+: after.events ∧
        (s.desk.relay.queue = [] → late = []) := by
  obtain ⟨written, owed, trails, rfl⟩ := owes
  have carries := trails.carries
  obtain ⟨_, noted, announced, carries, logged, still⟩ : (atDesk (Desk.record
      (.tooManyEntries limit count))).Ends s fun _ noted => noted.desk.Carries .clear b written owed ∧
        noted.events = s.events ++ [.tooManyEntries limit count] ∧
        noted.desk.relay = s.desk.relay ∧ noted.workshop = s.workshop ∧
        noted.summary = s.summary := by
    obtain ⟨_, d, ran, carries⟩ := Desk.record_ends (.tooManyEntries limit count) carries
    cases ran
    exact ⟨(), _, rfl, carries, by simp [events], rfl, rfl, rfl⟩
  obtain ⟨_, drained, applied, ⟨settled, unmoved, counted⟩, later, log⟩ :=
    (drain_ends b noted written owed carries).and (drain_logs (healthy_of_carries carries))
  have first : (takeFault (.tooManyEntries count limit)).Ends s fun _ t => t = drained :=
    ⟨(), drained, by rw [takeFault, bind_apply, announced]; exact applied, rfl⟩
  refine guarded_ends debug first fun t same => ?_
  rw [same]
  obtain ⟨_, after, ran, ⟨shown, relay, kept, summed⟩, failed⟩ :=
    (abort_ends b debug (.tooManyEntries count limit) drained _ settled.shown).and
      (abort_logs debug (.tooManyEntries count limit) drained settled.healthy)
  refine ⟨(), after, ran, ⟨shown, by rw [relay, settled.drained]⟩,
    kept.trans (unmoved.trans still.2.1), by rw [summed, counted, still.2.2], later, ?_,
    fun nothing => ?_⟩
  · rw [← log, logged] at failed
    simpa using failed
  · have same := drain_of_drained (s := noted) (still.1 ▸ nothing)
    cases applied.symm.trans same
    simpa using log

/-- Behind the turns of the entries no sequence is cut short any more. -/
theorem exhausted_behind {debug : Bool} {fault : Option BatchFault} {s middle after : Session ω}
    {result : Except Panic Unit} (concluded : conclude middle = .of result after)
    (turned : lastTurn debug fault s = .done () middle) : after.exhausted = s.exhausted := by
  have last := conclude_leaves_exhausted middle
  rw [concluded, Outcome.state_of] at last
  exact last.trans ((lastTurn_leaves_exhausted debug fault).of_done turned)

end Session

/-- A batch that ends with nothing queued and with silent close hooks sends what it has shown. -/
theorem Session.conclude_silent {b : Boundary} {s : Session ω} {sheets : List Sheet}
    (settled : s.Settled b sheets) (silent : (Workshop.closeAll s.workshop).commands = []) :
    conclude.Comes s (Workshop.closeAll s.workshop).outcome fun after =>
      after.workshop = (Workshop.closeAll s.workshop).finalState ∧ after.summary = s.summary ∧
      s.events <+: after.events ∧
      ((Workshop.closeAll s.workshop).outcome = .ok () → after.delivered =
        sheets.flatMap (fun sheet => sheet.ended.octets b) ++ Octets.ofText b.terminator) := by
  obtain ⟨after, ran, reached, counted, arrived⟩ := conclude_comes b s sheets settled.shown
  obtain ⟨same, again, ⟨-, logged⟩, -⟩ :=
    conclude_lasts (Outlet.logged_lasts s.events) s ⟨settled.healthy, List.prefix_rfl⟩
  have one : after = same := by
    have states := congrArg Outcome.state (ran.symm.trans again)
    rwa [Outcome.state_of, Outcome.state_of] at states
  rw [settled.drained, silent] at arrived
  exact ⟨after, ran, reached, counted, one ▸ logged, arrived⟩

/-! Programs that know no limit. -/

/-- The same program without a limit. -/
def Setting.unlimited (setting : Setting ω) : Setting ω :=
  { setting with settings := { setting.settings with maxEntries := none } }

/-- Modules are told of the limit. These load the same when they are told of none. -/
def Setting.Heedless (setting : Setting ω) : Prop :=
  ∀ name, setting.registry.load ⟨setting.unlimited.settings, setting.app, ⟨true⟩⟩ name =
    setting.registry.load ⟨setting.settings, setting.app, ⟨true⟩⟩ name

theorem Setting.heedless_of_factories {setting : Setting ω}
    (each : ∀ entry ∈ setting.registry.factories, ∀ name manifest,
      entry.2 ⟨name, setting.unlimited.settings, setting.app, ⟨true⟩, manifest⟩ =
        entry.2 ⟨name, setting.settings, setting.app, ⟨true⟩, manifest⟩) : setting.Heedless := by
  intro name
  rw [Registry.load, Registry.load]
  cases found : setting.registry.factories.get? name with
  | none => rfl
  | some factory =>
    cases setting.registry.manifest name with
    | error e => rfl
    | ok manifest =>
      exact congrArg (· >>= Registry.check name) (each _ (Assoc.mem_of_get? found) name manifest)

/-- Of the surroundings an entry sees only what loading makes of them. -/
theorem Entry.process_of_load {r : Registry ω} {ctx other : LoadContext}
    (same : ∀ name, r.load ctx name = r.load other name) (id : String) (body : Json) :
    process r ctx id body = process r other id body := by
  have resolved (name : String) :
      Workshop.resolve r ctx name = Workshop.resolve r other name := by
    rw [Workshop.resolve, Workshop.resolve, same]
  have answered : answer r ctx = answer r other := by
    funext call
    rw [answer, answer, resolved]
  rw [process, process, Entry.attempt, Entry.attempt, answered]

theorem Session.takeTurn_unlimited {setting : Setting ω} (heedless : setting.Heedless) (id : String)
    (body : Json) : takeTurn setting.unlimited id body = takeTurn setting id body := by
  have same := Entry.process_of_load heedless id body
  simp only [Setting.unlimited] at same
  simp only [takeTurn, Setting.unlimited, same]

theorem Session.turnsThen_unlimited {setting : Setting ω} (heedless : setting.Heedless)
    (last : Action (Session ω) Unit) (entries : Members) :
    turnsThen setting.unlimited last entries = turnsThen setting last entries := by
  induction entries with
  | nil => rfl
  | cons entry rest ih =>
    obtain ⟨id, body⟩ := entry
    rw [turnsThen, turnsThen, ih, takeTurn_unlimited heedless]
    rfl

namespace Batch

/-- Within the limit it makes no difference that there is one. -/
theorem runEntries_unlimited {setting : Setting ω} (heedless : setting.Heedless) (world : ω)
    {entries : Members} (short : ∀ l, setting.settings.maxEntries = some l → entries.length ≤ l)
    (peer : Peer) (boundary : Boundary) :
    runEntries setting world entries peer boundary =
      runEntries setting.unlimited world entries peer boundary := by
  obtain ⟨all, no_fault⟩ := Agenda.start_within short
  rw [runEntries_eq setting world entries peer boundary rfl, all, no_fault,
    runEntries_eq setting.unlimited world entries peer boundary rfl,
    ← Session.turnsThen_unlimited heedless]
  rfl

/-- Of the entries behind the limit a run knows how many there are. -/
theorem runEntries_of_front {setting : Setting ω} {limit : Nat}
    (limited : setting.settings.maxEntries = some limit) (world : ω) {entries others : Members}
    (size : others.length = entries.length) (front : others.take limit = entries.take limit)
    (peer : Peer) (boundary : Boundary) :
    runEntries setting world others peer boundary =
      runEntries setting world entries peer boundary := by
  have admitted : (Agenda.start (some limit) others).admitted =
      (Agenda.start (some limit) entries).admitted := front
  have fault : (Agenda.start (some limit) others).fault? =
      (Agenda.start (some limit) entries).fault? :=
    congrArg (fun n => if limit < n then some (BatchFault.tooManyEntries n limit) else none) size
  rw [runEntries_eq setting world others peer boundary rfl,
    runEntries_eq setting world entries peer boundary rfl, limited, admitted, fault]

/-- The part of the fault, whether messages are shown or not. -/
def limitPart : ResponsePart where
  mime := "application/json"
  body := (Json.object [("error", .bool true), ("message", .string "Too many operations"),
    ("version", .int 100), ("code", .int 400)]).octets

theorem finished_limit (debug : Bool) (count limit : Nat) :
    (Sheet.json (Encoder.failureBody debug (.ofFault (.tooManyEntries count limit))).octets).finished
      [] = limitPart := by
  have body : Encoder.failureBody debug (.ofFault (.tooManyEntries count limit)) =
      .object [("error", .bool true), ("message", .string "Too many operations"),
        ("version", .int 100), ("code", .int 400)] := by
    cases debug <;> rfl
  rw [body, Sheet.finished, limitPart]
  exact congrArg (ResponsePart.mk _) (List.append_nil _)

/-- What sets a run that the limit cuts off apart from a run over the entries that it admits. -/
structure CutOff (limit count : Nat) (boundary : Boundary) (debug : Bool) (reports : List Report)
    (result : Except Panic Unit) (full after : Session ω) : Prop where
  summary : after.summary = { full.summary with aborted := true }
  workshop : after.workshop = full.workshop
  whole : result = .ok () → full.delivered =
    (Report.parts debug reports).flatMap (ResponsePart.octets boundary) ++
      Octets.ofText boundary.terminator
  response : result = .ok () → after.delivered =
    (Report.parts debug reports ++ [limitPart]).flatMap (ResponsePart.octets boundary) ++
      Octets.ofText boundary.terminator
  /-- Between the warning and the failure stands at most what becomes of commands that the last sequence
  has sent. -/
  announced : ∃ front late, front <+: full.events ∧
    front ++ .tooManyEntries limit count ::
      (late ++ Event.ofFailure none (.ofFault (.tooManyEntries count limit))) <+: after.events ∧
    ((∀ r ∈ reports, r.behind = []) → late = [])

/-- From the start, the entries lead to a session that owes no more than their parts. -/
theorem entries_reach (setting : Setting ω) (world : ω) (entries : Members) (peer : Peer)
    (boundary : Boundary) (takesAll : peer.TakesAll) :
    ∃ middle sheets,
      (∀ last, Session.turnsThen setting last entries (.start setting world peer boundary) =
        last middle) ∧
      middle.Owes .clear boundary sheets ∧
      sheets.map (Sheet.finished []) =
        Report.parts setting.settings.debug (reports setting entries (.start setting.order world)).1 ∧
      middle.workshop = (reports setting entries (.start setting.order world)).2 ∧
      ((∀ r ∈ (reports setting entries (.start setting.order world)).1, r.result.isFinite = true) →
        middle.exhausted = false) ∧
      ((∀ r ∈ (reports setting entries (.start setting.order world)).1, r.behind = []) →
        middle.desk.relay.queue = []) := by
  have begun := Session.start_settled setting world peer boundary takesAll
  obtain ⟨middle, reaches, owes, reached, -, whole, drained⟩ :=
    Session.turnsThen_reaches boundary setting entries _ [] begun.rests.owes
  have parts := Sheet.finished_afterReports setting.settings.debug
    (reports setting entries (.start setting.order world)).1 []
  rw [List.map_nil, List.nil_append] at parts
  exact ⟨middle, _, reaches, owes, parts, reached, whole, fun silent => drained silent begun.drained⟩

theorem cutOff_of_beyond (setting : Setting ω) {limit : Nat}
    (limited : setting.settings.maxEntries = some limit) (world : ω) {entries : Members}
    (beyond : limit < entries.length) (peer : Peer) (boundary : Boundary) (takesAll : peer.TakesAll)
    (silent : ∀ entry ∈ (reports setting (entries.take limit) (.start setting.order world)).2.cache,
      entry.2.ClosesSilently) :
    ∃ result full after,
      runEntries setting world (entries.take limit) peer boundary = .of result full ∧
      runEntries setting world entries peer boundary = .of result after ∧
      CutOff limit entries.length boundary setting.settings.debug
        (reports setting (entries.take limit) (.start setting.order world)).1 result full after ∧
      ((∀ r ∈ (reports setting (entries.take limit) (.start setting.order world)).1,
        r.result.isFinite = true) → full.exhausted = false ∧ after.exhausted = false) := by
  obtain ⟨middle, sheets, reaches, owes, parts, reached, whole, drained⟩ :=
    entries_reach setting world _ peer boundary takesAll
  have quiet : (Workshop.closeAll middle.workshop).commands = [] :=
    Workshop.closeAll_silent _ (by rw [reached]; exact silent)
  -- the entries that are admitted end without a fault
  obtain ⟨_, ended, endRan, settled, keptEnd, countedEnd, loggedEnd⟩ :=
    Session.lastTurn_of_none setting.settings.debug owes
  obtain ⟨full, ran, reachedFull, countedFull, loggedFull, arrivedFull⟩ :=
    Session.conclude_silent settled (by rw [keptEnd]; exact quiet)
  rw [keptEnd] at ran reachedFull arrivedFull
  have short : ∀ l, setting.settings.maxEntries = some l → (entries.take limit).length ≤ l := by
    intro l same
    cases limited.symm.trans same
    exact List.length_take_le _ _
  obtain ⟨all, no_fault⟩ := Agenda.start_within short
  have wholeRun : runEntries setting world (entries.take limit) peer boundary =
      .of (Workshop.closeAll middle.workshop).outcome full := by
    rw [runEntries_eq setting world _ peer boundary rfl, all, no_fault, Action.bind_apply, reaches,
      endRan]
    exact ran
  -- and with the fault a little further on
  obtain ⟨_, faulted, faultRan, settledToo, kept, aborted, late, announced, alone⟩ :=
    Session.lastTurn_of_limit setting.settings.debug entries.length limit owes
  obtain ⟨after, ranToo, reachedToo, countedToo, loggedToo, arrived⟩ :=
    Session.conclude_silent settledToo (by rw [kept]; exact quiet)
  rw [kept] at ranToo reachedToo arrived
  obtain ⟨admitted, fault⟩ := Agenda.start_beyond beyond
  have cutRun : runEntries setting world entries peer boundary =
      .of (Workshop.closeAll middle.workshop).outcome after := by
    rw [runEntries_eq setting world entries peer boundary rfl, limited, admitted, fault,
      Action.bind_apply, reaches, faultRan]
    exact ranToo
  refine ⟨_, full, after, wholeRun, cutRun, ⟨?_, ?_, ?_, ?_, ?_⟩, fun finite => ⟨?_, ?_⟩⟩
  · rw [countedToo, aborted, countedFull, countedEnd]
  · rw [reachedToo, reachedFull]
  · intro ended
    rw [arrivedFull ended, octets_of_sheets boundary _ _ parts]
  · intro ended
    rw [arrived ended]
    refine congrArg (· ++ _) (octets_of_sheets boundary _ _ ?_)
    rw [List.map_append, parts, List.map_singleton, finished_limit]
  · exact ⟨middle.events, late, loggedEnd.trans loggedFull, announced.trans loggedToo,
      fun silent => alone (drained silent)⟩
  · exact (Session.exhausted_behind ran endRan).trans (whole finite)
  · exact (Session.exhausted_behind ranToo faultRan).trans (whole finite)

/-! Requests to the modules. -/

/-- What a run over accepted entries asks of its modules. -/
def requestsOn (setting : Setting ω) (world : ω) (entries : Members) (peer : Peer)
    (boundary : Boundary) : List Request :=
  (runEntries setting.watched ⟨world, []⟩ entries peer boundary).state.workshop.modules.world.log

theorem closesSilently_watched {debug : Bool} {h : Handler ω} {other : Handler (Watched ω)}
    (alike : h.Alike debug Logged.Beside other) (silent : h.ClosesSilently) :
    other.ClosesSilently := by
  intro m
  have related : ModuleState.Alike Logged.Beside ⟨m.world.world, m.nextStream⟩ m := ⟨rfl, rfl⟩
  exact (alike.close _ m related).commands_eq.symm.trans (silent _)

theorem cache_silent_watched {debug : Bool} {cache : Assoc (Handler ω)}
    {others : Assoc (Handler (Watched ω))}
    (alike : Assoc.Alike (Handler.Alike debug Logged.Beside) cache others)
    (silent : ∀ entry ∈ cache, entry.2.ClosesSilently) :
    ∀ entry ∈ others, entry.2.ClosesSilently := by
  induction alike with
  | nil => exact fun entry among => nomatch among
  | cons first _ ih =>
    intro entry among
    rcases List.mem_cons.mp among with rfl | behind
    · exact closesSilently_watched first.2 (silent _ List.mem_cons_self)
    · exact ih (fun entry among => silent entry (List.mem_cons_of_mem _ among)) entry behind

/-- Nothing is asked for the entries behind the limit. -/
theorem requests_of_beyond (setting : Setting ω) {limit : Nat}
    (limited : setting.settings.maxEntries = some limit) (world : ω) {entries : Members}
    (beyond : limit < entries.length) (peer : Peer) (boundary : Boundary) (takesAll : peer.TakesAll)
    (silent : ∀ entry ∈ (reports setting (entries.take limit) (.start setting.order world)).2.cache,
      entry.2.ClosesSilently) :
    requestsOn setting world entries peer boundary =
      requestsOn setting world (entries.take limit) peer boundary := by
  have worlds : Logged.Beside world (⟨world, []⟩ : Watched ω) := rfl
  have workshops := reports_alike (Watched.setting_alike setting) (entries.take limit)
    (.start setting.order world) (.start setting.order ⟨world, []⟩) (Workshop.start_alike rfl worlds)
  obtain ⟨result, full, after, whole, cut, off, -⟩ := cutOff_of_beyond setting.watched limited
    ⟨world, []⟩ beyond peer boundary takesAll (cache_silent_watched workshops.cache silent)
  rw [requestsOn, requestsOn, whole, cut, Outcome.state_of, Outcome.state_of, off.workshop]

/-- For every program whose modules take no notice of the limit, every batch whose sequences are finite
and whose close hooks write nothing, and every peer that takes everything. Within the limit the run
is the one without a limit. Beyond it, it comes to what the first entries come to by themselves
without a limit, cut off by one more part; whatever stands behind the limit, the run is the same, and
nothing is asked of a module for it. And whatever turns an agenda has given: as long as these are
entries, those that have had their turn and those that remain are all entries; when the fault has had
its turn, nothing remains and no turn follows. -/
theorem limit_cuts_batch_off (setting : Setting ω) (limit : Nat)
    (limited : setting.settings.maxEntries = some limit) (heedless : setting.Heedless) (world : ω)
    (entries : Members) (peer : Peer) (boundary : Boundary) (takesAll : peer.TakesAll)
    (finite : ∀ r ∈ (reports setting (entries.take limit) (.start setting.order world)).1,
      r.result.isFinite = true)
    (silent : ∀ entry ∈ (reports setting (entries.take limit) (.start setting.order world)).2.cache,
      entry.2.ClosesSilently) :
    (entries.length ≤ limit → runEntries setting world entries peer boundary =
      runEntries setting.unlimited world entries peer boundary) ∧
    (limit < entries.length → ∃ result full after,
      runEntries setting.unlimited world (entries.take limit) peer boundary = .of result full ∧
      runEntries setting world entries peer boundary = .of result after ∧
      CutOff limit entries.length boundary setting.settings.debug
        (reports setting (entries.take limit) (.start setting.order world)).1 result full after ∧
      full.exhausted = false ∧ after.exhausted = false ∧
      requestsOn setting world entries peer boundary =
        requestsOn setting world (entries.take limit) peer boundary ∧
      ∀ others, others.length = entries.length → others.take limit = entries.take limit →
        runEntries setting world others peer boundary =
          runEntries setting world entries peer boundary) ∧
    ∀ turns a, Agenda.Gives (.start (some limit) entries) turns a →
      a.processed + a.remaining = entries.length ∧
        turns = Agenda.entryTurns (entries.take a.processed) ∨
      limit < entries.length ∧ a.remaining = 0 ∧ a.next = none ∧
        turns = Agenda.entryTurns (entries.take limit) ++
          [.fault (.tooManyEntries entries.length limit)] := by
  have within (few : Members) (short : few.length ≤ limit) :
      runEntries setting world few peer boundary =
        runEntries setting.unlimited world few peer boundary := by
    refine runEntries_unlimited heedless world (fun l same => ?_) peer boundary
    cases limited.symm.trans same
    exact short
  refine ⟨within entries, fun beyond => ?_, fun turns a gives => ?_⟩
  · obtain ⟨result, full, after, whole, cut, off, uncut⟩ :=
      cutOff_of_beyond setting limited world beyond peer boundary takesAll silent
    rw [within _ (List.length_take_le _ _)] at whole
    refine ⟨result, full, after, whole, cut, off, (uncut finite).1, (uncut finite).2, ?_,
      fun others size front => ?_⟩
    · exact requests_of_beyond setting limited world beyond peer boundary takesAll silent
    · exact runEntries_of_front limited world size front peer boundary
  · rcases Agenda.gives_cases gives with underway | stopped
    · exact .inl ⟨underway.counts, underway.turns⟩
    · exact .inr ⟨stopped.left, stopped.nothing_remains, stopped.next_none, stopped.turns⟩

/-! Three notes where two are admitted. -/

def thirdNote : String × Json :=
  ("c", .object [("ns", .string "note"), ("function", .string "add")])

theorem notes_heedless : noteSetting.Heedless := by
  refine Setting.heedless_of_factories fun entry among name manifest => ?_
  obtain rfl := List.mem_singleton.mp among
  rfl

/-- The second note is added, the third is not, and the part of the fault comes last. -/
theorem third_note_is_cut_off :
    2 < (noteEntries ++ [thirdNote]).length ∧
    ∃ after, runEntries noteSetting 0 (noteEntries ++ [thirdNote]) .accepting ⟨"b"⟩ =
        .done () after ∧ after.summary.aborted = true ∧
      after.delivered = [⟨"text/plain", Octets.ofText "hi"⟩,
        ⟨"application/json", Octets.ofText "\x7b\"a\":\x7b\"error\":false,\"result\":null\x7d\x7d"⟩,
        ⟨"application/json", Octets.ofText "\x7b\"b\":\x7b\"error\":false,\"result\":null\x7d\x7d"⟩,
        limitPart].flatMap (ResponsePart.octets ⟨"b"⟩) ++
          Octets.ofText (Boundary.terminator ⟨"b"⟩) := by
  have first : (noteEntries ++ [thirdNote]).take 2 = noteEntries := rfl
  have finite : (reports noteSetting noteEntries (.start noteSetting.order 0)).1.all
      (fun r => r.result.isFinite) = true := by decide +kernel
  have hookless : (reports noteSetting noteEntries (.start noteSetting.order 0)).2.cache.all
      (fun entry => entry.2.onClose.isNone) = true := by decide +kernel
  have parts : Report.parts false (reports noteSetting noteEntries (.start noteSetting.order 0)).1 =
      [⟨"text/plain", Octets.ofText "hi"⟩,
       ⟨"application/json", Octets.ofText "\x7b\"a\":\x7b\"error\":false,\"result\":null\x7d\x7d"⟩,
       ⟨"application/json", Octets.ofText "\x7b\"b\":\x7b\"error\":false,\"result\":null\x7d\x7d"⟩] := by
    decide +kernel
  have ends : (match runEntries noteSetting.unlimited 0 noteEntries .accepting ⟨"b"⟩ with
      | .done _ _ => true
      | .panicked _ _ => false) = true := by decide +kernel
  obtain ⟨-, beyond, -⟩ := limit_cuts_batch_off noteSetting 2 rfl notes_heedless 0
    (noteEntries ++ [thirdNote]) .accepting ⟨"b"⟩ Peer.accepting_takes_all
    (by rw [first]; exact List.all_eq_true.mp finite)
    (by
      rw [first]
      intro entry among m
      have none := Option.isNone_iff_eq_none.mp (List.all_eq_true.mp hookless entry among)
      exact Handler.closesSilently_of_hookless none m)
  obtain ⟨result, full, after, whole, ran, off, -⟩ := beyond (by decide)
  rw [first] at whole off
  have ended : result = .ok () := by
    rw [whole] at ends
    cases result with
    | ok _ => rfl
    | error p => cases ends
  have delivered := off.response ended
  rw [show noteSetting.settings.debug = false from rfl, parts] at delivered
  rw [ended] at ran
  exact ⟨by decide, after, ran, by rw [off.summary], delivered⟩

/-! A module that tells the limit it was told of. -/

def teller : Registry Unit := Registry.empty.register "limit" fun ctx =>
  return .ok ⟨"limit", [("tell", ⟨"tell", [], "int", fun _ =>
    return .ok (.json (.int (ctx.settings.maxEntries.getD 0)))⟩)], none⟩

def tellerSetting : Setting Unit := ⟨teller, ⟨false, none, some 1, 4096⟩, .empty, fun _ _ => 0, 0⟩

def tellerEntries : Members :=
  [("a", .object [("ns", .string "limit"), ("function", .string "tell")])]

/-- One entry is within a limit of one, and yet the response shows that there is a limit. -/
theorem limit_shows_where_it_is_told :
    tellerSetting.settings.maxEntries = some 1 ∧ tellerEntries.length ≤ 1 ∧
    Peer.accepting.TakesAll ∧
    (reports tellerSetting tellerEntries (.start tellerSetting.order ())).1.all
      (fun r => r.result.isFinite) = true ∧
    (reports tellerSetting tellerEntries (.start tellerSetting.order ())).2.cache.all
      (fun entry => entry.2.onClose.isNone) = true ∧
    runEntries tellerSetting () tellerEntries .accepting ⟨"b"⟩ ≠
      runEntries tellerSetting.unlimited () tellerEntries .accepting ⟨"b"⟩ := by
  refine ⟨rfl, by decide, Peer.accepting_takes_all, by decide +kernel, by decide +kernel, ?_⟩
  intro same
  have differ : (runEntries tellerSetting () tellerEntries .accepting ⟨"b"⟩).state.delivered ≠
      (runEntries tellerSetting.unlimited () tellerEntries .accepting ⟨"b"⟩).state.delivered := by
    decide +kernel
  exact differ (by rw [same])

end Batch
end Multicall
