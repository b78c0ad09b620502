import Multicall.Module.System
import Multicall.Proofs.EntryLimit
import Multicall.Proofs.KeptHandlers
/-!
Handlers are loaded once. Wherever a run is broken off, its workshop is one that the entries so far have
shown. So the factory of a namespace is called by as many entries as it takes to yield a handler, and
never again, whatever becomes of other namespaces in between.
-/
namespace Multicall

variable {ω α β : Type}

namespace Batch

variable {setting : Setting ω}

/-- A workshop that turns show: the one behind them all, or one that the last of them has shown. -/
inductive Shown (setting : Setting ω) : List Taken → Workshop ω → Workshop ω → Prop
  | start {w} : Shown setting [] w w
  | last {t w v} (shown : v ∈ statesOf setting.patience (courseOf setting t.id t.body w)) :
      Shown setting [t] w v
  | later {t rest w v}
      (shown : Shown setting rest (pulledBy (courseOf setting t.id t.body w) t.pulled) v) :
      Shown setting (t :: rest) w v

theorem factoryCall_alike {debug : Bool} {w : Workshop ω} {v : Workshop (Watched ω)}
    (alike : Workshop.Alike debug Logged.Beside w v) (r : Registry ω) (ctx : LoadContext)
    (id : String) (body : Json) :
    Entry.factoryCall r ctx w.cache id body = Entry.factoryCall r ctx v.cache id body := by
  rw [Entry.factoryCall, Entry.factoryCall]
  cases Entry.namespace? id body with
  | none => rfl
  | some name =>
    have found := alike.cache.get? name
    dsimp only
    generalize w.cache.get? name = left at found ⊢
    generalize v.cache.get? name = right at found ⊢
    cases found with
    | none => rfl
    | some _ => rfl

/-- Turns over watched modules are those over the modules themselves. -/
theorem courseOf_watched {w : Workshop ω} {v : Workshop (Watched ω)} (id : String) (body : Json)
    (alike : Workshop.Alike setting.settings.debug Logged.Beside w v) :
    (courseOf setting id body w).Alike (Workshop.Alike setting.settings.debug Logged.Beside)
        (EntryResult.Alike setting.settings.debug
          (Workshop.Alike setting.settings.debug Logged.Beside))
        (Panic.Alike setting.settings.debug) (courseOf setting.watched id body v) ∧
      EntryResult.Alike setting.settings.debug
        (Workshop.Alike setting.settings.debug Logged.Beside)
        (resultOf (courseOf setting id body w)) (resultOf (courseOf setting.watched id body v)) := by
  have courses := (Watched.setting_alike setting).process id body w v alike
  exact ⟨courses, resultOf_alike courses (courseOf_outcome setting id body w)
    (courseOf_outcome setting.watched id body v)⟩

theorem fits_of_watched {turns : List Taken} {w : Workshop ω} {v : Workshop (Watched ω)}
    (alike : Workshop.Alike setting.settings.debug Logged.Beside w v)
    (fits : Fits setting.watched turns v) : Fits setting turns w := by
  induction turns generalizing w v with
  | nil => trivial
  | cons t rest ih =>
    obtain ⟨courses, same⟩ := courseOf_watched t.id t.body alike
    refine ⟨?_, ih (pulledBy_alike courses same t.pulled) fits.2⟩
    rw [pulls_length_alike courses same]
    exact fits.1

theorem wholeTurns_watched {w : Workshop ω} {v : Workshop (Watched ω)}
    (alike : Workshop.Alike setting.settings.debug Logged.Beside w v) (entries : Members) :
    wholeTurns setting.watched entries v = wholeTurns setting entries w := by
  induction entries generalizing w v with
  | nil => rfl
  | cons entry rest ih =>
    obtain ⟨id, body⟩ := entry
    obtain ⟨courses, same⟩ := courseOf_watched id body alike
    have count := pulls_length_alike courses same setting.patience
    have next : Workshop.Alike setting.settings.debug Logged.Beside
        (leftBy setting.patience (courseOf setting id body w))
        (leftBy setting.patience (courseOf setting.watched id body v)) := by
      rw [leftBy, leftBy, ← count]
      exact pulledBy_alike courses same _
    rw [wholeTurns, wholeTurns, ← ih next, show setting.watched.patience = setting.patience from rfl,
      ← count]

theorem Shown.hasCalled {turns : List Taken} {w : Workshop ω} {v t : Workshop (Watched ω)}
    (shown : Shown setting.watched turns v t)
    (alike : Workshop.Alike setting.settings.debug Logged.Beside w v)
    {contexts : List ModuleContext} (called : v.HasCalled contexts) :
    t.HasCalled (contexts ++ factoryCalls setting turns w) := by
  have stays (id : String) (body : Json) {v : Workshop (Watched ω)} {contexts : List ModuleContext}
      (called : v.HasCalled contexts) := Entry.process_stays setting.registry
    ⟨setting.settings, setting.app, ⟨true⟩⟩ id body called
  -- a sequence that is pulled asks nothing, so it does not matter how often
  have pulled (id : String) (body : Json) {v : Workshop (Watched ω)} {contexts : List ModuleContext}
      (called : v.HasCalled contexts) (count : Nat) :=
    Workshop.HasAsked.pulled ((stays id body called).states _ (Course.finalState_mem_states _))
      ((stays id body called).answer (courseOf_outcome setting.watched id body v)) count
  induction shown generalizing w contexts with
  | start => rwa [factoryCalls, List.append_nil]
  | @last turn v t shown =>
    rw [factoryCalls, factoryCalls, List.append_nil, factoryCall_alike alike]
    rcases List.mem_append.mp shown with early | late
    · exact (stays turn.id turn.body called).states t early
    · obtain ⟨count, -, rfl⟩ := List.mem_map.mp late
      exact pulled turn.id turn.body called count
  | @later turn rest v t _ ih =>
    obtain ⟨courses, same⟩ := courseOf_watched turn.id turn.body alike
    rw [factoryCalls, ← List.append_assoc, factoryCall_alike alike]
    exact ih (pulledBy_alike courses same turn.pulled)
      (pulled turn.id turn.body called turn.pulled)

end Batch

/-- Whatever is left alone is so where the action ends and where it panics. -/
theorem Action.Leaves.goes {σ κ : Type} {view : σ → κ} {m : Action σ α} (leaves : m.Leaves view)
    (s : σ) : m.Goes s (fun _ t => view t = view s) (fun t => view t = view s) := by
  have same := leaves s
  cases ran : m s with
  | done a t =>
    rw [ran] at same
    exact .inl ⟨a, t, ran, same⟩
  | panicked p t =>
    rw [ran] at same
    exact .inr ⟨p, t, ran, same⟩

namespace Session

open Multicall.Action

theorem atDesk_workshop (m : Action Desk α) :
    (atDesk m : Action (Session ω) α).Leaves Session.workshop :=
  leaves_within fun _ => rfl

theorem abort_workshop (debug : Bool) (f : BatchFault) :
    (abort debug f : Action (Session ω) Unit).Leaves Session.workshop := by
  rw [abort]
  exact Leaves.bind (leaves_modify fun _ => rfl) fun _ => atDesk_workshop _

theorem lastTurn_workshop (debug : Bool) (fault : Option BatchFault) :
    (lastTurn debug fault : Action (Session ω) Unit).Leaves Session.workshop := by
  have guarded_workshop {m next : Action (Session ω) Unit} (first : m.Leaves Session.workshop)
      (second : next.Leaves Session.workshop) :
      (guarded debug m next).Leaves Session.workshop := by
    refine first.attempt.bind fun came => ?_
    cases came with
    | ok _ => exact second
    | error p => exact abort_workshop debug _
  cases fault with
  | none => exact guarded_workshop (atDesk_workshop _) (leaves_pure _)
  | some f =>
    refine guarded_workshop ?_ (abort_workshop debug f)
    cases f with
    | panicked message => exact atDesk_workshop Desk.drain
    | tooManyEntries count limit => exact (atDesk_workshop _).bind fun _ => atDesk_workshop Desk.drain

/-- An action leaves the workshop in the last state of a course, or panics in one that it shows. -/
def Walks (c : Course (Workshop ω) α) (m : Action (Session ω) β) (s : Session ω) : Prop :=
  m.Goes s (fun _ after => after.workshop = c.finalState) fun after => after.workshop ∈ c.states

section Walks

variable {γ : Type} {c : Course (Workshop ω) α} {m : Action (Session ω) β} {s : Session ω}

theorem Walks.then_leaves (walks : Walks c m s) {f : β → Action (Session ω) γ}
    (leaves : ∀ b, (f b).Leaves Session.workshop) : Walks c (m >>= f) s := by
  refine walks.bind fun b t reached => ((leaves b).goes t).weaken ?_ ?_
  · exact fun _ _ same => same.trans reached
  · intro after same
    rw [same.trans reached]
    exact Course.finalState_mem_states c

theorem Walks.shown (walks : Walks c m s) : (m s).state.workshop ∈ c.states := by
  rcases walks with ⟨_, t, ran, reached⟩ | ⟨_, t, ran, shown⟩
  · rw [ran]
    exact reached ▸ Course.finalState_mem_states c
  · rwa [ran]

end Walks

theorem follow_walks (c : Course (Workshop ω) α) (s : Session ω) : Walks c (follow c) s := by
  induction c generalizing s with
  | ended outcome w =>
    cases outcome with
    | ok a => exact .inl ⟨a, { s with workshop := w }, rfl, rfl⟩
    | error p => exact .inr ⟨p, { s with workshop := w }, rfl, List.mem_singleton_self w⟩
  | send c next ih => exact ih _
  | record e next ih => exact ih _
  | suspend w next ih =>
    refine goes_modify_bind _ s ?_
    refine (((atDesk_workshop Desk.step).goes { s with workshop := w }).weaken
      (fun _ _ same => same) ?_).bind ?_
    · rintro after same
      rw [same]
      exact List.mem_cons_self
    · rintro _ t -
      exact (ih t).weaken (fun _ _ same => same) fun _ => List.mem_cons_of_mem w

/-- However a result is written, the modules are left where some of its pulls have brought them: all of
them, if the transport is still there. -/
theorem emit_walks (debug : Bool) (patience : Nat) (id : String) (result : EntryResult ω)
    (s : Session ω) :
    (emit debug patience id result).Goes s
      (fun _ after => ∃ count ≤ (result.pulls patience s.workshop.modules).length,
        after.workshop = s.workshop.moved (result.after count s.workshop.modules) ∧
        (after.desk.writer.outlet.broken = false →
          count = (result.pulls patience s.workshop.modules).length))
      (fun after => ∃ count ≤ (result.pulls patience s.workshop.modules).length,
        after.workshop = s.workshop.moved (result.after count s.workshop.modules)) := by
  obtain ⟨count, bound, told, all⟩ := emit_told debug patience id result s
  rw [Goes, told, atWriter_apply, leaving_writer]
  cases wrote : Encoder.emitAnswer debug id (result.answer patience s.workshop.modules)
      s.desk.writer with
  | done answer w => exact .inl ⟨answer, _, rfl, count, bound, rfl, all answer w wrote⟩
  | panicked p w => exact .inr ⟨p, _, rfl, count, bound, rfl⟩

/-- A turn leaves the workshop behind some pulls of its sequence, or panics in a state that it shows. -/
theorem takeTurn_walks (setting : Setting ω) (id : String) (body : Json) (s : Session ω) :
    (takeTurn setting id body).Goes s
      (fun _ after => ∃ count ≤ ((Batch.resultOf (Batch.courseOf setting id body s.workshop)).pulls
          setting.patience (Batch.courseOf setting id body s.workshop).finalState.modules).length,
        after.workshop = Batch.pulledBy (Batch.courseOf setting id body s.workshop) count ∧
        (after.desk.writer.outlet.broken = false → count =
          ((Batch.resultOf (Batch.courseOf setting id body s.workshop)).pulls setting.patience
            (Batch.courseOf setting id body s.workshop).finalState.modules).length))
      (fun after => after.workshop ∈
        Batch.statesOf setting.patience (Batch.courseOf setting id body s.workshop)) := by
  have walked : Walks (Batch.courseOf setting id body s.workshop)
      (runAlongside (Batch.courseOf setting id body)) s :=
    goes_get_bind _ _ ((follow_walks _ s).then_leaves fun a =>
      (atDesk_workshop Desk.drain).bind fun _ => leaves_pure a)
  show (runAlongside (Batch.courseOf setting id body) >>= _).Goes s _ _
  rw [Goes, bind_apply]
  cases ran : runAlongside (Batch.courseOf setting id body) s with
  | panicked p t =>
    have shown := walked.shown
    rw [ran] at shown
    exact .inr ⟨p, t, rfl, List.mem_append_left _ shown⟩
  | done result middle =>
    obtain ⟨ended, reached⟩ := runAlongside_done ran
    have known : Batch.resultOf (Batch.courseOf setting id body s.workshop) = result := by
      rw [Batch.resultOf, ended]
    have written := emit_walks setting.settings.debug setting.patience id result middle
    rw [← known, show middle.workshop = _ from reached] at written
    rw [← known]
    refine (written.weaken (fun _ _ same => same) ?_).bind ?_
    · rintro after ⟨count, bound, left⟩
      rw [left]
      exact Batch.pulledBy_mem_statesOf bound
    · rintro ⟨_, cut⟩ after ⟨count, bound, left, all⟩
      exact (ends_modify _ _ _ ⟨count, bound, left, all⟩).goes

/-- The end of a batch shows what giving the handlers up shows. -/
theorem conclude_walks (s : Session ω) : Walks (Workshop.closeAll s.workshop) conclude s :=
  goes_get_bind _ _ ((follow_walks _ s).then_leaves fun _ =>
    (atDesk_workshop Desk.drain).bind fun _ => atDesk_workshop _)

/-- The turns of entries show a workshop of the entries so far. Where nothing panics these are all, and
where all is taken all sequences have been pulled up to their ends. -/
theorem turnsThen_shows (setting : Setting ω) {last : Action (Session ω) Unit}
    (still : last.Leaves Session.workshop) (entries : Members) (s : Session ω) :
    ∃ turns : List Taken, turns.map (·.entry) <+: entries ∧
      (s.Has Outlet.Calm → turns.map (·.entry) = entries) ∧
      (s.Has Outlet.Healthy → turns = Batch.wholeTurns setting entries s.workshop) ∧
      Batch.Fits setting turns s.workshop ∧
      Batch.Shown setting turns s.workshop (turnsThen setting last entries s).state.workshop := by
  induction entries generalizing s with
  | nil =>
    refine ⟨[], List.prefix_rfl, fun _ => rfl, fun _ => rfl, trivial, ?_⟩
    rw [turnsThen, still s]
    exact .start
  | cons entry rest ih =>
    obtain ⟨id, body⟩ := entry
    have walks := takeTurn_walks setting id body s
    cases ran : takeTurn setting id body s with
    | done _ t =>
      rw [turnsThen_of_done ran]
      obtain ⟨count, bound, reached, whole⟩ := Goes.of_done walks ran
      obtain ⟨turns, front, all, full, fits, shown⟩ := ih t
      rw [reached] at full fits shown
      have lasts {good : Outlet → Prop} (lasting : Lasting good) (has : s.Has good) : t.Has good := by
        obtain ⟨_, same, again, still⟩ := takeTurn_lasts lasting setting id body s has
        cases ran.symm.trans again
        exact still
      -- The whole turn is behind us: the others' turns start where its pulls have ended.
      refine ⟨⟨id, body, count⟩ :: turns, List.cons_prefix_cons.mpr ⟨rfl, front⟩, fun calm => ?_,
        fun healthy => ?_, ⟨bound, fits⟩, .later shown⟩
      · rw [List.map_cons, all (lasts Outlet.calm_lasts calm)]
        rfl
      · have sound := lasts Outlet.healthy_lasts healthy
        cases whole sound.whole
        rw [full sound, Batch.wholeTurns, Batch.leftBy]
    | panicked p broken =>
      rw [turnsThen, guarded_of_panicked ran]
      have no_panic {good : Outlet → Prop} (lasting : Lasting good) (has : s.Has good) : False := by
        obtain ⟨_, _, again, -⟩ := takeTurn_lasts lasting setting id body s has
        cases ran.symm.trans again
      -- The peer has broken the turn off, and what aborts the batch leaves the workshop alone.
      refine ⟨[⟨id, body, 0⟩], List.cons_prefix_cons.mpr ⟨rfl, List.nil_prefix⟩,
        fun calm => (no_panic Outlet.calm_lasts calm).elim,
        fun healthy => (no_panic Outlet.healthy_lasts healthy).elim,
        ⟨Nat.zero_le _, trivial⟩, .last ?_⟩
      have shown := Goes.of_panicked walks ran
      rwa [← abort_workshop setting.settings.debug (.ofPanic p) broken] at shown

end Session

namespace Batch

/-- The contexts that the factories are called with in a run, one call after the other. -/
def calledContexts (setting : Setting ω) (world : ω) (body : Octets) (info : RequestInfo)
    (peer : Peer) (boundary : Boundary) : List ModuleContext :=
  Request.contexts (requests setting world body info peer boundary)

/-- A run over accepted entries ends in a workshop that some of them show, from the first one on, or
that giving its handlers up shows. -/
theorem runEntries_shows (setting : Setting ω) (world : ω) (entries : Members) (peer : Peer)
    (boundary : Boundary) :
    ∃ (turns : List Taken) (w : Workshop ω),
      turns.map (·.entry) <+: (Agenda.start setting.settings.maxEntries entries).admitted ∧
      (peer.NeverPanics →
        turns.map (·.entry) = (Agenda.start setting.settings.maxEntries entries).admitted) ∧
      (peer.TakesAll → turns = wholeTurns setting
        (Agenda.start setting.settings.maxEntries entries).admitted (.start setting.order world)) ∧
      Fits setting turns (.start setting.order world) ∧
      Shown setting turns (.start setting.order world) w ∧
      ((runEntries setting world entries peer boundary).state.workshop = w ∨
        (runEntries setting world entries peer boundary).state.workshop ∈
          (Workshop.closeAll w).states) := by
  rw [runEntries_eq setting world entries peer boundary rfl, Action.bind_apply]
  obtain ⟨turns, front, all, whole, fits, shown⟩ := Session.turnsThen_shows setting
    (Session.lastTurn_workshop setting.settings.debug
      (Agenda.start setting.settings.maxEntries entries).fault?)
    (Agenda.start setting.settings.maxEntries entries).admitted (.start setting world peer boundary)
  refine ⟨turns, _, front, all, fun takesAll => whole ⟨rfl, takesAll⟩, fits, shown, ?_⟩
  cases Session.turnsThen setting _ _ (Session.start setting world peer boundary) with
  | done _ s => exact .inr (Session.conclude_walks s).shown
  | panicked p s => exact .inl rfl

theorem calledContexts_eq (setting : Setting ω) (world : ω) (body : Octets) (info : RequestInfo)
    (peer : Peer) (boundary : Boundary) {envelope : Envelope}
    (accepted : Envelope.parse body info = .ok envelope) :
    ∃ turns : List Taken,
      turns.map (·.entry) <+: (Agenda.start setting.settings.maxEntries envelope.entries).admitted ∧
      (peer.NeverPanics → turns.map (·.entry) =
        (Agenda.start setting.settings.maxEntries envelope.entries).admitted) ∧
      (peer.TakesAll → turns = wholeTurns setting
        (Agenda.start setting.settings.maxEntries envelope.entries).admitted
        (.start setting.order world)) ∧
      Fits setting turns (.start setting.order world) ∧
      calledContexts setting world body info peer boundary =
        factoryCalls setting turns (.start setting.order world) := by
  obtain ⟨turns, w, front, all, whole, fits, shown, last⟩ :=
    runEntries_shows setting.watched ⟨world, []⟩ envelope.entries peer boundary
  have worlds : Logged.Beside world (⟨world, []⟩ : Watched ω) := rfl
  have alike : Workshop.Alike setting.settings.debug Logged.Beside (.start setting.order world)
      (.start setting.watched.order ⟨world, []⟩) := Workshop.start_alike rfl worlds
  have uncalled : Workshop.HasCalled []
      (Workshop.start setting.order ⟨world, []⟩ : Workshop (Watched ω)) :=
    ⟨rfl, fun entry among => nomatch among⟩
  have called := shown.hasCalled alike uncalled
  refine ⟨turns, front, all, fun takesAll => (whole takesAll).trans (wholeTurns_watched alike _),
    fits_of_watched alike fits, ?_⟩
  rw [calledContexts, requests, run_of_accepted setting.watched _ peer boundary accepted]
  rcases last with same | closing
  · rw [same]
    exact called.called
  · exact ((Workshop.closeAll_stays called).states _ closing).called

/-- For every accepted request, whatever the modules and the peer do. The entries whose turns have begun
are a front piece of those that are admitted, and all of them where the peer never panics. How often a
sequence has been pulled is up to the peer: up to its end, where the peer takes everything. The factory
of a namespace with a readable manifest has then been called once for each of them that names it, up to
the first for which this yields a handler of that name; without such a manifest it has never been called.
That handler is kept, whatever comes behind it, and answers all entries behind that name the namespace.
Each entry before it has come to the failure of its own load, and has left the handlers that are kept as
they were. -/
theorem handler_is_loaded_once (setting : Setting ω) (world : ω) (body : Octets) (info : RequestInfo)
    (peer : Peer) (boundary : Boundary) (envelope : Envelope)
    (accepted : Envelope.parse body info = .ok envelope) :
    ∃ turns : List Taken,
      turns.map (·.entry) <+: (Agenda.start setting.settings.maxEntries envelope.entries).admitted ∧
      (peer.NeverPanics → turns.map (·.entry) =
        (Agenda.start setting.settings.maxEntries envelope.entries).admitted) ∧
      (peer.TakesAll → turns = wholeTurns setting
        (Agenda.start setting.settings.maxEntries envelope.entries).admitted
        (.start setting.order world)) ∧
      Fits setting turns (.start setting.order world) ∧
      calledContexts setting world body info peer boundary =
        factoryCalls setting turns (.start setting.order world) ∧
      (∀ name factory manifest, setting.registry.factories.get? name = some factory →
        setting.registry.manifest name = .ok manifest →
        callsFor name (calledContexts setting world body info peer boundary) =
          (callers setting name turns (.start setting.order world)).map fun _ =>
            ⟨name, setting.settings, setting.app, ⟨true⟩, manifest⟩) ∧
      (∀ name e, setting.registry.manifest name = .error e →
        callsFor name (calledContexts setting world body info peer boundary) = []) ∧
      ∀ before behind, turns = before ++ behind →
        (∀ name h, keptHandler setting name before (.start setting.order world) = some h →
          h.name = name ∧ keptHandler setting name turns (.start setting.order world) = some h) ∧
        ∀ turn rest call, behind = turn :: rest → Call.ofEntry turn.id turn.body = .ok call →
          Answered setting turn.id turn.body call
            (workshopBehind setting before (.start setting.order world))
            (keptHandler setting call.namespaceName before (.start setting.order world)) := by
  obtain ⟨turns, front, all, whole, fits, called⟩ :=
    calledContexts_eq setting world body info peer boundary accepted
  have calls (name : String) := callsFor_of_absent setting name turns (.start setting.order world) rfl
  rw [called]
  refine ⟨turns, front, all, whole, fits, rfl, ?_, ?_, ?_⟩
  · intro name factory manifest registered readable
    rw [calls, Registry.contextOf, registered, readable]
    exact List.flatMap_pure_eq_map ..
  · intro name e unreadable
    have unasked : setting.registry.contextOf ⟨setting.settings, setting.app, ⟨true⟩⟩ name =
        none := by
      rw [Registry.contextOf, unreadable]
      cases setting.registry.factories.get? name with
      | none => rfl
      | some factory => rfl
    rw [calls, unasked]
    exact List.flatMap_eq_nil_iff.mpr fun _ _ => rfl
  · rintro before behind rfl
    refine ⟨fun name h kept => ⟨keptHandler_name before _ h kept, ?_⟩, ?_⟩
    · rw [keptHandler_append, kept, Option.some_or]
    · rintro turn rest call rfl valid
      have answered := answered_of_call setting valid
        (workshopBehind setting before (.start setting.order world))
      rwa [get?_of_turns] at answered

/-! A module that cannot be loaded at first. -/

/-- The factory counts how often it is called: it fails, panics, builds a handler of another name, and
then the right one. -/
def late : Registry Nat := Registry.empty.register "late" fun _ => do
  let before := (← Activity.get).world
  Activity.modify fun m => { m with world := before + 1 }
  match before with
  | 0 => return .error (.invalidHandler "late" "not yet")
  | 1 => Activity.panic (.text "not yet")
  | 2 => return .ok ⟨"early", [], none⟩
  | _ => return .ok ⟨"late", [("ping", System.ping)], none⟩

def lateSetting : Setting Nat := ⟨late, .standard, .empty, fun _ _ => 0, 0⟩

def lateEntries : Members :=
  ["a", "b", "c", "d", "e"].map fun id =>
    (id, .object [("ns", .string "late"), ("function", .string "HELP")])

def lateRequest : Octets := (Json.object
  [("version", .int 1), ("payload", .object lateEntries)]).octets

set_option maxRecDepth 4000 in
theorem lateRequest_accepted :
    Envelope.parse lateRequest ⟨some "application/json", true⟩ = .ok ⟨1, lateEntries⟩ := by
  with_unfolding_all rfl

/-- Five entries call the factory four times; the first three fail, and the others are answered. -/
theorem late_is_loaded_by_the_fourth :
    Envelope.parse lateRequest ⟨some "application/json", true⟩ = .ok ⟨1, lateEntries⟩ ∧
    callsFor "late" (calledContexts lateSetting 0 lateRequest ⟨some "application/json", true⟩
      .accepting ⟨"b"⟩) = List.replicate 4 ⟨"late", .standard, .empty, ⟨true⟩, none⟩ ∧
    (reports lateSetting lateEntries (.start lateSetting.order 0)).1.map (·.result.emitted) =
      [.failure, .failure, .failure, .success, .success] := by
  have four : (callers lateSetting "late" (wholeTurns lateSetting lateEntries
      (.start lateSetting.order 0)) (.start lateSetting.order 0)).length = 4 := by decide +kernel
  obtain ⟨turns, -, -, whole, -, -, calls, -⟩ := handler_is_loaded_once lateSetting 0 lateRequest
    ⟨some "application/json", true⟩ .accepting ⟨"b"⟩ ⟨1, lateEntries⟩ lateRequest_accepted
  obtain rfl : turns = wholeTurns lateSetting lateEntries (.start lateSetting.order 0) :=
    whole Peer.accepting_takes_all
  have called := calls "late" _ none rfl rfl
  rw [List.map_const', four] at called
  exact ⟨lateRequest_accepted, called, by decide +kernel⟩

end Batch
end Multicall
