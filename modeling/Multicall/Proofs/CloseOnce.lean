import Multicall.Proofs.Ledger
import Multicall.Proofs.LoadOnce
/-!
Handlers are closed once. The cache of a batch holds all handlers that are open between its loads, and
the end of the batch closes them. So where a run ends, each handler that was built has been closed once:
in its load if the load did not yield it, else behind the last turn and before the response ends.
-/
namespace Multicall

variable {ω α β : Type}

/-! What entries enter. -/

/-- The loads that an entry leads to: none where a handler is kept. Each is told by its namespace and
the state in which it begins. -/
def Entry.loads (w : Workshop ω) (id : String) (body : Json) : List (String × ModuleState ω) :=
  match Entry.namespace? id body with
  | none => []
  | some name => if (w.cache.get? name).isSome then [] else [(name, w.modules)]

namespace Batch

/-- The loads that turns lead to one after the other. -/
def loads (setting : Setting ω) : List Taken → Workshop ω → List (String × ModuleState ω)
  | [], _ => []
  | t :: rest, w =>
      Entry.loads w t.id t.body ++
        loads setting rest (pulledBy (courseOf setting t.id t.body w) t.pulled)

/-- What is done in a load. -/
def loadDeeds (setting : Setting (Tracked ω)) (load : String × ModuleState (Tracked ω)) :
    List Deed :=
  (setting.load load.1 load.2).finalState.world.log.drop load.2.world.log.length

variable {live : List (Nat × String)} {name : String} {m : ModuleState (Tracked ω)}

theorem load_adds (works : Works ω) (name : String) (ledger : Ledger live m.world.log) :
    (works.tracked.setting.load name m).finalState.world.log =
      m.world.log ++ loadDeeds works.tracked.setting (name, m) := by
  have hands := (load_settles works name ⟨List.prefix_rfl, ledger⟩).reached
  have goes_on : m.world.log <+: (works.tracked.setting.load name m).finalState.world.log := by
    generalize (works.tracked.setting.load name m).outcome = outcome at hands
    match outcome, hands with
    | .ok (.ok _), ⟨_, _, books⟩ => exact books.front
    | .ok (.error _), books | .error _, books => exact books.front
  exact (List.prefix_iff_eq_append.mp goes_on).symm

/-- With what a load builds and does not yield all is done when it ends. -/
theorem load_over (works : Works ω) (name : String) (ledger : Ledger live m.world.log)
    (number : Nat) :
    history number (loadDeeds works.tracked.setting (name, m)) = [] ∨
    Deed.Over number (history number (loadDeeds works.tracked.setting (name, m))) ∨
    ∃ h, (works.tracked.setting.load name m).outcome = .ok (.ok h) ∧ h.Numbered (number, name) ∧
      history number (loadDeeds works.tracked.setting (name, m)) = [.built number name] := by
  have hands := (load_settles works name ⟨List.prefix_rfl, ledger⟩).reached
  have adds := load_adds works name ledger
  cases came : (works.tracked.setting.load name m).outcome with
  | error p =>
    rw [came] at hands
    have closed : Ledger ([] ++ live) _ := adds ▸ hands.ledger
    rcases ledger.added closed number with nothing | ended | ⟨_, ⟨⟩, _⟩
    · exact .inl nothing
    · exact .inr (.inl ended)
  | ok built =>
    cases built with
    | error e =>
      rw [came] at hands
      have closed : Ledger ([] ++ live) _ := adds ▸ hands.ledger
      rcases ledger.added closed number with nothing | ended | ⟨_, ⟨⟩, _⟩
      · exact .inl nothing
      · exact .inr (.inl ended)
    | ok h =>
      rw [came] at hands
      obtain ⟨entry, numbered, books⟩ := hands
      have opened : Ledger ([entry] ++ live) _ := adds ▸ books.ledger
      have named : entry.2 = name := numbered.name.symm.trans (Setting.load_name came)
      rcases ledger.added opened number with nothing | ended | ⟨other, among, built⟩
      · exact .inl nothing
      · exact .inr (.inl ended)
      · obtain rfl := List.mem_singleton.mp among
        obtain rfl : other = name := named
        exact .inr (.inr ⟨h, rfl, numbered, built⟩)

end Batch

namespace Workshop

/-- So much has been done, and the handlers that are kept are the open ones. -/
structure Balanced (sofar : List Deed) (kept : List (Nat × String)) (w : Workshop (Tracked ω)) :
    Prop where
  deeds : w.modules.world.log = sofar
  cache : List.Forall₂ (fun entry fellow => entry.1 = fellow.2 ∧ entry.2.Numbered fellow) w.cache kept
  ledger : Ledger kept sofar

variable {sofar : List Deed} {kept : List (Nat × String)} {w : Workshop (Tracked ω)}

theorem Balanced.numbered (balanced : w.Balanced sofar kept) :
    ∀ entry ∈ w.cache, ∃ fellow, entry.2.Numbered fellow := by
  have each := balanced.cache
  clear balanced
  generalize w.cache = cache at each
  induction each with
  | nil => exact fun _ among => nomatch among
  | @cons entry fellow _ _ first _ ih => exact List.forall_mem_cons.mpr ⟨⟨fellow, first.2⟩, ih⟩

/-- Operations build no handlers and close none. -/
theorem invoke_balanced (op : Operation ω) (arguments : Arguments)
    (balanced : w.Balanced sofar kept) :
    (inModules (op.tracked.invoke arguments) w).Stays (Balanced sofar kept) fun came =>
      ∃ own : Except Raised (Payload ω), came = own.map Payload.unseen := by
  have unseen : (Logged.unseen (op.invoke arguments) w.modules).Stays
      (fun m => m.world.log = w.modules.world.log) (fun _ => True) :=
    (Course.stays_anywhere _).mapState fun _ _ => rfl
  have invoked : (op.tracked.invoke arguments w.modules).Stays
      (fun m => m.world.log = w.modules.world.log) fun came =>
        ∃ own : Except Raised (Payload ω), came = own.map Payload.unseen :=
    unseen.andThen (fun _ same => same) fun own _ _ same => .ended ⟨own, rfl⟩ same
  exact invoked.mapState fun _ same =>
    ⟨same.trans balanced.deeds, balanced.cache, balanced.ledger⟩

/-- Nor does a sequence that is pulled. -/
theorem Balanced.pulled {c : Course (Workshop (Tracked ω)) (EntryResult (Tracked ω))}
    (balanced : c.finalState.Balanced sofar kept) (unlogged : (Batch.resultOf c).Unlogged)
    (count : Nat) : (Batch.pulledBy c count).Balanced sofar kept where
  deeds := (unlogged.log_after count _).trans balanced.deeds
  cache := balanced.cache
  ledger := balanced.ledger

/-- A load has ended so, and what it yields is not kept yet. -/
structure Loaded (sofar : List Deed) (kept : List (Nat × String)) (name : String)
    (result : Except Panic (Except LoadError (Handler (Tracked ω)))) (w : Workshop (Tracked ω)) :
    Prop where
  deeds : w.modules.world.log = sofar
  hands : Tracked.Hands [] kept result w.modules
  cache : List.Forall₂ (fun entry fellow => entry.1 = fellow.2 ∧ entry.2.Numbered fellow) w.cache kept
  absent : w.cache.get? name = none
  named : ∀ h, result = .ok (.ok h) → h.name = name

theorem Loaded.keep {name : String} {built : Except LoadError (Handler (Tracked ω))}
    (loaded : Loaded sofar kept name (.ok built) w) :
    (keep name built w).Stays (fun v => ∃ kept, v.Balanced sofar kept)
      fun built => ∀ h, built = .ok h → ∃ fellow, h.Numbered fellow := by
  cases built with
  | error e =>
    refine .record _ (.ended ?_ ⟨kept, loaded.deeds, loaded.cache, ?_⟩)
    · exact fun _ same => nomatch same
    · exact loaded.deeds ▸ loaded.hands.ledger
  | ok h =>
    obtain ⟨fellow, numbered, books⟩ := loaded.hands
    have named : name = fellow.2 := (loaded.named h rfl).symm.trans numbered.name
    refine .ended ?_ ⟨kept ++ [fellow], loaded.deeds, ?_, ?_⟩
    · rintro _ ⟨⟩
      exact ⟨fellow, numbered⟩
    · show List.Forall₂ _ (w.cache.set name h) _
      rw [Assoc.set_of_get?_none h loaded.absent]
      exact List.rel_append loaded.cache (.cons ⟨named, numbered⟩ .nil)
    · have ledger : Ledger (fellow :: kept) sofar := loaded.deeds ▸ books.ledger
      exact ledger.perm (List.perm_append_singleton fellow kept).symm

/-- Where a handler is kept there is no load; where none is there is one, and what it yields is kept. -/
theorem resolve_balanced (works : Works ω) (name : String) (balanced : w.Balanced sofar kept) :
    (resolve works.tracked.setting.registry ⟨works.settings, works.app, ⟨true⟩⟩ name w).Stays
      (fun v => ∃ kept, v.Balanced (sofar ++
        (if (w.cache.get? name).isSome then [] else [(name, w.modules)]).flatMap
          (Batch.loadDeeds works.tracked.setting)) kept)
      fun built => ∀ h, built = .ok h → ∃ fellow, h.Numbered fellow := by
  cases found : w.cache.get? name with
  | some h =>
    rw [resolve_of_kept found, Option.isSome_some, if_pos rfl, List.flatMap_nil, List.append_nil]
    refine .ended ?_ ⟨kept, balanced⟩
    rintro _ ⟨⟩
    exact balanced.numbered _ (Assoc.mem_of_get? found)
  | none =>
    rw [resolve_of_absent found, Option.isSome_none, if_neg Bool.false_ne_true,
      List.flatMap_singleton]
    have ledger : Ledger kept w.modules.world.log := balanced.deeds ▸ balanced.ledger
    have hands := load_settles works name ⟨List.nil_prefix, ledger⟩
    have adds := Batch.load_adds works name ledger
    rw [balanced.deeds] at adds
    have loads : (works.tracked.setting.load name w.modules).Settles fun result m =>
        Loaded (sofar ++ Batch.loadDeeds works.tracked.setting (name, w.modules)) kept name result
          { w with modules := m } :=
      Course.settles_of_prompt hands.prompt
        ⟨adds, hands.reached, balanced.cache, found, fun _ => Setting.load_name⟩
    refine (loads.mapState fun _ _ loaded => loaded).andThen_stays ?_ ?_
    · exact fun _ _ loaded => loaded.keep
    · exact fun _ _ loaded => ⟨kept, loaded.deeds, loaded.cache, loaded.deeds ▸ loaded.hands.ledger⟩

end Workshop

namespace Entry

variable {sofar : List Deed} {kept : List (Nat × String)} {w : Workshop (Tracked ω)}

theorem invoke_balanced {h : Handler (Tracked ω)} {fellow : Nat × String}
    (numbered : h.Numbered fellow) (name : String) (supplied : Members)
    (balanced : w.Balanced sofar kept) :
    (invoke h name supplied w).Stays (fun v => ∃ kept, v.Balanced sofar kept)
      EntryResult.Unlogged := by
  obtain ⟨own, -, -, rfl⟩ := numbered
  have operations : (own.tracked fellow.1).operation? name =
      (own.operations.get? name).map Operation.tracked :=
    Handler.operation?_logged _ _ own name
  rw [invoke, operations]
  cases own.operations.get? name with
  | none => exact .ended (EntryResult.unlogged_of_error _) ⟨kept, balanced⟩
  | some op =>
    dsimp only [Option.map_some]
    cases Operation.bindArguments op.tracked.name op.tracked.parameters supplied with
    | error f => exact .ended (EntryResult.unlogged_of_error f) ⟨kept, balanced⟩
    | ok arguments =>
      refine (Workshop.invoke_balanced op arguments balanced).andThen
        (fun _ balanced => ⟨kept, balanced⟩) ?_
      rintro _ v ⟨own, rfl⟩ balanced
      cases own with
      | ok payload => exact .ended ⟨.ok payload, rfl⟩ ⟨kept, balanced⟩
      | error raised => exact .ended (EntryResult.unlogged_of_error _) ⟨kept, balanced⟩

/-- Wherever an entry may be broken off, its loads are behind it, and the ledger is the one they
leave. -/
theorem process_balanced (works : Works ω) (id : String) (body : Json)
    (balanced : w.Balanced sofar kept) :
    (Batch.courseOf works.tracked.setting id body w).Stays
      (fun v => ∃ kept, v.Balanced
        (sofar ++ (loads w id body).flatMap (Batch.loadDeeds works.tracked.setting)) kept)
      EntryResult.Unlogged := by
  have attempted : (Entry.attempt works.tracked.setting.registry
      ⟨works.settings, works.app, ⟨true⟩⟩ id body w).Stays
      (fun v => ∃ kept, v.Balanced
        (sofar ++ (loads w id body).flatMap (Batch.loadDeeds works.tracked.setting)) kept)
      EntryResult.Unlogged := by
    rw [Entry.attempt, loads, namespace?]
    cases Call.ofEntry id body with
    | error f =>
      exact .ended (EntryResult.unlogged_of_error f)
        ⟨kept, by simpa [Except.toOption] using balanced⟩
    | ok call =>
      refine (Workshop.resolve_balanced works call.namespaceName balanced).andThen
        (fun _ balanced => balanced) ?_
      rintro (e | h) v numbered balanced
      · exact .ended (EntryResult.unlogged_of_error _) balanced
      · dsimp only
        cases call.invocation with
        | list => exact .ended (EntryResult.unlogged_of_json _) balanced
        | describe name => exact .ended (EntryResult.unlogged_of_json _) balanced
        | call name =>
          obtain ⟨fellow, numbered⟩ := numbered h rfl
          obtain ⟨kept, balanced⟩ := balanced
          exact invoke_balanced numbered name _ balanced
  refine attempted.attempt.andThen (fun _ balanced => balanced) ?_
  rintro (p | result) v unlogged balanced
  · exact .ended (EntryResult.unlogged_of_error _) balanced
  · exact .ended (unlogged result rfl) balanced

/-- However often its sequence is pulled, nothing is built or closed by that. -/
theorem pulled_balanced (works : Works ω) (id : String) (body : Json) (count : Nat)
    (balanced : w.Balanced sofar kept) :
    ∃ kept, (Batch.pulledBy (Batch.courseOf works.tracked.setting id body w) count).Balanced
      (sofar ++ (loads w id body).flatMap (Batch.loadDeeds works.tracked.setting)) kept := by
  have stays := process_balanced works id body balanced
  obtain ⟨kept, balanced⟩ := stays.states _ (Course.finalState_mem_states _)
  exact ⟨kept, balanced.pulled (stays.answer (Batch.courseOf_outcome _ id body w)) count⟩

end Entry

namespace Batch

variable {sofar : List Deed} {kept : List (Nat × String)} {w v : Workshop (Tracked ω)}
  {turns : List Taken}

theorem Shown.balanced (works : Works ω) (shown : Shown works.tracked.setting turns w v)
    (balanced : w.Balanced sofar kept) :
    ∃ kept, v.Balanced (sofar ++ (loads works.tracked.setting turns w).flatMap
      (loadDeeds works.tracked.setting)) kept := by
  induction shown generalizing sofar kept with
  | start => exact ⟨kept, by rwa [loads, List.flatMap_nil, List.append_nil]⟩
  | @last t w v shown =>
    rw [loads, loads, List.append_nil]
    rcases List.mem_append.mp shown with early | late
    · exact (Entry.process_balanced works t.id t.body balanced).states v early
    · obtain ⟨count, -, rfl⟩ := List.mem_map.mp late
      exact Entry.pulled_balanced works t.id t.body count balanced
  | @later t rest w v _ ih =>
    obtain ⟨kept, balanced⟩ := Entry.pulled_balanced works t.id t.body t.pulled balanced
    rw [loads, List.flatMap_append, ← List.append_assoc]
    exact ih balanced

/-- Every load begins with a ledger that is balanced. -/
theorem loads_balanced (works : Works ω) (turns : List Taken) (balanced : w.Balanced sofar kept) :
    ∀ load ∈ loads works.tracked.setting turns w, ∃ live, Ledger live load.2.world.log := by
  induction turns generalizing w sofar kept with
  | nil => exact fun _ among => nomatch among
  | cons t rest ih =>
    intro load among
    rcases List.mem_append.mp among with first | later
    · rw [Entry.loads] at first
      split at first
      · cases first
      · split at first
        · cases first
        · rw [List.mem_singleton.mp first]
          exact ⟨kept, balanced.deeds ▸ balanced.ledger⟩
    · obtain ⟨kept, balanced⟩ := Entry.pulled_balanced works t.id t.body t.pulled balanced
      exact ih balanced load later

end Batch

namespace Workshop

variable {sofar : List Deed} {kept : List (Nat × String)} {w : Workshop (Tracked ω)}

theorem closeHandlers_settles {handlers : List (Handler (Tracked ω))}
    {entries : List (Nat × String)}
    (numbered : List.Forall₂ Handler.Numbered handlers entries) (w : Workshop (Tracked ω)) :
    (closeHandlers handlers w).Settles fun result v => ∀ done, result = .ok done →
      v.modules.world.log =
        w.modules.world.log ++ entries.map fun entry => .closed entry.1 entry.2 := by
  induction numbered generalizing w with
  | nil => exact .ended fun _ _ => (List.append_nil _).symm
  | @cons h entry rest others first _ ih =>
    have closes : (inModules h.close w).Settles fun _ v => v.modules.world.log =
        w.modules.world.log ++ [.closed entry.1 entry.2] :=
      (first.close w.modules).mapState fun _ _ same => same
    refine closes.andThen ?_ ?_
    · intro _ v same
      rw [List.map_cons, List.append_cons, ← same]
      exact ih v
    · exact fun _ _ _ _ same => nomatch same

/-- Where the end of a batch is reached, it has closed all handlers that were kept, in some order. -/
theorem closeAll_settles (balanced : w.Balanced sofar kept) :
    ∃ gone : List (Nat × String), gone.Perm kept ∧
      (closeAll w).Settles fun result v => ∀ done, result = .ok done →
        v.modules.world.log = sofar ++ gone.map fun entry => .closed entry.1 entry.2 := by
  have numbered : List.Forall₂ Handler.Numbered (w.cache.map (·.2)) kept :=
    List.forall₂_map_left_iff.mpr (balanced.cache.imp fun _ _ both => both.2)
  obtain ⟨gone, leaving, same⟩ := List.perm_comp_forall₂ w.leaving_perm numbered
  refine ⟨gone, same, ?_⟩
  rw [← balanced.deeds]
  exact closeHandlers_settles leaving { w with cache := [] }

end Workshop

/-! Whole runs. -/

theorem Session.refuse_workshop (debug : Bool) (r : Rejection) :
    (refuse debug r : Action (Session ω) Unit).Leaves Session.workshop :=
  (atDesk_workshop _).bind fun _ =>
    Action.Leaves.bind (Action.leaves_modify fun _ => rfl) fun _ => atDesk_workshop _

namespace Batch

/-- How the handlers of a run over accepted entries are closed: `turned` is the run behind its last
turn, when all results have been handed to the writer, and `closed` the run right before its end. -/
structure ClosesInTime (works : Works ω) (world : ω) (entries : Members) (peer : Peer)
    (boundary : Boundary) (processed : List Taken) (kept : List (Nat × String))
    (turned closed ended : Session (Tracked ω)) : Prop where
  turns : Session.takeTurns works.tracked.setting (.start works.settings.maxEntries entries)
    (.start works.tracked.setting ⟨world, []⟩ peer boundary) = .done () turned
  admitted : processed.map (·.entry) <+: (Agenda.start works.settings.maxEntries entries).admitted
  fits : Fits works.tracked.setting processed (.start works.order ⟨world, []⟩)
  /-- Until then nothing is done outside of loads. -/
  loaded : turned.workshop.modules.world.log =
    (loads works.tracked.setting processed (.start works.order ⟨world, []⟩)).flatMap
      (loadDeeds works.tracked.setting)
  /-- What a load builds is closed in it, unless the load yields it under the name it is asked for. -/
  each_load : ∀ load ∈ loads works.tracked.setting processed (.start works.order ⟨world, []⟩), ∀ number,
    history number (loadDeeds works.tracked.setting load) = [] ∨
    Deed.Over number (history number (loadDeeds works.tracked.setting load)) ∨
    ∃ h, (works.tracked.setting.load load.1 load.2).outcome = .ok (.ok h) ∧
      h.Numbered (number, load.1) ∧
      history number (loadDeeds works.tracked.setting load) = [.built number load.1]
  cached : List.Forall₂ (fun entry fellow => entry.1 = fellow.2 ∧ entry.2.Numbered fellow)
    turned.workshop.cache kept
  closing : Session.follow (Workshop.closeAll turned.workshop) turned = .done () closed
  unsent : closed.desk.writer.outlet.transport = turned.desk.writer.outlet.transport
  hooks : ∃ gone : List (Nat × String), gone.Perm kept ∧
    closed.workshop.modules.world.log = turned.workshop.modules.world.log ++
      gone.map fun entry => .closed entry.1 entry.2
  /-- The terminator is sent behind all that. -/
  ending : (do Session.atDesk Desk.drain
               Session.atWriter Writer.finish : Action (Session (Tracked ω)) Unit) closed =
    .done () ended
  untouched : ended.workshop = closed.workshop

theorem closesInTime_of_done (works : Works ω) (world : ω) (entries : Members) (peer : Peer)
    (boundary : Boundary) {ended : Session (Tracked ω)}
    (returned : runEntries works.tracked.setting ⟨world, []⟩ entries peer boundary =
      .done () ended) :
    ∃ processed kept turned closed,
      ClosesInTime works world entries peer boundary processed kept turned closed ended ∧
      Ledger [] closed.workshop.modules.world.log := by
  obtain ⟨_, turned, turns, concluded⟩ := Action.done_of_bind returned
  obtain ⟨_, closed, closing, ending⟩ := Action.done_of_bind
    (show (Session.follow (Workshop.closeAll turned.workshop) >>= fun _ =>
      (do Session.atDesk Desk.drain; Session.atWriter Writer.finish)) turned = .done () ended
      from concluded)
  -- the turns have shown a workshop whose cache holds the open handlers
  have begun : Workshop.Balanced [] [] (.start works.order ⟨world, []⟩ : Workshop (Tracked ω)) :=
    ⟨rfl, .nil, .start⟩
  obtain ⟨processed, front, -, -, fits, shown⟩ := Session.turnsThen_shows works.tracked.setting
    (Session.lastTurn_workshop works.tracked.setting.settings.debug
      (Agenda.start works.tracked.setting.settings.maxEntries entries).fault?)
    (Agenda.start works.tracked.setting.settings.maxEntries entries).admitted
    (.start works.tracked.setting ⟨world, []⟩ peer boundary)
  have reached := turns
  rw [Session.takeTurns_eq_turnsThen works.tracked.setting _ rfl] at reached
  rw [reached, Outcome.state] at shown
  obtain ⟨kept, balanced⟩ := shown.balanced works begun
  -- giving them up waits for nothing, so nothing is sent on the way
  obtain ⟨gone, same, settles⟩ := Workshop.closeAll_settles balanced
  obtain ⟨after, followed, unsent, -⟩ := Session.follow_prompt _ settles.prompt turned
  rw [closing] at followed
  have walked := Session.follow_walks (Workshop.closeAll turned.workshop) turned
  have hooks := settles.reached
  generalize came : (Workshop.closeAll turned.workshop).outcome = outcome at followed hooks
  cases outcome with
  | error p => cases followed
  | ok _ =>
    cases followed
    have done := hooks _ rfl
    rw [← Action.Goes.of_done walked closing] at done
    refine ⟨processed, kept, turned, closed, ⟨turns, front, fits, ?_, ?_, balanced.cache, closing,
      unsent, ?_, ending, ?_⟩, ?_⟩
    · exact balanced.deeds
    · intro load among
      obtain ⟨live, ledger⟩ := loads_balanced works processed begun load among
      exact load_over works load.1 ledger
    · exact ⟨gone, same, by rw [done, balanced.deeds]⟩
    · have still : (do Session.atDesk Desk.drain
                       Session.atWriter Writer.finish : Action (Session (Tracked ω)) Unit).Leaves
          Session.workshop := (Session.atDesk_workshop _).bind fun _ => Session.atDesk_workshop _
      exact still.of_done ending
    · rw [done]
      exact (balanced.ledger.perm same.symm).closed_all

/-- For every run that returns, over modules that make their handlers as they like and keep them in
owners: the hook of each handler that was built has run exactly once, behind the build and with the
handler's own name, and no other hook has run; where a build was refused none has. A handler that its
load does not yield, as one of another name, is closed in that load. The handlers that are kept are
closed when all turns are over and before the response is ended, and nothing is sent in between. -/
theorem close_hooks_run_once (works : Works ω) (world : ω) (body : Octets) (info : RequestInfo)
    (peer : Peer) (boundary : Boundary) (after : Session ω)
    (returned : run works.setting world body info peer boundary = .done () after) :
    (∀ number, history number (deeds works world body info peer boundary) = [] ∨
      Deed.Over number (history number (deeds works world body info peer boundary))) ∧
    (∀ r, Envelope.parse body info = .error r → deeds works world body info peer boundary = []) ∧
    ∀ envelope, Envelope.parse body info = .ok envelope → ∃ processed kept turned closed ended,
      ClosesInTime works world envelope.entries peer boundary processed kept turned closed ended ∧
      closed.workshop.modules.world.log = deeds works world body info peer boundary ∧
      ended.desk.writer.outlet.transport = after.desk.writer.outlet.transport := by
  -- the deeds are those of the tracked run, which sends what the run itself sends
  have same := tracking_changes_nothing works world body info peer boundary
  rw [returned] at same
  obtain ⟨ended, ran, transports⟩ : ∃ ended, run works.tracked.setting ⟨world, []⟩ body info peer
      boundary = .done () ended ∧
      ended.desk.writer.outlet.transport = after.desk.writer.outlet.transport := by
    generalize run works.tracked.setting ⟨world, []⟩ body info peer boundary = outcome at same
    cases same with
    | done _ related => exact ⟨_, rfl, related.1.symm⟩
  have all : deeds works world body info peer boundary = ended.workshop.modules.world.log := by
    rw [deeds, ran]
    rfl
  rw [all]
  cases parsed : Envelope.parse body info with
  | error r =>
    rw [run_of_rejected works.tracked.setting _ peer boundary parsed] at ran
    have untouched := (Session.refuse_workshop works.settings.debug r).of_done ran
    have nothing : ended.workshop.modules.world.log = [] := by
      rw [untouched]
      rfl
    rw [nothing]
    exact ⟨fun _ => .inl rfl, fun _ _ => rfl, fun _ refused => by cases refused⟩
  | ok envelope =>
    rw [run_of_accepted works.tracked.setting _ peer boundary parsed] at ran
    obtain ⟨processed, kept, turned, closed, inTime, ledger⟩ :=
      closesInTime_of_done works world envelope.entries peer boundary ran
    rw [inTime.untouched]
    refine ⟨?_, ?_, ?_⟩
    · intro number
      by_cases known : number < drafts closed.workshop.modules.world.log
      · exact .inr (ledger.past number known List.not_mem_nil)
      · exact .inl (ledger.future number (Nat.le_of_not_lt known))
    · intro r refused
      cases refused
    · rintro _ ⟨⟩
      exact ⟨processed, kept, turned, closed, ended, inTime, rfl, transports⟩

/-! Four modules, of which one yields its handler. -/

/-- A draft whose hook counts. -/
def crewDraft (name : String) (operations : List (Operation Nat)) : Draft Nat :=
  ⟨name, operations, some fun _ => Activity.modify fun m => { m with world := m.world + 1 }⟩

theorem crewDraft_prompt (name : String) (operations : List (Operation Nat)) :
    (crewDraft name operations).ClosesPromptly := by
  rintro _ ⟨⟩ _ _
  trivial

/-- One keeps a second handler up to its end, one yields a handler of another name, one is refused an
operation, and one panics. -/
def crew : Works Nat where
  makers := [
    ("front", fun _ => .builds (crewDraft "spare" []) (crewDraft_prompt _ _) .fails
      (.builds (crewDraft "front" [System.ping]) (crewDraft_prompt _ _) .fails (.hands 0))),
    ("back", fun _ => .builds (crewDraft "rear" []) (crewDraft_prompt _ _) .fails (.hands 0)),
    ("loud", fun _ => .builds (crewDraft "loud" [{ System.ping with name := "HELP" }])
      (crewDraft_prompt _ _) .fails (.hands 0)),
    ("frail", fun _ => .builds (crewDraft "frail" []) (crewDraft_prompt _ _) .fails
      (.does (Activity.panic (.text "frail") : ModuleCode Nat Unit) (fun _ => trivial)
        fun _ => .hands 0))]
  routes := none
  settings := .standard
  app := .empty
  order _ _ := 0
  patience := 0

def crewEntries : Members :=
  [("a", "front"), ("b", "back"), ("c", "loud"), ("d", "frail")].map fun entry =>
    (entry.1, .object [("ns", .string entry.2), ("function", .string "HELP")])

def crewRequest : Octets := (Json.object
  [("version", .int 1), ("payload", .object crewEntries)]).octets

set_option maxRecDepth 4000 in
theorem crewRequest_accepted :
    Envelope.parse crewRequest ⟨some "application/json", true⟩ = .ok ⟨1, crewEntries⟩ := by
  with_unfolding_all rfl

/-- Four hooks run, that of the handler that is kept behind all others; the draft that was refused has
none. -/
theorem crew_is_closed :
    ∃ after, run crew.setting 0 crewRequest ⟨some "application/json", true⟩ .accepting ⟨"b"⟩ =
        .done () after ∧
      after.workshop.modules.world = 4 ∧
      deeds crew 0 crewRequest ⟨some "application/json", true⟩ .accepting ⟨"b"⟩ =
        [.built 0 "spare", .built 1 "front", .closed 0 "spare", .built 2 "rear", .closed 2 "rear",
         .refused 3 "loud", .built 4 "frail", .closed 4 "frail", .closed 1 "front"] ∧
      Deed.Over 1 (history 1
        (deeds crew 0 crewRequest ⟨some "application/json", true⟩ .accepting ⟨"b"⟩)) := by
  have known := account_of_accepted crew.setting 0 crewRequest_accepted
  have knownToo := account_of_accepted crew.tracked.setting ⟨0, []⟩ crewRequest_accepted
  obtain ⟨after, ran, -, reached, -⟩ := run_comes crew.setting 0 crewRequest
    ⟨some "application/json", true⟩ .accepting ⟨"b"⟩ Peer.accepting_takes_all
  obtain ⟨tracked, ranToo, -, reachedToo, -⟩ := run_comes crew.tracked.setting ⟨0, []⟩ crewRequest
    ⟨some "application/json", true⟩ .accepting ⟨"b"⟩ Peer.accepting_takes_all
  have returned : run crew.setting 0 crewRequest ⟨some "application/json", true⟩ .accepting ⟨"b"⟩ =
      .done () after := by
    have quiet : (account crew.setting 0 crewRequest
        ⟨some "application/json", true⟩).closing.outcome = .ok () := by
      rw [known]
      decide +kernel
    rw [ran, quiet]
    rfl
  have done : deeds crew 0 crewRequest ⟨some "application/json", true⟩ .accepting ⟨"b"⟩ =
      [.built 0 "spare", .built 1 "front", .closed 0 "spare", .built 2 "rear", .closed 2 "rear",
       .refused 3 "loud", .built 4 "frail", .closed 4 "frail", .closed 1 "front"] := by
    rw [deeds, ranToo, Outcome.state_of, reachedToo, knownToo]
    decide +kernel
  obtain ⟨ended, -⟩ := close_hooks_run_once crew 0 crewRequest ⟨some "application/json", true⟩
    .accepting ⟨"b"⟩ after returned
  refine ⟨after, returned, ?_, done, ?_⟩
  · rw [reached, known]
    decide +kernel
  · rcases ended 1 with nothing | past
    · rw [done] at nothing
      exact absurd nothing (by decide)
    · exact past

end Batch
end Multicall
