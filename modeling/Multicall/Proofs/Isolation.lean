import Multicall.Proofs.Requests
import Multicall.Proofs.WholeResponse
/-!
Entries that fail alone. An entry that is no call, or that names a namespace nobody registered, touches
nothing that the entries of a batch share: no factory is called for it, no handler is kept and nothing
is sent. So a batch with such an entry goes as the batch without it, and has one more failure part.
-/
namespace Multicall

variable {ω α β : Type}

/-- An entry that comes to a failure before anything is asked of a module. -/
def Entry.FailsAlone (registry : Registry ω) (id : String) (body : Json) (f : Failure) : Prop :=
  Call.ofEntry id body = .error f ∨
    ∃ call, Call.ofEntry id body = .ok call ∧ registry.factories.get? call.namespaceName = none ∧
      f = .ofLoad (.unknownNamespace call.namespaceName)

/-! What code of a batch leaves as it was. -/

namespace Activity

/-- Wherever the code is run, it leaves a state of the kind it started from. -/
def Leaves (kind : Workshop ω → Prop) (m : BatchCode ω α) : Prop :=
  ∀ w, kind w → kind (m w).finalState

variable {kind : Workshop ω → Prop} {m : BatchCode ω α}

theorem leaves_pure (a : α) : Leaves kind (pure a : BatchCode ω α) := fun _ holds => holds

theorem Leaves.bind {f : α → BatchCode ω β} (first : m.Leaves kind)
    (second : ∀ a, (f a).Leaves kind) : (m >>= f).Leaves kind := by
  have through (c : Course (Workshop ω) α) (holds : kind c.finalState) :
      kind (c.andThen f).finalState := by
    induction c with
    | ended outcome w =>
      cases outcome with
      | ok a => exact second a w holds
      | error p => exact holds
    | send command next ih => exact ih holds
    | record e next ih => exact ih holds
    | suspend w next ih => exact ih holds
  exact fun w holds => through (m w) (first w holds)

theorem leaves_get_bind {f : Workshop ω → BatchCode ω α}
    (each : ∀ w, kind w → (f w).Leaves kind) : (get >>= f).Leaves kind :=
  fun w holds => each w holds w holds

theorem Leaves.attempt (leaves : m.Leaves kind) : m.attempt.Leaves kind := by
  have through (c : Course (Workshop ω) α) : c.attempt.finalState = c.finalState := by
    induction c with
    | ended outcome w => rfl
    | send command next ih => exact ih
    | record e next ih => exact ih
    | suspend w next ih => exact ih
  intro w holds
  rw [Activity.attempt, through]
  exact leaves w holds

end Activity

namespace Workshop

/-- Every handler that is kept belongs to a registered namespace. -/
def KnowsItsNames (registry : Registry ω) (w : Workshop ω) : Prop :=
  ∀ name, registry.factories.get? name = none → w.cache.get? name = none

variable {registry : Registry ω} {ctx : LoadContext}

theorem inModules_leaves (code : ModuleCode ω α) :
    (inModules code).Leaves (KnowsItsNames registry) := by
  have through (w : Workshop ω) (c : Course (ModuleState ω) α) :
      (c.mapState fun m => { w with modules := m }).finalState.cache = w.cache := by
    induction c with
    | ended outcome m => rfl
    | send command next ih => exact ih
    | record e next ih => exact ih
    | suspend m next ih => exact ih
  intro w known name unregistered
  exact (congrArg (Assoc.get? name) (through w _)).trans (known name unregistered)

/-- A namespace that nobody registered is looked up in vain. -/
theorem resolve_of_unregistered (ctx : LoadContext) (name : String)
    (unregistered : registry.factories.get? name = none)
    (w : Workshop ω) (known : w.KnowsItsNames registry) :
    resolve registry ctx name w =
      .record (.unresolved name (.unknownNamespace name))
        (.ended (.ok (.error (.unknownNamespace name))) w) := by
  have fails : registry.load ctx name = pure (.error (.unknownNamespace name)) := by
    rw [Registry.load, unregistered]
  rw [resolve_of_absent (known name unregistered), fails]
  rfl

theorem resolve_leaves (name : String) :
    (resolve registry ctx name).Leaves (KnowsItsNames registry) := by
  cases registered : registry.factories.get? name with
  | none =>
    intro w known
    rw [resolve_of_unregistered ctx name registered w known]
    exact known
  | some factory =>
    -- only this namespace can come into the cache, and it is registered
    have other (own : String) (unregistered : registry.factories.get? own = none) : name ≠ own := by
      rintro rfl
      exact nomatch registered.symm.trans unregistered
    rw [resolve]
    refine Activity.leaves_get_bind fun w known => ?_
    split
    · exact Activity.leaves_pure _
    · refine (inModules_leaves _).bind fun loaded => ?_
      split
      · refine Activity.Leaves.bind (fun w known own unregistered => ?_) fun _ =>
          Activity.leaves_pure _
        exact (Assoc.get?_set name own _ w.cache).trans
          ((if_neg (other own unregistered)).trans (known own unregistered))
      · exact Activity.Leaves.bind (fun w known => known) fun _ => Activity.leaves_pure _

end Workshop

namespace Entry

variable {registry : Registry ω} {ctx : LoadContext}

theorem invoke_leaves (handler : Handler ω) (name : String) (supplied : Members) :
    (invoke handler name supplied).Leaves (Workshop.KnowsItsNames registry) := by
  rw [invoke]
  split
  · exact Activity.leaves_pure _
  · split
    · exact Activity.leaves_pure _
    · refine (Workshop.inModules_leaves _).bind fun came => ?_
      split
      · exact Activity.leaves_pure _
      · exact Activity.leaves_pure _

theorem process_leaves (id : String) (body : Json) :
    (process registry ctx id body).Leaves (Workshop.KnowsItsNames registry) := by
  have attempted : (Entry.attempt registry ctx id body).Leaves (Workshop.KnowsItsNames registry) := by
    rw [Entry.attempt]
    split
    · exact Activity.leaves_pure _
    · refine (Workshop.resolve_leaves _).bind fun resolved => ?_
      split
      · exact Activity.leaves_pure _
      · split
        · exact Activity.leaves_pure _
        · exact Activity.leaves_pure _
        · exact invoke_leaves _ _ _
  refine attempted.attempt.bind fun came => ?_
  split
  · exact Activity.leaves_pure _
  · exact Activity.leaves_pure _

theorem process_alone (ctx : LoadContext) {id : String} {body : Json} {f : Failure}
    (alone : FailsAlone registry id body f) (w : Workshop ω) (known : w.KnowsItsNames registry) :
    (process registry ctx id body w).commands = [] ∧
      (process registry ctx id body w).outcome = .ok (.error f) ∧
      (process registry ctx id body w).finalState = w := by
  rcases alone with invalid | ⟨call, valid, unregistered, rfl⟩
  · rw [process, Entry.attempt, invalid]
    exact ⟨rfl, rfl, rfl⟩
  · have resolved :=
      Workshop.resolve_of_unregistered ctx call.namespaceName unregistered w known
    have answered : answer registry ctx call w =
        .record (.unresolved call.namespaceName (.unknownNamespace call.namespaceName))
          (.ended (.ok (.error (.ofLoad (.unknownNamespace call.namespaceName)))) w) := by
      show (Workshop.resolve registry ctx call.namespaceName w).andThen _ = _
      rw [resolved]
      rfl
    have processed : process registry ctx id body w =
        .record (.unresolved call.namespaceName (.unknownNamespace call.namespaceName))
          (.ended (.ok (.error (.ofLoad (.unknownNamespace call.namespaceName)))) w) := by
      rw [process, Entry.attempt, valid]
      show ((answer registry ctx call w).attempt).andThen _ = _
      rw [answered]
      rfl
    rw [processed]
    exact ⟨rfl, rfl, rfl⟩

end Entry

namespace Batch

variable {setting : Setting ω}

theorem reports_append (setting : Setting ω) (before behind : Members) (w : Workshop ω) :
    reports setting (before ++ behind) w =
      ((reports setting before w).1 ++ (reports setting behind (reports setting before w).2).1,
        (reports setting behind (reports setting before w).2).2) := by
  induction before generalizing w with
  | nil => rfl
  | cons entry rest ih =>
    obtain ⟨id, body⟩ := entry
    rw [List.cons_append, reports, ih]
    rfl

theorem reports_leave (entries : Members) (w : Workshop ω)
    (known : w.KnowsItsNames setting.registry) :
    (reports setting entries w).2.KnowsItsNames setting.registry := by
  induction entries generalizing w with
  | nil => exact known
  | cons entry rest ih =>
    obtain ⟨id, body⟩ := entry
    exact ih _ (Entry.process_leaves id body w known)

theorem reports_insert {id : String} {bad : Json} {f : Failure}
    (alone : Entry.FailsAlone setting.registry id bad f) (before behind : Members) (w : Workshop ω)
    (known : w.KnowsItsNames setting.registry) :
    reports setting (before ++ (id, bad) :: behind) w =
      ((reports setting before w).1 ++ ⟨id, [], .error f⟩ ::
          (reports setting behind (reports setting before w).2).1,
        (reports setting behind (reports setting before w).2).2) := by
  obtain ⟨silent, ended, same⟩ := Entry.process_alone ⟨setting.settings, setting.app, ⟨true⟩⟩ alone
    _ (reports_leave before w known)
  have came : resultOf (courseOf setting id bad (reports setting before w).2) = .error f := by
    rw [resultOf, courseOf, ended]
  have course : reportOf setting.patience id (courseOf setting id bad (reports setting before w).2) =
      ⟨id, [], .error f⟩ := by
    rw [reportOf, came, courseOf, silent]
    rfl
  have left : leftBy setting.patience (courseOf setting id bad (reports setting before w).2) =
      (reports setting before w).2 := by
    rw [leftBy, pulledBy, came]
    exact same
  rw [reports_append, reports, course, left]

end Batch

namespace Report

theorem partsThen_append (debug : Bool) (later : List PartCommand) (first second : List Report) :
    partsThen debug later (first ++ second) =
      partsThen debug (second.flatMap (·.sent) ++ later) first ++
        partsThen debug later second := by
  induction first with
  | nil => rfl
  | cons r rest ih => simp [partsThen, ih]

end Report

namespace Account

/-- The parts that belong to the first entries: those they opened, and their results. -/
def partsOfFirst (debug : Bool) (count : Nat) (a : Account ω) : List ResponsePart :=
  Report.partsThen debug ((a.reports.drop count).flatMap (·.sent) ++ a.closing.commands)
    (a.reports.take count)

def partsBehind (debug : Bool) (count : Nat) (a : Account ω) : List ResponsePart :=
  Report.partsThen debug a.closing.commands (a.reports.drop count) ++ faultParts debug a.fault ++
    Report.moduleParts [] a.closing.commands

def insert (count : Nat) (r : Report) (a : Account ω) : Account ω :=
  { a with reports := a.reports.take count ++ r :: a.reports.drop count }

theorem parts_split (debug : Bool) (count : Nat) (a : Account ω) :
    a.parts debug = a.partsOfFirst debug count ++ a.partsBehind debug count := by
  have whole : a.reports = a.reports.take count ++ a.reports.drop count :=
    (List.take_append_drop count _).symm
  rw [parts, partsOfFirst, partsBehind]
  conv => lhs; rw [whole]
  rw [Report.partsThen_append]
  simp only [List.append_assoc]

theorem parts_insert (debug : Bool) (count : Nat) (r : Report) (silent : r.sent = [])
    (a : Account ω) :
    (a.insert count r).parts debug =
      a.partsOfFirst debug count ++ r.resultPart debug :: a.partsBehind debug count := by
  obtain ⟨before, behind⟩ := List.append_eq_nil_iff.mp silent
  rw [parts, partsOfFirst, partsBehind, insert, Report.partsThen_append, Report.partsThen,
    List.flatMap_cons, silent, before, behind]
  simp only [Report.moduleParts, List.nil_append, List.cons_append, List.append_assoc]
  rfl

theorem summary_insert (count : Nat) (r : Report) (failed : r.result.emitted = .failure)
    (a : Account ω) :
    (a.insert count r).summary = { a.summary with failed := a.summary.failed + 1 } := by
  have counted (p : Report → Bool) : a.reports.countP p =
      (a.reports.take count).countP p + (a.reports.drop count).countP p := by
    rw [← List.countP_append, List.take_append_drop]
  simp only [summary, Session.tally, insert, List.countP_append, List.countP_cons, failed, counted,
    decide_true, reduceCtorEq, decide_false, Bool.false_eq_true, ↓reduceIte, Nat.add_zero,
    Nat.add_assoc]

end Account

namespace Batch

variable {setting : Setting ω}

theorem reports_length (setting : Setting ω) (entries : Members) (w : Workshop ω) :
    (reports setting entries w).1.length = entries.length := by
  induction entries generalizing w with
  | nil => rfl
  | cons entry rest ih =>
    obtain ⟨id, body⟩ := entry
    exact congrArg (· + 1) (ih _)

theorem account_insert (world : ω) {before behind : Members} {id : String} {bad : Json} {f : Failure}
    (alone : Entry.FailsAlone setting.registry id bad f)
    (unlimited : setting.settings.maxEntries = none) {body longer : Octets}
    {info other : RequestInfo} {version another : Int}
    (accepted : Envelope.parse body info = .ok ⟨version, before ++ behind⟩)
    (extended : Envelope.parse longer other = .ok ⟨another, before ++ (id, bad) :: behind⟩) :
    account setting world longer other =
      (account setting world body info).insert before.length ⟨id, [], .error f⟩ := by
  rw [account_of_accepted setting world accepted, account_of_accepted setting world extended,
    unlimited]
  have unloaded : (Workshop.start setting.order world).KnowsItsNames setting.registry := fun _ _ => rfl
  have more := reports_insert alone before behind _ unloaded
  have fewer := reports_append setting before behind (.start setting.order world)
  show Account.mk (reports setting (before ++ (id, bad) :: behind) _).1 none
    (reports setting (before ++ (id, bad) :: behind) _).2 = Account.insert _ _
      (Account.mk (reports setting (before ++ behind) _).1 none
        (reports setting (before ++ behind) _).2)
  rw [more, fewer, Account.insert, ← reports_length setting before (.start setting.order world),
    List.take_left, List.drop_left]

theorem watched_alone {id : String} {bad : Json} {f : Failure}
    (alone : Entry.FailsAlone setting.registry id bad f) :
    Entry.FailsAlone setting.watched.registry id bad f := by
  rcases alone with invalid | ⟨call, valid, unregistered, same⟩
  · exact .inl invalid
  · refine .inr ⟨call, valid, ?_, same⟩
    have tables : Assoc.Alike (fun factory fellow => fellow = Factory.watched factory)
        setting.registry.factories setting.watched.registry.factories :=
      List.forall₂_map_right_iff.mpr (List.forall₂_same.mpr fun _ _ => ⟨rfl, rfl⟩)
    have found := tables.get? call.namespaceName
    rw [unregistered] at found
    generalize setting.watched.registry.factories.get? call.namespaceName = twin at found ⊢
    cases found with
    | none => rfl

/-- For every request, every place in it and every entry that is no call or names a namespace nobody
registered: with that entry at that place, a run without limit, with finite sequences and over a peer
that takes everything, ends in the same way, leaves the modules in the same state, and has called
the same factories, invoked the same operations with the same arguments and run the same close hooks.
One entry more has failed, and the response has one part more, the failure under the entry's id,
right behind all parts of the entries in front of it. -/
theorem bad_entry_stays_alone (setting : Setting ω) (world : ω) (before behind : Members)
    (id : String) (bad : Json) (f : Failure)
    (alone : Entry.FailsAlone setting.registry id bad f)
    (unlimited : setting.settings.maxEntries = none) (body longer : Octets)
    (info other : RequestInfo) (version another : Int)
    (accepted : Envelope.parse body info = .ok ⟨version, before ++ behind⟩)
    (extended : Envelope.parse longer other = .ok ⟨another, before ++ (id, bad) :: behind⟩)
    (peer : Peer) (boundary : Boundary) (takesAll : peer.TakesAll)
    (finite : ∀ r ∈ (account setting world body info).reports, r.result.isFinite = true) :
    ∃ after later,
      run setting world body info peer boundary =
        .of (account setting world body info).closing.outcome after ∧
      run setting world longer other peer boundary =
        .of (account setting world body info).closing.outcome later ∧
      after.exhausted = false ∧ later.exhausted = false ∧
      later.workshop = after.workshop ∧
      later.summary = { after.summary with failed := after.summary.failed + 1 } ∧
      requests setting world longer other peer boundary =
        requests setting world body info peer boundary ∧
      ((account setting world body info).closing.outcome = .ok () →
        after.delivered =
          ((account setting world body info).partsOfFirst setting.settings.debug before.length ++
            (account setting world body info).partsBehind setting.settings.debug before.length
            ).flatMap (ResponsePart.octets boundary) ++ Octets.ofText boundary.terminator ∧
        later.delivered =
          ((account setting world body info).partsOfFirst setting.settings.debug before.length ++
            ⟨"application/json",
              (Encoder.keyed id (Encoder.failureBody setting.settings.debug f)).octets⟩ ::
            (account setting world body info).partsBehind setting.settings.debug before.length
            ).flatMap (ResponsePart.octets boundary) ++ Octets.ofText boundary.terminator) := by
  -- the insertion is compared twice: for the modules themselves, and for watched ones, whose world
  -- lists what they were asked for
  have inserted := account_insert world alone unlimited accepted extended
  have watched := account_insert (⟨world, []⟩ : Watched ω) (watched_alone alone) unlimited accepted
    extended
  have finiteLater : ∀ r ∈ (account setting world longer other).reports,
      r.result.isFinite = true := by
    rw [inserted]
    intro r member
    rcases List.mem_append.mp member with early | late
    · exact finite r (List.mem_of_mem_take early)
    · rcases List.mem_cons.mp late with rfl | late
      · rfl
      · exact finite r (List.mem_of_mem_drop late)
  obtain ⟨after, ran, counted, reached, arrived, whole⟩ :=
    run_comes setting world body info peer boundary takesAll
  obtain ⟨later, went, summed, left, came, wholeToo⟩ :=
    run_comes setting world longer other peer boundary takesAll
  have wholeLater := wholeToo finiteLater
  rw [inserted] at went summed left came
  refine ⟨after, later, ran, went, whole finite, wholeLater, left.trans reached.symm, ?_, ?_,
    fun ended => ⟨?_, ?_⟩⟩
  · rw [summed, counted, Account.summary_insert _ _ rfl]
  · rw [requests_eq setting world longer other peer boundary takesAll,
      requests_eq setting world body info peer boundary takesAll, watched]
    rfl
  · rw [arrived ended, Account.parts_split _ before.length]
  · rw [came ended, Account.parts_insert _ _ _ rfl]
    rfl

/-! The two notes again, with a call to nobody between them. -/

def unlimitedNotes : Setting StreamId := ⟨notes, .standard, .empty, fun _ _ => 0, 0⟩

def ghost : Json := .object [("ns", .string "ghost"), ("function", .string "call")]

def hauntedEntries : Members := noteEntries.take 1 ++ ("c", ghost) :: noteEntries.drop 1

def hauntedRequest : Octets := (Json.object
  [("version", .int 1), ("payload", .object hauntedEntries)]).octets

set_option maxRecDepth 2000 in
theorem hauntedRequest_accepted :
    Envelope.parse hauntedRequest ⟨some "application/json", true⟩ = .ok ⟨1, hauntedEntries⟩ := by
  with_unfolding_all rfl

/-- The failure stands between the two results, and the note that the second entry adds to is the one
that the first entry opened. -/
theorem ghost_stays_alone :
    Envelope.parse noteRequest ⟨some "application/json", true⟩ =
        .ok ⟨1, noteEntries.take 1 ++ noteEntries.drop 1⟩ ∧
    Envelope.parse hauntedRequest ⟨some "application/json", true⟩ = .ok ⟨1, hauntedEntries⟩ ∧
    ∃ after later,
      run unlimitedNotes 0 noteRequest ⟨some "application/json", true⟩ .accepting ⟨"b"⟩ =
        .done () after ∧
      run unlimitedNotes 0 hauntedRequest ⟨some "application/json", true⟩ .accepting ⟨"b"⟩ =
        .done () later ∧
      later.summary = { after.summary with failed := after.summary.failed + 1 } ∧
      requests unlimitedNotes 0 hauntedRequest ⟨some "application/json", true⟩ .accepting ⟨"b"⟩ =
        requests unlimitedNotes 0 noteRequest ⟨some "application/json", true⟩ .accepting ⟨"b"⟩ ∧
      later.delivered =
        [⟨"text/plain", Octets.ofText "hi"⟩,
         ⟨"application/json",
          Octets.ofText "\x7b\"a\":\x7b\"error\":false,\"result\":null\x7d\x7d"⟩,
         ⟨"application/json", Octets.ofText ("\x7b\"c\":\x7b\"error\":true,\"message\":" ++
          "\"Invalid namespace\",\"version\":100,\"code\":400\x7d\x7d")⟩,
         ⟨"application/json",
          Octets.ofText "\x7b\"b\":\x7b\"error\":false,\"result\":null\x7d\x7d"⟩].flatMap
            (ResponsePart.octets ⟨"b"⟩) ++ Octets.ofText "--b--\r\n" := by
  have accepted : Envelope.parse noteRequest ⟨some "application/json", true⟩ =
      .ok ⟨1, noteEntries.take 1 ++ noteEntries.drop 1⟩ := by
    rw [List.take_append_drop]
    exact noteRequest_accepted
  have finite : (account unlimitedNotes 0 noteRequest ⟨some "application/json", true⟩).reports.all
      (fun r => r.result.isFinite) = true := by
    rw [account_of_accepted unlimitedNotes 0 accepted]
    decide +kernel
  have ended : (account unlimitedNotes 0 noteRequest ⟨some "application/json", true⟩).closing.outcome =
      .ok () := by
    rw [account_of_accepted unlimitedNotes 0 accepted]
    rfl
  obtain ⟨after, later, ran, went, -, -, -, counted, same, arrived⟩ :=
    bad_entry_stays_alone unlimitedNotes 0 (noteEntries.take 1) (noteEntries.drop 1) "c" ghost
      (.ofLoad (.unknownNamespace "ghost")) (.inr ⟨⟨"ghost", "call", []⟩, rfl, rfl, rfl⟩) rfl
      noteRequest hauntedRequest ⟨some "application/json", true⟩ ⟨some "application/json", true⟩ 1 1
      accepted hauntedRequest_accepted .accepting ⟨"b"⟩ Peer.accepting_takes_all
      (fun r member => List.all_eq_true.mp finite r member)
  refine ⟨accepted, hauntedRequest_accepted, after, later, ?_, ?_, counted, same,
    (arrived ended).2.trans ?_⟩
  · rw [ran, ended]
    rfl
  · rw [went, ended]
    rfl
  · rw [account_of_accepted unlimitedNotes 0 accepted]
    decide +kernel

end Batch
end Multicall
