import Multicall.Module.Search
import Multicall.Proofs.HandlerTable
import Multicall.Proofs.Isolation
import Multicall.Proofs.Placeholders
import Multicall.Proofs.PrivateMembers
/-!
What clients get from the namespace `search`. Its handler is the same however often it is loaded, so
each call of `compile` gets the predicate of its own filter, under its own prefix or the one that the
manifest gives, or the reason why there is none. The way from there into the response leaves out private
members, and a compiled filter has none: placeholders begin with a colon, and field names stand inside
texts only.
-/
namespace Multicall.Search

variable {ω : Type}

/-- The prefix of calls that name none: the one in the manifest, or the empty one. -/
inductive Defaults (manifest : Option Toml.Table) : String → Prop
  | empty (absent : manifest.bind (Assoc.get? "field_prefix") = none) : Defaults manifest ""
  | manifest {fieldPrefix} (found : manifest.bind (Assoc.get? "field_prefix") =
      some (.string fieldPrefix)) : Defaults manifest fieldPrefix

/-- The prefix that a call uses. -/
inductive Uses (fallback : String) (supplied : Members) : String → Prop
  | named {fieldPrefix} (given : Operation.Given supplied "prefix" (.string fieldPrefix)) :
      Uses fallback supplied fieldPrefix
  | fallback (absent : ∀ value, ¬ Operation.Given supplied "prefix" value) :
      Uses fallback supplied fallback

/-- The predicate that a call asks for. -/
def Compiles (fallback : String) (supplied : Members) (p : Filter.Predicate) : Prop :=
  ∃ filter fieldPrefix, Operation.Given supplied "filter" filter ∧
    Uses fallback supplied fieldPrefix ∧ Filter.Predicate.compile fieldPrefix .and filter = .ok p

/-- Why a call gets no predicate. -/
inductive Refuses (fallback : String) (supplied : Members) : String → Prop
  | filterMissing (absent : ∀ value, ¬ Operation.Given supplied "filter" value) :
      Refuses fallback supplied "Missing argument `filter` `compile`"
  | prefixInvalid {filter value} (given : Operation.Given supplied "filter" filter)
      (named : Operation.Given supplied "prefix" value) (bad : ∀ s, value ≠ .string s) :
      Refuses fallback supplied "Invalid argument `prefix`"
  | filterInvalid {filter fieldPrefix e} (given : Operation.Given supplied "filter" filter)
      (uses : Uses fallback supplied fieldPrefix)
      (fails : Filter.Predicate.compile fieldPrefix .and filter = .error e) :
      Refuses fallback supplied e.message

/-- A compiled filter as clients get it. -/
def output (p : Filter.Predicate) : Json :=
  .object [("predicate", .string p.text),
    ("params", .object (p.parameters.map fun entry =>
      (entry.1, .object [("value", entry.2.value), ("type", .string entry.2.kind)])))]

def succeeded (result : Json) : Json := .object [("error", .bool false), ("result", result)]

def failed (message : String) : Json :=
  .object [("error", .bool true), ("message", .string message), ("version", .int 100),
    ("code", .int 400)]

/-! A compiled filter has no private members. -/

theorem withoutPrivate_parameter (p : Filter.Parameter) : p.toJson.withoutPrivate = p.toJson := by
  have value : Json.isPrivate "value" = false := by decide
  have type : Json.isPrivate "type" = false := by decide
  apply Json.withoutPrivate_object_eq_self
  refine List.forall_mem_cons.mpr ⟨⟨value, ?_⟩, List.forall_mem_singleton.mpr ⟨type, rfl⟩⟩
  cases p <;> rfl

theorem isPrivate_placeholder (p : Filter.Placeholder) : Json.isPrivate p.text = false := by
  rw [Json.isPrivate, p.text_toList]
  rfl

/-- Parameters in placeholder order: the text and the parameters come from the same clauses, each from
left to right. -/
structure InOrder (fieldPrefix : String) (p : Filter.Predicate) (clauses : List Filter.Clause) :
    Prop where
  text : p.text = Filter.Join.and.between (Filter.Clause.sqlAll fieldPrefix clauses)
  parameters : p.parameters = (Filter.Clause.bindingsAll clauses).map fun b => (b.1.text, b.2)
  apart : (Assoc.keys p.parameters).Nodup

theorem inOrder_of_compiled {fieldPrefix : String} {filter : Json} {p : Filter.Predicate}
    (compiled : Filter.Predicate.compile fieldPrefix .and filter = .ok p) :
    ∃ clauses, InOrder fieldPrefix p clauses := by
  obtain ⟨nodes, -, rfl⟩ := ok_of_map compiled
  have numbered := Filter.clauses_numbered nodes
  have apart : ((Filter.Clause.bindingsAll (Filter.clauses nodes)).map Prod.fst).Nodup := by
    rw [Filter.Clause.bindingsAll_eq, List.map_map]
    exact numbered.apart
  have parameters := Filter.bindAll_eq _ apart
  refine ⟨Filter.clauses nodes, rfl, parameters, ?_⟩
  show (Assoc.keys (Filter.bindAll _)).Nodup
  rw [numbered.parameters_eq, Assoc.keys, List.map_map]
  exact numbered.texts_apart

/-- With no colon in the prefix the placeholders are found in the text again, in this order. -/
theorem placeholdersIn_compiled {fieldPrefix : String} {filter : Json} {p : Filter.Predicate}
    (free : ':' ∉ fieldPrefix.toList)
    (compiled : Filter.Predicate.compile fieldPrefix .and filter = .ok p) :
    Filter.placeholdersIn p.text.toList = Assoc.keys p.parameters := by
  obtain ⟨nodes, found, rfl⟩ := ok_of_map compiled
  have named := Filter.isFieldName_of_outline Filter.operatorOf filter
  rw [← (Filter.clauses_keep found).leaves] at named
  have keys : Assoc.keys (Filter.bindAll (Filter.Clause.bindingsAll (Filter.clauses nodes))) =
      (Filter.Clause.ownersAll (Filter.clauses nodes)).map fun owner => owner.1.text := by
    rw [(Filter.clauses_numbered nodes).parameters_eq, Assoc.keys, List.map_map]
    rfl
  exact (Filter.Clause.hasPlaceholdersAll free .and _ named).whole.trans keys.symm

theorem InOrder.withoutPrivate_eq {fieldPrefix : String} {p : Filter.Predicate}
    {clauses : List Filter.Clause} (inOrder : InOrder fieldPrefix p clauses) :
    p.toJson.withoutPrivate = p.toJson := by
  have predicate : Json.isPrivate "predicate" = false := by decide
  have params : Json.isPrivate "params" = false := by decide
  apply Json.withoutPrivate_object_eq_self
  refine List.forall_mem_cons.mpr
    ⟨⟨predicate, rfl⟩, List.forall_mem_singleton.mpr ⟨params, ?_⟩⟩
  apply Json.withoutPrivate_object_eq_self
  rw [inOrder.parameters, List.map_map, List.forall_mem_map]
  exact fun b _ => ⟨isPrivate_placeholder b.1, withoutPrivate_parameter b.2⟩

/-! The call itself. -/

theorem manifestPrefix?_eq_some_iff (manifest : Option Toml.Table) (fieldPrefix : String) :
    manifestPrefix? manifest = some fieldPrefix ↔ Defaults manifest fieldPrefix := by
  rw [manifestPrefix?]
  constructor
  · intro found
    split at found
    · next absent =>
        cases found
        exact .empty absent
    · next there =>
        cases found
        exact .manifest there
    · cases found
  · rintro (absent | found)
    · rw [show manifest.bind (Assoc.get? prefixKey) = none from absent]
    · rw [show manifest.bind (Assoc.get? prefixKey) = some (.string fieldPrefix) from found]

section Call

variable {fallback : String} {supplied : Members} {bound : Arguments}

/-- Nothing can go wrong in binding once there is a filter. -/
theorem exists_bound (ω : Type) (fallback : String) {filter : Json}
    (given : Operation.Given supplied "filter" filter) :
    ∃ bound, Operation.bindArguments "compile" (compile fallback : Operation ω).parameters supplied =
      .ok bound := by
  refine (Operation.bindArguments_ok_iff ..).mpr ?_
  intro p declared required
  rcases List.mem_pair.mp declared with rfl | rfl
  · exact ⟨filter, given⟩
  · cases required

theorem bindArguments_of_no_filter
    (absent : ∀ value, ¬ Operation.Given supplied "filter" value) :
    Operation.bindArguments "compile" (compile fallback : Operation ω).parameters supplied =
      .error (.shown "Missing argument `filter` `compile`" []) :=
  (Operation.bindArguments_error_iff ..).mpr
    ⟨[], _, _, rfl, nofun, ⟨rfl, absent⟩, rfl⟩

variable (binds : Operation.bindArguments "compile" (compile fallback : Operation ω).parameters
  supplied = .ok bound)

include binds

theorem required_filter {filter : Json} (given : Operation.Given supplied "filter" filter) :
    bound.required .any "filter" = .ok filter := by
  have found := ((Operation.Binds.of_ok binds).get?_eq_some_iff "filter" filter).mpr
    ⟨List.mem_cons_self, given⟩
  exact Arguments.required_of_bound .any found given.2

theorem optional_prefix_of_given {value : Json} (given : Operation.Given supplied "prefix" value) :
    bound.optional .text "prefix" = (Reading.text.named "prefix" value).map some := by
  have found := ((Operation.Binds.of_ok binds).get?_eq_some_iff "prefix" value).mpr
    ⟨List.mem_cons_of_mem _ List.mem_cons_self, given⟩
  exact Arguments.optional_of_bound .text found given.2

theorem optional_prefix_of_absent (absent : ∀ value, ¬ Operation.Given supplied "prefix" value) :
    bound.optional .text "prefix" = .ok none := by
  apply Arguments.optional_of_absent
  rw [Option.eq_none_iff_forall_ne_some]
  intro value found
  exact absent value (((Operation.Binds.of_ok binds).get?_eq_some_iff "prefix" value).mp found).2

theorem compileArguments_of_uses {filter : Json} {fieldPrefix : String}
    (given : Operation.Given supplied "filter" filter) (uses : Uses fallback supplied fieldPrefix) :
    (compileArguments fallback bound : Except Failure (Payload ω)) =
      match Filter.Predicate.compile fieldPrefix .and filter with
      | .ok predicate => .ok (.json predicate.toJson)
      | .error e => .error (ofFilterError e) := by
  have optional : ∃ named, bound.optional .text "prefix" = .ok named ∧
      named.getD fallback = fieldPrefix := by
    cases uses with
    | named found => exact ⟨_, optional_prefix_of_given binds found, rfl⟩
    | fallback absent => exact ⟨none, optional_prefix_of_absent binds absent, rfl⟩
  obtain ⟨named, read, rfl⟩ := optional
  rw [compileArguments, required_filter binds given, read]
  rfl

theorem compileArguments_of_bad_prefix {filter value : Json}
    (given : Operation.Given supplied "filter" filter)
    (named : Operation.Given supplied "prefix" value) (bad : ∀ s, value ≠ .string s) :
    ∃ causes, (compileArguments fallback bound : Except Failure (Payload ω)) =
      .error (.shown "Invalid argument `prefix`" causes) := by
  have reason : ∃ reason, Reading.text value = .error reason := by
    cases value with
    | string s => exact absurd rfl (bad s)
    | null | bool | number | array | object => exact ⟨_, rfl⟩
  obtain ⟨reason, read⟩ := reason
  have failed := optional_prefix_of_given binds named
  rw [Reading.named, read] at failed
  refine ⟨[.conversion reason], ?_⟩
  rw [compileArguments, required_filter binds given, failed]
  rfl

omit binds in
/-- A call gets a predicate or a reason. -/
theorem compiles_or_refuses (fallback : String) (supplied : Members) :
    (∃ p, Compiles fallback supplied p) ∨ ∃ message, Refuses fallback supplied message := by
  by_cases filtered : ∃ filter, Operation.Given supplied "filter" filter
  · obtain ⟨filter, given⟩ := filtered
    have settled (fieldPrefix : String) (uses : Uses fallback supplied fieldPrefix) :
        (∃ p, Compiles fallback supplied p) ∨ ∃ message, Refuses fallback supplied message := by
      cases compiled : Filter.Predicate.compile fieldPrefix .and filter with
      | ok p => exact .inl ⟨p, filter, fieldPrefix, given, uses, compiled⟩
      | error e => exact .inr ⟨_, .filterInvalid given uses compiled⟩
    by_cases named : ∃ value, Operation.Given supplied "prefix" value
    · obtain ⟨value, found⟩ := named
      cases value with
      | string s => exact settled s (.named found)
      | null | bool | number | array | object => exact .inr ⟨_, .prefixInvalid given found nofun⟩
    · exact settled fallback (.fallback (not_exists.mp named))
  · exact .inr ⟨_, .filterMissing (not_exists.mp filtered)⟩

end Call

/-! What the entry of such a call comes to. -/

section Entry

variable {fallback : String} {v : Workshop ω} {call : Call}

theorem sound_compile (fallback : String) :
    Operation.Sound [(compile fallback : Operation ω)] where
  reachable op listed := by
    rw [List.mem_singleton.mp listed, ← Operation.isCallable_iff]
    exact (by decide : isCallable "compile" = true)
  apart := List.nodup_singleton _

theorem invoke_outcome (bound : Arguments) (v : Workshop ω) :
    Entry.resultOf (Workshop.inModules ((compile fallback : Operation ω).invoke bound) v).outcome =
      compileArguments fallback bound := by
  rw [compile]
  dsimp only
  cases (compileArguments fallback bound : Except Failure (Payload ω)) <;> rfl

theorem serves_of_compiles {p : Filter.Predicate} (asked : call.function = "compile")
    (compiles : Compiles fallback call.arguments p) :
    Entry.Serves [compile fallback] v call (.ok (.json p.toJson)) := by
  obtain ⟨filter, fieldPrefix, given, uses, compiled⟩ := compiles
  obtain ⟨bound, binds⟩ := exists_bound ω fallback given
  have came : (compileArguments fallback bound : Except Failure (Payload ω)) =
      .ok (.json p.toJson) := by
    rw [compileArguments_of_uses binds given uses, compiled]
  rw [← came, ← invoke_outcome bound v]
  exact .called List.mem_cons_self asked binds

theorem serves_of_refuses {message : String} (asked : call.function = "compile")
    (refuses : Refuses fallback call.arguments message) :
    ∃ causes, Entry.Serves [compile fallback] v call (.error (.shown message causes)) := by
  cases refuses with
  | filterMissing absent =>
      exact ⟨[], .unbound List.mem_cons_self asked (bindArguments_of_no_filter absent)⟩
  | prefixInvalid given named bad =>
      obtain ⟨bound, binds⟩ := exists_bound ω fallback given
      obtain ⟨causes, came⟩ := compileArguments_of_bad_prefix binds given named bad
      refine ⟨causes, ?_⟩
      rw [← came, ← invoke_outcome bound v]
      exact .called List.mem_cons_self asked binds
  | @filterInvalid _ _ e given uses fails =>
      obtain ⟨bound, binds⟩ := exists_bound ω fallback given
      have came : (compileArguments fallback bound : Except Failure (Payload ω)) =
          .error (.shown e.message [.filter e]) := by
        rw [compileArguments_of_uses binds given uses, fails]
        rfl
      refine ⟨[.filter e], ?_⟩
      rw [← came, ← invoke_outcome bound v]
      exact .called List.mem_cons_self asked binds

end Entry

/-! What a batch makes of the namespace. -/

section Batch

open Multicall.Batch

variable {setting : Setting ω} {manifest : Option Toml.Table}

/-- The namespace is this module, and its manifest can be read. -/
structure Installed (setting : Setting ω) (manifest : Option Toml.Table) : Prop where
  registered : setting.registry.factories.get? "search" = some factory
  readable : setting.registry.manifest "search" = .ok manifest

def handler (fallback : String) : Handler ω := .ofTable "search" [compile fallback] none

/-- Loading does not look at the state of the modules and leaves it as it is. -/
theorem load_of_defaults (installed : Installed setting manifest) {fallback : String}
    (defaults : Defaults manifest fallback) (m : ModuleState ω) :
    setting.load "search" m = .ended (.ok (.ok (handler fallback))) m := by
  have built : Draft.build ⟨"search", [(compile fallback : Operation ω)], none⟩ =
      .ok (handler fallback) := Draft.build_of_sound (sound_compile fallback)
  rw [Setting.load, Registry.load, installed.registered]
  dsimp only
  rw [installed.readable]
  dsimp only
  rw [factory, (manifestPrefix?_eq_some_iff ..).mpr defaults]
  dsimp only
  rw [built]
  rfl

/-- A prefix in the manifest that is no text. -/
def Broken (manifest : Option Toml.Table) : Prop :=
  ∃ value, manifest.bind (Assoc.get? "field_prefix") = some value ∧ ∀ s, value ≠ .string s

theorem load_of_broken (installed : Installed setting manifest) (broken : Broken manifest)
    (m : ModuleState ω) :
    setting.load "search" m =
      .ended (.ok (.error (.invalidHandler "search" "`field_prefix` must be a string"))) m := by
  have none : manifestPrefix? manifest = none := by
    rw [Option.eq_none_iff_forall_ne_some]
    intro fallback found
    obtain ⟨value, there, bad⟩ := broken
    cases (manifestPrefix?_eq_some_iff ..).mp found with
    | empty absent => cases there.symm.trans absent
    | manifest same =>
        cases there.symm.trans same
        exact bad fallback rfl
  rw [Setting.load, Registry.load, installed.registered]
  dsimp only
  rw [installed.readable]
  dsimp only
  rw [factory, none]
  rfl

/-- What the entries in front have kept of the namespace is what the entry would load itself. -/
theorem kept_handler (installed : Installed setting manifest) {fallback : String}
    (defaults : Defaults manifest fallback) (front : Members) (world : ω) {h : Handler ω}
    (kept : (reports setting front (.start setting.order world)).2.cache.get? "search" = some h) :
    h = handler fallback := by
  have each (w : Workshop ω) (own : Handler ω) (loaded : yields setting "search" w = some own) :
      own = handler fallback := by
    rw [yields_eq_some_iff, load_of_defaults installed defaults] at loaded
    exact (Except.ok.inj (Except.ok.inj loaded)).symm
  rw [get?_of_reports] at kept
  exact keptHandler_holds each _ (.start setting.order world) h kept

theorem not_kept_of_broken (installed : Installed setting manifest) (broken : Broken manifest)
    (front : Members) (world : ω) :
    (reports setting front (.start setting.order world)).2.cache.get? "search" = none := by
  have each (w : Workshop ω) (own : Handler ω) (loaded : yields setting "search" w = some own) :
      False := by
    rw [yields_eq_some_iff, load_of_broken installed broken] at loaded
    cases Except.ok.inj loaded
  rw [get?_of_reports, Option.eq_none_iff_forall_ne_some]
  intro h kept
  exact keptHandler_holds each _ (.start setting.order world) h kept

variable {id : String} {entry : Json} {call : Call} {front : Members} {world : ω}

theorem exists_loads (front : Members) (world : ω) (installed : Installed setting manifest)
    {fallback : String} (defaults : Defaults manifest fallback)
    (names : Entry.HasText entry "ns" "search") :
    ∃ v, Entry.Loads setting.registry ⟨setting.settings, setting.app, ⟨true⟩⟩ entry
      (reports setting front (.start setting.order world)).2 (handler fallback) v := by
  cases found : (reports setting front (.start setting.order world)).2.cache.get? "search" with
  | some h =>
      cases kept_handler installed defaults front world found
      exact ⟨_, "search", names, by rw [Workshop.resolve_of_kept found]; exact ⟨rfl, rfl⟩⟩
  | none =>
      refine ⟨_, "search", names, ?_, rfl⟩
      rw [Workshop.resolve_of_absent found]
      have loaded := load_of_defaults installed defaults
        (reports setting front (.start setting.order world)).2.modules
      rw [Setting.load] at loaded
      rw [Workshop.inModules, Activity.within, loaded]
      rfl

theorem outcome_of_broken (front : Members) (world : ω) (installed : Installed setting manifest)
    (broken : Broken manifest)
    (valid : Entry.Valid id entry call) (named : call.namespaceName = "search") :
    ∃ causes, (courseOf setting id entry
      (reports setting front (.start setting.order world)).2).outcome =
        .ok (.error (.shown "Invalid namespace" causes)) := by
  have refused : (Workshop.resolve setting.registry ⟨setting.settings, setting.app, ⟨true⟩⟩ "search"
      (reports setting front (.start setting.order world)).2).outcome =
      .ok (.error (.invalidHandler "search" "`field_prefix` must be a string")) := by
    have loaded := load_of_broken installed broken
      (reports setting front (.start setting.order world)).2.modules
    rw [Setting.load] at loaded
    rw [Workshop.resolve_of_absent (not_kept_of_broken installed broken front world),
      Workshop.inModules, Activity.within, loaded]
    rfl
  have names := valid.names
  rw [named] at names
  have fails : Entry.Fails _ _ id entry _ .loading _ := .loading names refused
  exact ⟨_, (Entry.process_iff _).mpr (.failure ⟨fails, valid.passes _ _ _⟩)⟩

/-- The part of an admitted entry is keyed by its id and stands among the parts of the account. -/
theorem resultPart_of_split (world : ω) {body : Octets} {info : RequestInfo} {envelope : Envelope}
    {back : Members} (accepted : Envelope.parse body info = .ok envelope)
    (split : (Agenda.start setting.settings.maxEntries envelope.entries).admitted =
      front ++ (id, entry) :: back) :
    ∃ r result m, (account setting world body info).reports[front.length]? = some r ∧ r.id = id ∧
      r.resultPart setting.settings.debug ∈
        (account setting world body info).parts setting.settings.debug ∧
      r.result = EntryResult.answer setting.patience m result ∧
      (courseOf setting id entry (reports setting front (.start setting.order world)).2).outcome =
        .ok result := by
  have placed : (account setting world body info).reports[front.length]? =
      some (reportOf setting.patience id (courseOf setting id entry
        (reports setting front (.start setting.order world)).2)) := by
    -- every entry in front has one report
    have length : (reports setting front (.start setting.order world)).1.length = front.length := by
      have ids := congrArg List.length (reports_ids setting front (.start setting.order world))
      rwa [List.length_map, Assoc.keys, List.length_map] at ids
    rw [account_of_accepted setting world accepted, split, reports_append, reports]
    rw [List.getElem?_append_right (Nat.le_of_eq length), length, Nat.sub_self]
    rfl
  refine ⟨_, _, _, placed, rfl, ?_, rfl, courseOf_outcome ..⟩
  rw [Account.parts, List.append_assoc, List.mem_append]
  exact .inl (Report.resultPart_mem_partsThen (List.mem_of_getElem? placed))

/-- What the part of a call of `compile` says, told in both directions. -/
structure Answers (fallback : String) (supplied : Members) (answer : Json) : Prop where
  succeeds : (∃ result, answer = succeeded result) ↔ ∃ p, Compiles fallback supplied p
  compiled : ∀ p, Compiles fallback supplied p → answer = succeeded (output p)
  refused : ∀ message, answer = failed message ↔ Refuses fallback supplied message
  told : (∃ result, answer = succeeded result) ∨ ∃ message, answer = failed message

theorem Answers.of_cases {fallback : String} {supplied : Members} {answer : Json}
    (compiled : ∀ p, Compiles fallback supplied p → answer = succeeded (output p))
    (refused : ∀ message, Refuses fallback supplied message → answer = failed message) :
    Answers fallback supplied answer := by
  have apart (result : Json) (message : String) : succeeded result ≠ failed message := by
    intro same
    simp [succeeded, failed] at same
  rcases compiles_or_refuses fallback supplied with ⟨p, compiles⟩ | ⟨reason, refuses⟩
  · have came := compiled p compiles
    refine ⟨iff_of_true ⟨_, came⟩ ⟨p, compiles⟩, compiled, fun message => ?_, .inl ⟨_, came⟩⟩
    exact ⟨fun told => absurd (came.symm.trans told) (apart _ _), refused message⟩
  · have came := refused reason refuses
    refine ⟨?_, compiled, fun message => ⟨fun told => ?_, refused message⟩, .inr ⟨_, came⟩⟩
    · constructor
      · rintro ⟨result, told⟩
        exact absurd (told.symm.trans came) (apart _ _)
      · rintro ⟨p, compiles⟩
        exact ⟨_, compiled p compiles⟩
    · have same : reason = message := by
        have both := came.symm.trans told
        simpa [failed] using both
      exact same ▸ refuses

theorem answers_of_entry (installed : Installed setting manifest) {fallback : String}
    (defaults : Defaults manifest fallback) (valid : Entry.Valid id entry call)
    (named : call.namespaceName = "search") (asked : call.function = "compile")
    {result : EntryResult ω} (debug : Bool) (patience : Nat) (m : ModuleState ω)
    (came : (courseOf setting id entry (reports setting front (.start setting.order world)).2).outcome =
      .ok result) : Answers fallback call.arguments ((result.answer patience m).body debug) := by
  have names := valid.names
  rw [named] at names
  obtain ⟨v, loads⟩ := exists_loads front world installed defaults names
  have served {own : EntryResult ω} (serves : Entry.Serves [compile fallback] v call own) :
      result = own :=
    Except.ok.inj (came.symm.trans (serves.outcome (sound_compile fallback) valid loads))
  apply Answers.of_cases
  · intro p compiles
    have ⟨_, _, _, _, compiled⟩ := compiles
    obtain ⟨clauses, inOrder⟩ := inOrder_of_compiled compiled
    rw [served (serves_of_compiles asked compiles), Payload.json, EntryResult.answer, Answer.body,
      inOrder.withoutPrivate_eq]
    rfl
  · intro message refuses
    obtain ⟨causes, serves⟩ := serves_of_refuses (v := v) asked refuses
    rw [served serves]
    cases debug <;> rfl

/-- For every accepted request to a program in which the namespace is this module, whatever its
manifest, with messages shown for debugging or not. Each entry that names the namespace has its part.
A call of `compile` succeeds exactly where a filter is given and the prefix that it uses compiles it;
its result is then the text and the parameters of that predicate, in the order of the placeholders, and
leaving out private members leaves nothing out. Otherwise the part tells what is wrong: that the filter
is missing, that the prefix is no text, or what the filter itself offends by. Where the manifest has a
prefix that is no text, every entry that names the namespace is told so. Over a peer that takes
everything, a run that ends has delivered these parts. -/
theorem compiled_filter_arrives_whole (setting : Setting ω) (manifest : Option Toml.Table)
    (installed : Installed setting manifest) (world : ω) (body : Octets) (info : RequestInfo)
    (envelope : Envelope) (accepted : Envelope.parse body info = .ok envelope) :
    (∀ front id entry back call,
      (Agenda.start setting.settings.maxEntries envelope.entries).admitted =
        front ++ (id, entry) :: back →
      Entry.Valid id entry call → call.namespaceName = "search" →
      ∃ r answer, (account setting world body info).reports[front.length]? = some r ∧
        r.resultPart setting.settings.debug =
          ⟨"application/json", (Json.object [(id, answer)]).octets⟩ ∧
        r.resultPart setting.settings.debug ∈
          (account setting world body info).parts setting.settings.debug ∧
        (∀ fallback, Defaults manifest fallback → call.function = "compile" →
          Answers fallback call.arguments answer) ∧
        (Broken manifest → answer = failed "Invalid namespace")) ∧
    (∀ fieldPrefix filter p, Filter.Predicate.compile fieldPrefix .and filter = .ok p →
      (output p).withoutPrivate = output p ∧ (∃ clauses, InOrder fieldPrefix p clauses) ∧
      (':' ∉ fieldPrefix.toList →
        Filter.placeholdersIn p.text.toList = Assoc.keys p.parameters)) ∧
    ∀ (peer : Peer) (boundary : Boundary) (response : Session ω), peer.TakesAll →
      (∀ r ∈ (account setting world body info).reports, r.result.isFinite = true) →
      run setting world body info peer boundary = .done () response →
      response.exhausted = false ∧
      response.delivered = ((account setting world body info).parts setting.settings.debug).flatMap
        (ResponsePart.octets boundary) ++ Octets.ofText boundary.terminator := by
  refine ⟨?_, ?_, fun _ _ _ takesAll finite ended => ?_⟩
  · intro front id entry back call split valid named
    obtain ⟨r, result, m, placed, rfl, among, told, came⟩ :=
      resultPart_of_split world accepted split
    refine ⟨r, _, placed, rfl, among, ?_, ?_⟩
    · intro fallback defaults asked
      rw [told]
      exact answers_of_entry installed defaults valid named asked _ _ m came
    · intro broken
      obtain ⟨causes, refused⟩ := outcome_of_broken front world installed broken valid named
      rw [told, Except.ok.inj (came.symm.trans refused)]
      cases setting.settings.debug <;> rfl
  · intro fieldPrefix filter p compiled
    obtain ⟨clauses, inOrder⟩ := inOrder_of_compiled compiled
    refine ⟨inOrder.withoutPrivate_eq, ⟨clauses, inOrder⟩, fun free => ?_⟩
    exact placeholdersIn_compiled free compiled
  · obtain ⟨delivered, whole⟩ := delivered_of_ended takesAll ended
    exact ⟨whole finite, delivered⟩

/-! A program with a route directory, where the manifest of the namespace gives the prefix. -/

def shop : Registry Unit where
  factories := [("search", factory)]
  routes := some ⟨"routes",
    some (.ofPaths [("search.toml", .file (Octets.ofText "field_prefix = \"t.\""))]),
    fun _ => "not a table"⟩

def shopSetting : Setting Unit := ⟨shop, .standard, .empty, fun _ _ => 0, 0⟩

theorem shop_installed : ∃ manifest, Installed shopSetting manifest ∧ Defaults manifest "t." := by
  have told : (shop.manifest "search").toOption.map manifestPrefix? = some (some "t.") := by
    decide +kernel
  cases readable : shop.manifest "search" with
  | error e =>
      rw [readable] at told
      cases told
  | ok manifest =>
      rw [readable] at told
      exact ⟨manifest, ⟨rfl, readable⟩, (manifestPrefix?_eq_some_iff ..).mp (Option.some.inj told)⟩

def shopCall : Call where
  namespaceName := "search"
  function := "compile"
  arguments := [("filter", .object [("_size", .object [("operator", .string "="),
    ("value", .int 5)])])]

def shopEntry : Json := .object [("ns", .string "search"), ("function", .string "compile"),
  ("arguments", .object shopCall.arguments)]

def shopRequest : Octets := (Json.object
  [("version", .int 1), ("payload", .object [("q", shopEntry)])]).octets

set_option maxRecDepth 4000 in
theorem shopRequest_accepted :
    Envelope.parse shopRequest ⟨some "application/json", true⟩ = .ok ⟨1, [("q", shopEntry)]⟩ := by
  with_unfolding_all rfl

/-- A field whose name begins with an underscore stands in the text, and its parameter is there. -/
theorem underscored_field_arrives :
    (∃ manifest, Installed shopSetting manifest ∧ Defaults manifest "t.") ∧
    Envelope.parse shopRequest ⟨some "application/json", true⟩ = .ok ⟨1, [("q", shopEntry)]⟩ ∧
    ⟨"application/json", (Json.object [("q", succeeded (.object
        [("predicate", .string "t._size = :p0_1"),
         ("params", .object [(":p0_1",
           .object [("value", .string "5"), ("type", .string "string")])])]))]).octets⟩ ∈
      (account shopSetting () shopRequest ⟨some "application/json", true⟩).parts false := by
  refine ⟨shop_installed, shopRequest_accepted, ?_⟩
  obtain ⟨manifest, installed, defaults⟩ := shop_installed
  have valid : Entry.Valid "q" shopEntry shopCall :=
    ⟨by decide, ⟨_, rfl, rfl⟩, by decide, ⟨_, rfl, rfl⟩, by decide, ⟨_, rfl, .inr rfl⟩⟩
  obtain ⟨entries, -, -⟩ := compiled_filter_arrives_whole shopSetting manifest installed () shopRequest
    ⟨some "application/json", true⟩ ⟨1, [("q", shopEntry)]⟩ shopRequest_accepted
  obtain ⟨r, answer, -, part, among, answers, -⟩ := entries [] "q" shopEntry [] shopCall rfl valid rfl
  have compiles : Compiles "t." shopCall.arguments
      ⟨"t._size = :p0_1", [(":p0_1", .string "5")]⟩ :=
    ⟨_, "t.", ⟨rfl, nofun⟩, .fallback (fun _ given => nomatch given.1), by with_unfolding_all rfl⟩
  rw [part, (answers "t." defaults rfl).compiled _ compiles] at among
  exact among

end Batch

end Multicall.Search
