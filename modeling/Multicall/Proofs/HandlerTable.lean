import Mathlib.Data.List.Induction
import Mathlib.Data.List.Nodup
import Multicall.Proofs.ArgumentBinding
/-!
Handlers as tables of reachable operations. What a draft may register, what an entry may name and what
asks for help are told apart by three pieces of code; here they are shown to cut the same language. A
draft becomes a handler exactly where every name can be called and none comes twice, and then each name
reaches its own operation, help tells of the operations that can be called and of no others, and what is
said of an unknown name is never said of a known one.
-/
namespace Multicall

variable {ω : Type}

namespace Call

/-- A function word: a letter or digit, and then letters, digits, `_` and `:`. -/
def IsFunctionWord (name : String) : Prop :=
  ∃ first rest, name.toList = first :: rest ∧ first.isAlphanum = true ∧
    ∀ c ∈ rest, c.isAlphanum = true ∨ c = '_' ∨ c = ':'

theorem isFunction_iff (name : String) : isFunction name = true ↔ IsFunctionWord name := by
  rw [isFunction, Ascii.startsAlnumThen, IsFunctionWord]
  cases name.toList with
  | nil => simp
  | cons first rest => simp [List.all_eq_true, or_assoc]

theorem invocationOf_eq_call_iff (function : String) :
    invocationOf function = .call function ↔
      function ≠ "HELP" ∧ ∀ rest, function ≠ "HELP:" ++ rest := by
  constructor
  · intro called
    constructor
    · rintro rfl
      rw [invocationOf_help] at called
      cases called
    · rintro rest rfl
      rw [invocationOf_describe] at called
      cases called
  · rintro ⟨word, description⟩
    rcases invocationOf_cases function with help | ⟨about, help⟩ | ⟨-, -, called⟩
    · exact absurd help word
    · exact absurd help (description about)
    · exact called

end Call

namespace Operation

/-- A name that entries can call. -/
structure Reachable (name : String) : Prop where
  form : Call.IsFunctionWord name
  word : name ≠ "HELP"
  description : ∀ rest, name ≠ "HELP:" ++ rest

/-- Operations that make a handler: all reachable, and no two of one name. -/
structure Sound (operations : List (Operation ω)) : Prop where
  reachable : ∀ op ∈ operations, Reachable op.name
  apart : (operations.map (·.name)).Nodup

/-- What is wrong with an operation that is registered behind others. -/
inductive Offends (draftName : String) (front : List (Operation ω)) (op : Operation ω) :
    LoadError → Prop
  | unreachable (bad : ¬ Reachable op.name) :
      Offends draftName front op
        (.invalidHandler draftName ("operation name `" ++ op.name ++ "` is not allowed"))
  | repeated (good : Reachable op.name) (again : op.name ∈ front.map (·.name)) :
      Offends draftName front op
        (.invalidHandler draftName ("operation `" ++ op.name ++ "` registered twice"))

/-- Operations under their names, in registration order. -/
def table (operations : List (Operation ω)) : Assoc (Operation ω) :=
  operations.map fun op => (op.name, op)

/-- What help tells of an operation. -/
def told (op : Operation ω) : Json :=
  .object [("function", .string op.name),
    ("args", .array (op.parameters.map fun p => .object [("name", .string p.name),
      ("type", .string p.type), ("optional", .bool p.optional)])),
    ("return", .string op.returns)]

theorem isCallable_iff (name : String) : isCallable name = true ↔ Reachable name := by
  rw [isCallable, Bool.and_eq_true, Bool.and_eq_true, Call.isFunction_iff, decide_eq_true_iff,
    Option.isNone_iff_eq_none, Option.eq_none_iff_forall_ne_some]
  simp only [ne_eq, Ascii.dropWord?_eq_some_iff]
  exact ⟨fun ⟨⟨form, word⟩, description⟩ => ⟨form, word, description⟩,
    fun ⟨form, word, description⟩ => ⟨⟨form, word⟩, description⟩⟩

theorem keys_table (operations : List (Operation ω)) :
    Assoc.keys (table operations) = operations.map (·.name) := by
  simp [Assoc.keys, table]

/-- One more operation offends or goes well with those in front. -/
theorem Sound.next {front : List (Operation ω)} (sound : Sound front) (draftName : String)
    (op : Operation ω) : Sound (front ++ [op]) ∨ ∃ e, Offends draftName front op e := by
  by_cases good : Reachable op.name
  · by_cases again : op.name ∈ front.map (·.name)
    · exact .inr ⟨_, .repeated good again⟩
    · left
      constructor
      · intro other found
        rcases List.mem_append.mp found with before | last
        · exact sound.reachable other before
        · rw [List.mem_singleton.mp last]
          exact good
      · rw [List.map_append, List.nodup_append_comm]
        exact List.nodup_cons.mpr ⟨again, sound.apart⟩
  · exact .inr ⟨_, .unreachable good⟩

/-- Operations make a handler, or there is a first one that offends. -/
theorem sound_or_offends (draftName : String) (operations : List (Operation ω)) :
    Sound operations ∨ ∃ front op back e, operations = front ++ op :: back ∧ Sound front ∧
      Offends draftName front op e := by
  -- from the right, since an operation is judged by those in front of it
  induction operations using List.reverseRecOn with
  | nil => exact .inl ⟨nofun, List.nodup_nil⟩
  | append_singleton init last ih =>
      rcases ih with sound | ⟨front, op, back, e, rfl, sound, offends⟩
      · exact (sound.next draftName last).imp_right fun ⟨e, offends⟩ =>
          ⟨init, last, [], e, rfl, sound, offends⟩
      · exact .inr ⟨front, op, back ++ [last], e, by simp, sound, offends⟩

end Operation

/-- A handler as it is built from sound operations. -/
def Handler.ofTable (name : String) (operations : List (Operation ω))
    (onClose : Option (CloseHook ω)) : Handler ω := ⟨name, Operation.table operations, onClose⟩

namespace Draft

open Operation

/-- Sound operations are entered as they come. -/
theorem enter_of_sound (draftName : String) (front more rest : List (Operation ω))
    (sound : Sound (front ++ more)) :
    enter draftName (table front) (more ++ rest) = enter draftName (table (front ++ more)) rest := by
  induction more generalizing front with
  | nil => rw [List.append_nil, List.nil_append]
  | cons op more ih =>
      have whole : front ++ op :: more = (front ++ [op]) ++ more := by simp
      have callable := (isCallable_iff op.name).mpr (sound.reachable op (by simp))
      have fresh : op.name ∉ Assoc.keys (table front) := by
        have apart := sound.apart
        rw [whole, List.map_append, List.map_append] at apart
        rw [keys_table]
        exact fun again =>
          List.disjoint_of_nodup_append apart.of_append_left again (List.mem_singleton.mpr rfl)
      have absent := (Assoc.get?_eq_none_iff _ _).mpr fresh
      rw [whole] at sound ⊢
      rw [List.cons_append, enter, callable, absent, Assoc.set_of_not_mem _ fresh]
      have entered : table front ++ [(op.name, op)] = table (front ++ [op]) := by simp [table]
      rw [entered]
      exact ih (front ++ [op]) sound

theorem enter_of_offends {draftName : String} {front : List (Operation ω)} {op : Operation ω}
    {e : LoadError} (offends : Offends draftName front op e) (back : List (Operation ω)) :
    enter draftName (table front) (op :: back) = .error e := by
  rw [enter]
  cases offends with
  | unreachable bad =>
      rw [← isCallable_iff, Bool.not_eq_true] at bad
      rw [bad]
      rfl
  | repeated good again =>
      rw [← keys_table] at again
      have found : ((table front).get? op.name).isSome = true := by
        rw [Option.isSome_iff_ne_none]
        exact fun absent => (Assoc.get?_eq_none_iff _ _).mp absent again
      rw [(isCallable_iff _).mpr good, found]
      rfl

theorem build_of_sound {d : Draft ω} (sound : Sound d.operations) :
    d.build = .ok (.ofTable d.name d.operations d.onClose) := by
  have entered := enter_of_sound d.name [] d.operations [] sound
  rw [List.append_nil, List.nil_append] at entered
  rw [build, show ([] : Assoc (Operation ω)) = table [] from rfl, entered]
  rfl

theorem build_of_offends {d : Draft ω} {front back : List (Operation ω)} {op : Operation ω}
    {e : LoadError} (whole : d.operations = front ++ op :: back) (sound : Sound front)
    (offends : Offends d.name front op e) : d.build = .error e := by
  have entered := enter_of_sound d.name [] front (op :: back) sound
  rw [List.nil_append, enter_of_offends offends] at entered
  rw [build, whole, show ([] : Assoc (Operation ω)) = table [] from rfl, entered]
  rfl

theorem build_ok_iff (d : Draft ω) (h : Handler ω) :
    d.build = .ok h ↔ Sound d.operations ∧ h = .ofTable d.name d.operations d.onClose := by
  constructor
  · intro built
    rcases sound_or_offends d.name d.operations with sound | ⟨_, _, _, _, whole, sound, offends⟩
    · cases (build_of_sound sound).symm.trans built
      exact ⟨sound, rfl⟩
    · cases (build_of_offends whole sound offends).symm.trans built
  · rintro ⟨sound, rfl⟩
    exact build_of_sound sound

theorem build_error_iff (d : Draft ω) (e : LoadError) :
    d.build = .error e ↔ ∃ front op back, d.operations = front ++ op :: back ∧ Sound front ∧
      Offends d.name front op e := by
  constructor
  · intro refused
    rcases sound_or_offends d.name d.operations with sound | ⟨front, op, back, _, whole, rest⟩
    · cases (build_of_sound sound).symm.trans refused
    · cases (build_of_offends whole rest.1 rest.2).symm.trans refused
      exact ⟨front, op, back, whole, rest⟩
  · rintro ⟨front, op, back, whole, sound, offends⟩
    exact build_of_offends whole sound offends

end Draft

namespace Handler

open Operation

variable {operations : List (Operation ω)} {handlerName : String} {onClose : Option (CloseHook ω)}

theorem operation?_ofTable (sound : Sound operations) (name : String) (op : Operation ω) :
    (ofTable handlerName operations onClose).operation? name = some op ↔
      op ∈ operations ∧ op.name = name := by
  have apart : (Assoc.keys (table operations)).Nodup := by
    rw [keys_table]
    exact sound.apart
  rw [operation?, ofTable, ← Assoc.mem_iff_get? apart, table, List.mem_map]
  constructor
  · rintro ⟨other, listed, same⟩
    cases same
    exact ⟨listed, rfl⟩
  · rintro ⟨listed, rfl⟩
    exact ⟨op, listed, rfl⟩

theorem operation?_ofTable_of_unlisted (sound : Sound operations) {name : String}
    (unlisted : name ∉ operations.map (·.name)) :
    (ofTable handlerName operations onClose).operation? name = none := by
  rw [Option.eq_none_iff_forall_ne_some]
  intro op found
  obtain ⟨listed, rfl⟩ := (operation?_ofTable sound name op).mp found
  exact unlisted (List.mem_map.mpr ⟨op, listed, rfl⟩)

theorem listing_ofTable :
    (ofTable handlerName operations onClose).listing =
      .object [("functions", .array (operations.map fun op => .string op.name))] := by
  rw [listing, operationNames, ofTable, keys_table, List.map_map]
  rfl

theorem description_ofTable (sound : Sound operations) {op : Operation ω} (listed : op ∈ operations) :
    (ofTable handlerName operations onClose).description op.name = op.told := by
  rw [description, (operation?_ofTable sound op.name op).mpr ⟨listed, rfl⟩]
  rfl

theorem description_ofTable_of_unlisted (sound : Sound operations) {name : String}
    (unlisted : name ∉ operations.map (·.name)) :
    (ofTable handlerName operations onClose).description name = noDescription := by
  rw [description, operation?_ofTable_of_unlisted sound unlisted]

end Handler

/-- What is said of an unknown operation names something that no operation can be called. -/
theorem Operation.Reachable.told_ne {op : Operation ω} (reachable : Reachable op.name) :
    op.told ≠ Handler.noDescription := by
  intro same
  have named : op.name = "Invalid operation" := by
    simp only [told, Handler.noDescription, Handler.descriptionJson, Json.object.injEq,
      List.cons.injEq, Prod.mk.injEq, Json.string.injEq, true_and] at same
    exact same.1
  -- that name has a blank in it
  have form := (Call.isFunction_iff _).mpr reachable.form
  rw [named] at form
  exact absurd form (by decide)

namespace Entry

open Operation

/-- What a call of a handler with these operations comes to, in the workshop that has loaded it. -/
inductive Serves (operations : List (Operation ω)) (v : Workshop ω) (call : Call) :
    EntryResult ω → Prop
  | listing (asked : call.function = "HELP") :
      Serves operations v call
        (.ok (.json (.object [("functions", .array (operations.map fun op => .string op.name))])))
  | description {op} (listed : op ∈ operations) (asked : call.function = "HELP:" ++ op.name) :
      Serves operations v call (.ok (.json op.told))
  | noDescription {name} (unlisted : name ∉ operations.map (·.name))
      (asked : call.function = "HELP:" ++ name) :
      Serves operations v call (.ok (.json Handler.noDescription))
  | called {op bound} (listed : op ∈ operations) (asked : call.function = op.name)
      (binds : bindArguments op.name op.parameters call.arguments = .ok bound) :
      Serves operations v call (resultOf (Workshop.inModules (op.invoke bound) v).outcome)
  | unbound {op f} (listed : op ∈ operations) (asked : call.function = op.name)
      (fails : bindArguments op.name op.parameters call.arguments = .error f) :
      Serves operations v call (.error f)
  | unlisted (word : call.function ≠ "HELP") (description : ∀ name, call.function ≠ "HELP:" ++ name)
      (unlisted : call.function ∉ operations.map (·.name)) :
      Serves operations v call (.error (.shown "Invalid operation" []))

theorem exists_serves (operations : List (Operation ω)) (v : Workshop ω) (call : Call) :
    ∃ result, Serves operations v call result := by
  rcases Call.invocationOf_cases call.function with list | ⟨name, describe⟩ | ⟨word, description, -⟩
  · exact ⟨_, .listing list⟩
  · by_cases listed : name ∈ operations.map (·.name)
    · obtain ⟨op, found, rfl⟩ := List.mem_map.mp listed
      exact ⟨_, .description found describe⟩
    · exact ⟨_, .noDescription listed describe⟩
  · by_cases listed : call.function ∈ operations.map (·.name)
    · obtain ⟨op, found, named⟩ := List.mem_map.mp listed
      cases binds : bindArguments op.name op.parameters call.arguments with
      | ok bound => exact ⟨_, .called found named.symm binds⟩
      | error f => exact ⟨_, .unbound found named.symm binds⟩
    · exact ⟨_, .unlisted word description listed⟩

variable {r : Registry ω} {ctx : LoadContext} {id : String} {body : Json} {w v : Workshop ω}
  {call : Call} {operations : List (Operation ω)} {handlerName : String}
  {onClose : Option (CloseHook ω)}

theorem Valid.passes_of_calls (valid : Valid id body call) {op : Operation ω} {bound : Arguments}
    (calls : Calls r ctx body w op bound v) :
    ∀ stage ∈ Stage.invocation.before, Passes r ctx id body w stage := by
  intro stage earlier
  cases stage with
  | id | object | namespaceName | function | arguments => exact valid.passes r ctx w _ (by decide)
  | loading | lookup | binding => exact calls.passes_middle (by decide)
  | invocation => exact absurd earlier (by decide)

theorem Valid.finds (valid : Valid id body call) (sound : Sound operations)
    (loads : Loads r ctx body w (Handler.ofTable handlerName operations onClose) v)
    {op : Operation ω} (listed : op ∈ operations) (asked : call.function = op.name) :
    Asks r ctx body w op.name (Handler.ofTable handlerName operations onClose) v ∧
      (Handler.ofTable handlerName operations onClose).operation? op.name = some op := by
  have reachable := sound.reachable op listed
  constructor
  · exact ⟨loads, asked ▸ valid.function, reachable.word, reachable.description⟩
  · exact (Handler.operation?_ofTable sound op.name op).mpr ⟨listed, rfl⟩

/-- A handler serves its calls from its table. -/
theorem Serves.outcome (sound : Sound operations) (valid : Valid id body call)
    (loads : Loads r ctx body w (Handler.ofTable handlerName operations onClose) v)
    {result : EntryResult ω} (serves : Serves operations v call result) :
    (process r ctx id body w).outcome = .ok result := by
  have function := valid.function
  -- a call for help invokes nothing and passes all stages; the others go as far as look-up and
  -- binding let them
  cases serves with
  | listing asked =>
      have help : call.SeeksHelp := .inl asked
      rw [asked] at function
      rw [process_iff, ← Handler.listing_ofTable]
      exact .success (valid.passes_of_help loads help.invocation) (.listing loads function)
  | description listed asked =>
      have help : call.SeeksHelp := .inr ⟨_, asked⟩
      rw [asked] at function
      rw [process_iff, ← Handler.description_ofTable sound listed]
      exact .success (valid.passes_of_help loads help.invocation) (.description loads function)
  | noDescription unlisted asked =>
      have help : call.SeeksHelp := .inr ⟨_, asked⟩
      rw [asked] at function
      rw [process_iff, ← Handler.description_ofTable_of_unlisted sound unlisted]
      exact .success (valid.passes_of_help loads help.invocation) (.description loads function)
  | called listed asked binds =>
      obtain ⟨asks, found⟩ := valid.finds sound loads listed asked
      have calls : Calls r ctx body w _ _ v := ⟨⟨_, _, asks, found⟩, _, valid.supplies, binds⟩
      rw [process_iff]
      exact calls.decides (valid.passes_of_calls calls)
  | unbound listed asked fails =>
      obtain ⟨asks, found⟩ := valid.finds sound loads listed asked
      exact asks.outcome_of_unbound found valid.supplies fails valid
  | unlisted word description unlisted =>
      have asks : Asks r ctx body w call.function _ v := ⟨loads, function, word, description⟩
      rw [process_iff]
      have fails : Fails r ctx id body w .lookup _ :=
        .lookup asks (Handler.operation?_ofTable_of_unlisted sound unlisted)
      exact .failure ⟨fails, Stage.forall_before_next .loading .lookup rfl
        (valid.passes r ctx w) loads.passes⟩

theorem serves_iff (sound : Sound operations) (valid : Valid id body call)
    (loads : Loads r ctx body w (Handler.ofTable handlerName operations onClose) v)
    (result : EntryResult ω) :
    (process r ctx id body w).outcome = .ok result ↔ Serves operations v call result := by
  refine ⟨fun came => ?_, Serves.outcome sound valid loads⟩
  obtain ⟨own, serves⟩ := exists_serves operations v call
  cases (serves.outcome sound valid loads).symm.trans came
  exact serves

/-- Where the function is no name of an operation, none is invoked. -/
theorem uncalled_of_unlisted (sound : Sound operations) (valid : Valid id body call)
    (loads : Loads r ctx body w (Handler.ofTable handlerName operations onClose) v)
    (unlisted : call.function ∉ operations.map (·.name)) (op : Operation ω) (bound : Arguments)
    (u : Workshop ω) : ¬ Calls r ctx body w op bound u := by
  rintro ⟨⟨name, h, asks, found⟩, -⟩
  obtain ⟨rfl, rfl⟩ := asks.loads.unique loads
  cases asks.function.unique valid.function
  cases (Handler.operation?_ofTable_of_unlisted sound unlisted).symm.trans found

end Entry

namespace Draft

open Operation

/-- For every draft. It becomes a handler exactly where all its names are reachable and no two are the
same, and otherwise the first operation that is not reachable or comes again is told. Of a handler that
was built, every name is a word that entries may have for their function, is no word that asks for help,
finds its own operation, and is told of in another way than names that are unknown. And every entry that
loads it is served by its table: help lists all names in registration order or tells of the operation
that it names, any other function reaches the operation of that name, and where there is none the
operation is invalid and nothing is invoked. -/
theorem built_handler_is_reachable (d : Draft ω) :
    (∀ h, d.build = .ok h ↔ Sound d.operations ∧ h = .ofTable d.name d.operations d.onClose) ∧
    (∀ e, d.build = .error e ↔ ∃ front op back, d.operations = front ++ op :: back ∧ Sound front ∧
      Offends d.name front op e) ∧
    ∀ h, d.build = .ok h →
      (∀ name op, h.operation? name = some op ↔ op ∈ d.operations ∧ op.name = name) ∧
      (∀ op ∈ d.operations,
        op.told ≠ Handler.noDescription ∧
        ∀ id body call, call.function = op.name → Call.isId id = true →
          Entry.HasText body "ns" call.namespaceName → Call.isNamespace call.namespaceName = true →
          Entry.HasText body "function" call.function → Entry.Supplies body call.arguments →
          Call.ofEntry id body = .ok call ∧ call.invocation = .call op.name) ∧
      ∀ (r : Registry ω) (ctx : LoadContext) (id : String) (body : Json) (w v : Workshop ω)
        (call : Call), Entry.Valid id body call → Entry.Loads r ctx body w h v →
        (∀ result, (Entry.process r ctx id body w).outcome = .ok result ↔
          Entry.Serves d.operations v call result) ∧
        (call.function ∉ d.operations.map (·.name) →
          ∀ asked ∈ Entry.requests r ctx id body w, asked.operation? = none) := by
  refine ⟨build_ok_iff d, build_error_iff d, ?_⟩
  intro h built
  obtain ⟨sound, rfl⟩ := (build_ok_iff d h).mp built
  refine ⟨Handler.operation?_ofTable sound, ?_, ?_⟩
  · intro op listed
    have reachable := sound.reachable op listed
    refine ⟨reachable.told_ne, ?_⟩
    intro id body call named isId ns isNamespace function supplies
    have isFunction : Call.isFunction call.function = true := by
      rw [named]
      exact (Call.isFunction_iff _).mpr reachable.form
    have valid : Entry.Valid id body call := ⟨isId, ns, isNamespace, function, isFunction, supplies⟩
    refine ⟨valid.ofEntry, ?_⟩
    rw [Call.invocation, named]
    exact (Call.invocationOf_eq_call_iff _).mpr ⟨reachable.word, reachable.description⟩
  · intro r ctx id body w v call valid loads
    exact ⟨Entry.serves_iff sound valid loads, fun unlisted =>
      Entry.requests_of_uncalled (Entry.uncalled_of_unlisted sound valid loads unlisted)⟩

/-- Names that only begin like words that ask for help can be called. -/
example : isCallable "HELPER" = true ∧ isCallable "HELP_x" = true ∧ isCallable "a:b" = true ∧
    isCallable "HELP:" = false := by
  decide

end Draft

end Multicall
