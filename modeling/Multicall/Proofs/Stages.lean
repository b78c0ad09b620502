import Multicall.Proofs.KeptHandlers
/-!
The stages of an entry. Each of them looks at its own part of the entry or of what came before, and
says by itself what is wrong there; an entry may be wrong at many of them. The first in order that
does not pass decides the result, and none behind it leaves a trace: an entry that fails its checks
touches nothing, and one that fails between the loading of its namespace and the call of its operation
does what loading does and nothing else. A word that asks for help ends there too, and well.
-/
namespace Multicall

variable {ω : Type}

theorem Ascii.dropWord?_eq_some_iff (word s rest : String) :
    Ascii.dropWord? word s = some rest ↔ s = word ++ rest := by
  rw [Ascii.dropWord?]
  constructor
  · intro found
    split at found
    · next front =>
        obtain ⟨behind, whole⟩ := List.isPrefixOf_iff_prefix.mp front
        cases found
        apply String.toList_injective
        rw [String.toList_append, String.toList_ofList, ← whole, List.drop_left]
    · cases found
  · rintro rfl
    rw [String.toList_append, if_pos (List.isPrefixOf_iff_prefix.mpr (List.prefix_append _ _)),
      List.drop_left, String.ofList_toList]

namespace Call

theorem invocationOf_help : invocationOf "HELP" = .list := rfl

theorem invocationOf_describe (name : String) : invocationOf ("HELP:" ++ name) = .describe name := by
  have differs : "HELP:" ++ name ≠ "HELP" := by
    intro same
    have length := congrArg String.length same
    have longer : "HELP:".length = 5 := by decide
    have shorter : "HELP".length = 4 := by decide
    rw [String.length_append] at length
    omega
  rw [invocationOf, helpWord, if_neg differs, helpColon, (Ascii.dropWord?_eq_some_iff _ _ _).mpr rfl]

/-- What is no word that asks for help is called by its name. -/
theorem invocationOf_cases (function : String) :
    function = "HELP" ∨ (∃ name, function = "HELP:" ++ name) ∨
      (function ≠ "HELP" ∧ (∀ name, function ≠ "HELP:" ++ name) ∧
        invocationOf function = .call function) := by
  by_cases list : function = "HELP"
  · exact .inl list
  · cases found : Ascii.dropWord? "HELP:" function with
    | some name => exact .inr (.inl ⟨name, (Ascii.dropWord?_eq_some_iff _ _ _).mp found⟩)
    | none =>
        right
        right
        constructor
        · exact list
        constructor
        · intro name same
          rw [(Ascii.dropWord?_eq_some_iff _ _ _).mpr same] at found
          cases found
        · rw [invocationOf, helpWord, if_neg list, helpColon, found]

/-- A call of a word that asks for help. -/
def SeeksHelp (c : Call) : Prop := c.function = "HELP" ∨ ∃ name, c.function = "HELP:" ++ name

theorem SeeksHelp.invocation {c : Call} (help : c.SeeksHelp) : c.invocation ≠ .call c.function := by
  rw [Call.invocation]
  rcases help with list | ⟨name, describe⟩
  · rw [list, invocationOf_help]
    nofun
  · rw [describe, invocationOf_describe]
    nofun

end Call

namespace Entry

/-- A member of the entry that is a text. -/
def HasText (body : Json) (name text : String) : Prop :=
  ∃ fields, body = .object fields ∧ Assoc.get? name fields = some (.string text)

/-- The arguments of the entry; without that member, or with `null` there, it has none. -/
def Supplies (body : Json) (supplied : Members) : Prop :=
  ∃ fields, body = .object fields ∧
    (Json.present? (Assoc.get? "arguments" fields) = none ∧ supplied = [] ∨
      Assoc.get? "arguments" fields = some (.object supplied))

/-- Whether a declared parameter has to be supplied and is not. -/
def lacks (supplied : Members) (p : Declaration) : Bool :=
  !p.optional && (Json.present? (Assoc.get? p.name supplied)).isNone

/-- What an entry goes through. -/
inductive Stage
  | id
  | object
  | namespaceName
  | function
  | arguments
  | loading
  | lookup
  | binding
  | invocation
  deriving DecidableEq, Repr

namespace Stage

/-- The stages in their order. -/
def inOrder : List Stage :=
  [.id, .object, .namespaceName, .function, .arguments, .loading, .lookup, .binding, .invocation]

/-- The stages in front of one. -/
def before (stage : Stage) : List Stage := inOrder.takeWhile (· ≠ stage)

/-- What holds up to a stage and of that stage holds up to the next one. -/
theorem forall_before_next (one next : Stage) (follows : next.before = one.before ++ [one])
    {holds : Stage → Prop} (before : ∀ stage ∈ one.before, holds stage) (here : holds one) :
    ∀ stage ∈ next.before, holds stage := by
  rw [follows, List.forall_mem_append, List.forall_mem_singleton]
  exact ⟨before, here⟩

theorem not_middle_of_early {stage : Stage} (early : stage ∈ loading.before) :
    stage ∉ [loading, lookup, binding] := by
  revert early
  cases stage <;> decide

theorem before_last_or_eq (stage : Stage) : stage ∈ invocation.before ∨ stage = invocation := by
  cases stage <;> decide

theorem eq_or_before (one other : Stage) :
    one = other ∨ one ∈ other.before ∨ other ∈ one.before := by
  cases one <;> cases other <;> decide

end Stage

section Spec

variable (r : Registry ω) (ctx : LoadContext) (id : String) (body : Json) (w : Workshop ω)

/-- The namespace that the entry names has this handler, in this workshop once it is loaded. -/
def Loads (h : Handler ω) (v : Workshop ω) : Prop :=
  ∃ ns, HasText body "ns" ns ∧ (Workshop.resolve r ctx ns w).ComesTo (.ok (.ok h)) v

/-- A loaded handler is asked for an operation, and not for help. -/
structure Asks (name : String) (h : Handler ω) (v : Workshop ω) : Prop where
  loads : Loads r ctx body w h v
  function : HasText body "function" name
  word : name ≠ "HELP"
  description : ∀ rest, name ≠ "HELP:" ++ rest

/-- An operation is there for the entry, and all that it requires is supplied. -/
structure Calls (op : Operation ω) (bound : Arguments) (v : Workshop ω) : Prop where
  found : ∃ name h, Asks r ctx body w name h v ∧ h.operation? name = some op
  binds : ∃ supplied, Supplies body supplied ∧
    Operation.bindArguments op.name op.parameters supplied = .ok bound

/-- What is wrong with an entry at a stage. -/
inductive Fails : Stage → Failure → Prop
  | id (bad : Call.isId id = false) : Fails .id (.shown ("Invalid id " ++ id) [])
  | object (bare : ∀ fields, body ≠ .object fields) : Fails .object (.shown "Invalid namespace" [])
  | namespaceName (bad : ∀ ns, HasText body "ns" ns → Call.isNamespace ns = false) :
      Fails .namespaceName (.shown "Invalid namespace" [])
  | function (bad : ∀ name, HasText body "function" name → Call.isFunction name = false) :
      Fails .function (.shown "Invalid operation" [])
  | arguments (bad : ∀ supplied, ¬ Supplies body supplied) :
      Fails .arguments (.shown "Invalid arguments" [])
  | loading {ns e} (names : HasText body "ns" ns)
      (refused : (Workshop.resolve r ctx ns w).outcome = .ok (.error e)) : Fails .loading (.ofLoad e)
  | loadingPanics {ns p} (names : HasText body "ns" ns)
      (panicked : (Workshop.resolve r ctx ns w).outcome = .error p) : Fails .loading (.ofPanic p)
  | lookup {name h v} (asks : Asks r ctx body w name h v) (absent : h.operation? name = none) :
      Fails .lookup (.shown "Invalid operation" [])
  | binding {name h v op supplied p} (asks : Asks r ctx body w name h v)
      (found : h.operation? name = some op) (supplies : Supplies body supplied)
      (missing : op.parameters.find? (lacks supplied) = some p) :
      Fails .binding (.shown ("Missing argument `" ++ p.name ++ "` `" ++ op.name ++ "`") [])
  | invocation {op bound v raised} (calls : Calls r ctx body w op bound v)
      (raises : (Workshop.inModules (op.invoke bound) v).outcome = .ok (.error raised)) :
      Fails .invocation (.ofRaised raised)
  | invocationPanics {op bound v p} (calls : Calls r ctx body w op bound v)
      (panicked : (Workshop.inModules (op.invoke bound) v).outcome = .error p) :
      Fails .invocation (.ofPanic p)

/-- Whom a failure at a stage blames: the entry, unless the code of a module has panicked or has failed
with something of its own. A failure of known kind comes back as it was. -/
inductive Blames : Stage → Failure → Prop
  | entry {stage f} (front : stage ≠ .invocation) (kind : f.kind = .badRequest)
      (recoverable : f.recoverable = true) : Blames stage f
  | loader {ns p f} (names : HasText body "ns" ns)
      (panicked : (Workshop.resolve r ctx ns w).outcome = .error p) (kind : f.kind = .internal)
      (hidden : f.recoverable = false) : Blames .loading f
  | operation {op bound v f contexts} (calls : Calls r ctx body w op bound v)
      (raises : (Workshop.inModules (op.invoke bound) v).outcome =
        .ok (.error (.failure f contexts))) : Blames .invocation f
  | unknown {op bound v root contexts f} (calls : Calls r ctx body w op bound v)
      (raises : (Workshop.inModules (op.invoke bound) v).outcome =
        .ok (.error (.other root contexts))) (kind : f.kind = .internal)
      (hidden : f.recoverable = false) : Blames .invocation f
  | panicking {op bound v p f} (calls : Calls r ctx body w op bound v)
      (panicked : (Workshop.inModules (op.invoke bound) v).outcome = .error p)
      (kind : f.kind = .internal) (hidden : f.recoverable = false) : Blames .invocation f

def Passes (stage : Stage) : Prop := ∀ f, ¬ Fails r ctx id body w stage f

/-- The entry fails at this stage and at none before it. -/
def FailsFirst (stage : Stage) (f : Failure) : Prop :=
  Fails r ctx id body w stage f ∧ ∀ earlier ∈ stage.before, Passes r ctx id body w earlier

/-- What an entry that passes every stage is answered. -/
inductive Answers : Payload ω → Prop
  | listing {h v} (loads : Loads r ctx body w h v) (word : HasText body "function" "HELP") :
      Answers (.json h.listing)
  | description {name h v} (loads : Loads r ctx body w h v)
      (word : HasText body "function" ("HELP:" ++ name)) : Answers (.json (h.description name))
  | returned {op bound v payload} (calls : Calls r ctx body w op bound v)
      (came : (Workshop.inModules (op.invoke bound) v).outcome = .ok (.ok payload)) :
      Answers payload

end Spec

variable {r : Registry ω} {ctx : LoadContext} {id : String} {body : Json} {w : Workshop ω}

/-! What a stage looks at is there once at most, so a stage fails in one way. -/

section Unique

theorem HasText.unique {name text other : String} (found : HasText body name text)
    (also : HasText body name other) : text = other := by
  obtain ⟨fields, shape, here⟩ := found
  obtain ⟨others, same, again⟩ := also
  cases shape.symm.trans same
  cases here.symm.trans again
  rfl

theorem Supplies.unique {supplied other : Members} (supplies : Supplies body supplied)
    (also : Supplies body other) : supplied = other := by
  obtain ⟨fields, shape, given⟩ := supplies
  obtain ⟨others, same, again⟩ := also
  cases shape.symm.trans same
  rcases given with ⟨absent, rfl⟩ | found
  · rcases again with ⟨-, rfl⟩ | found
    · rfl
    · simp [found, Json.present?] at absent
  · rcases again with ⟨absent, -⟩ | again
    · simp [found, Json.present?] at absent
    · cases found.symm.trans again
      rfl

theorem Loads.unique {h k : Handler ω} {v u : Workshop ω} (loads : Loads r ctx body w h v)
    (also : Loads r ctx body w k u) : h = k ∧ v = u := by
  obtain ⟨ns, names, came, rfl⟩ := loads
  obtain ⟨other, same, again, rfl⟩ := also
  cases names.unique same
  cases came.symm.trans again
  exact ⟨rfl, rfl⟩

theorem Asks.unique {name other : String} {h k : Handler ω} {v u : Workshop ω}
    (asks : Asks r ctx body w name h v) (also : Asks r ctx body w other k u) :
    name = other ∧ h = k ∧ v = u :=
  ⟨asks.function.unique also.function, asks.loads.unique also.loads⟩

theorem Calls.unique {op other : Operation ω} {bound also : Arguments} {v u : Workshop ω}
    (calls : Calls r ctx body w op bound v) (again : Calls r ctx body w other also u) :
    op = other ∧ bound = also ∧ v = u := by
  obtain ⟨⟨name, h, asks, found⟩, supplied, supplies, binds⟩ := calls
  obtain ⟨⟨_, _, same, foundToo⟩, _, supplied, bindsToo⟩ := again
  obtain ⟨rfl, rfl, rfl⟩ := asks.unique same
  cases found.symm.trans foundToo
  cases supplies.unique supplied
  cases binds.symm.trans bindsToo
  exact ⟨rfl, rfl, rfl⟩

/-- An entry loads one namespace at most, so its loading comes to one end. -/
theorem HasText.loading_eq {ns other : String} (names : HasText body "ns" ns)
    (same : HasText body "ns" other) :
    (Workshop.resolve r ctx ns w).outcome = (Workshop.resolve r ctx other w).outcome := by
  rw [names.unique same]

/-- It calls one operation at most, so its call comes to one end too. -/
theorem Calls.outcome_eq {op other : Operation ω} {bound also : Arguments} {v u : Workshop ω}
    (calls : Calls r ctx body w op bound v) (same : Calls r ctx body w other also u) :
    (Workshop.inModules (op.invoke bound) v).outcome =
      (Workshop.inModules (other.invoke also) u).outcome := by
  obtain ⟨rfl, rfl, rfl⟩ := calls.unique same
  rfl

theorem Fails.unique {stage : Stage} {f g : Failure} (fails : Fails r ctx id body w stage f)
    (also : Fails r ctx id body w stage g) : f = g := by
  -- the stages that run code of modules have two constructors each, for a failure and for a panic;
  -- it is the same code on both sides, so it comes to the same
  cases fails with
  | id | object | namespaceName | function | arguments | lookup =>
      cases also
      rfl
  | loading names refused =>
      cases also with
      | loading same again =>
          cases refused.symm.trans ((names.loading_eq same).trans again)
          rfl
      | loadingPanics same again => cases refused.symm.trans ((names.loading_eq same).trans again)
  | loadingPanics names panicked =>
      cases also with
      | loading same again => cases panicked.symm.trans ((names.loading_eq same).trans again)
      | loadingPanics same again =>
          cases panicked.symm.trans ((names.loading_eq same).trans again)
          rfl
  | binding asks found supplies missing =>
      cases also with
      | binding same foundToo supplied again =>
          obtain ⟨rfl, rfl, rfl⟩ := asks.unique same
          cases found.symm.trans foundToo
          cases supplies.unique supplied
          cases missing.symm.trans again
          rfl
  | invocation calls raises =>
      cases also with
      | invocation same again =>
          cases raises.symm.trans ((calls.outcome_eq same).trans again)
          rfl
      | invocationPanics same again => cases raises.symm.trans ((calls.outcome_eq same).trans again)
  | invocationPanics calls panicked =>
      cases also with
      | invocation same again => cases panicked.symm.trans ((calls.outcome_eq same).trans again)
      | invocationPanics same again =>
          cases panicked.symm.trans ((calls.outcome_eq same).trans again)
          rfl

theorem FailsFirst.unique {one other : Stage} {f g : Failure}
    (first : FailsFirst r ctx id body w one f) (also : FailsFirst r ctx id body w other g) :
    one = other ∧ f = g := by
  -- of two stages the one in front would have to pass for the other to be first
  rcases Stage.eq_or_before one other with rfl | before | behind
  · exact ⟨rfl, first.1.unique also.1⟩
  · exact absurd first.1 (also.2 one before f)
  · exact absurd also.1 (first.2 other behind g)

/-- A word that asks for help asks for no operation. -/
theorem Asks.invocationOf {name word : String} {h : Handler ω} {v : Workshop ω}
    (asks : Asks r ctx body w name h v) (function : HasText body "function" word) :
    Call.invocationOf word = .call word := by
  cases asks.function.unique function
  rcases Call.invocationOf_cases name with help | ⟨about, help⟩ | ⟨-, -, called⟩
  · exact absurd help asks.word
  · exact absurd help (asks.description about)
  · exact called

theorem Calls.invocationOf {op : Operation ω} {bound : Arguments} {v : Workshop ω} {word : String}
    (calls : Calls r ctx body w op bound v) (function : HasText body "function" word) :
    Call.invocationOf word = .call word := by
  obtain ⟨⟨name, h, asks, -⟩, -⟩ := calls
  exact asks.invocationOf function

theorem Answers.unique {payload other : Payload ω} (answers : Answers r ctx body w payload)
    (also : Answers r ctx body w other) : payload = other := by
  -- the word that the entry has for its function tells the three answers apart
  cases answers with
  | listing loads word =>
      cases also with
      | listing same _ => rw [(loads.unique same).1]
      | @description name _ _ _ asked =>
          have differs := Call.invocationOf_describe name
          rw [← word.unique asked] at differs
          cases differs
      | returned calls _ => cases calls.invocationOf word
  | @description name _ _ loads word =>
      have own := Call.invocationOf_describe name
      cases also with
      | listing _ asked =>
          rw [word.unique asked] at own
          cases own
      | @description about _ _ same again =>
          rw [word.unique again, Call.invocationOf_describe] at own
          cases own
          rw [(loads.unique same).1]
      | returned calls _ => cases own.symm.trans (calls.invocationOf word)
  | returned calls came =>
      cases also with
      | listing _ word => cases calls.invocationOf word
      | @description about _ _ _ word =>
          cases (Call.invocationOf_describe about).symm.trans (calls.invocationOf word)
      | returned same again =>
          cases came.symm.trans ((calls.outcome_eq same).trans again)
          rfl

end Unique

/-! The checks of the entry itself. -/

section Checks

/-- An entry that passes all checks, and the call that it makes. -/
structure Valid (id : String) (body : Json) (call : Call) : Prop where
  id : Call.isId id = true
  names : HasText body "ns" call.namespaceName
  isNamespace : Call.isNamespace call.namespaceName = true
  function : HasText body "function" call.function
  isFunction : Call.isFunction call.function = true
  supplies : Supplies body call.arguments

theorem textMember?_eq_some_iff (isForm : String → Bool) (name text : String) (fields : Members) :
    Call.textMember? isForm name fields = some text ↔
      HasText (.object fields) name text ∧ isForm text = true := by
  rw [Call.textMember?]
  constructor
  · intro found
    split at found
    · next s member =>
        by_cases form : isForm s = true
        · rw [if_pos form] at found
          cases found
          exact ⟨⟨fields, rfl, member⟩, form⟩
        · rw [if_neg form] at found
          cases found
    · cases found
  · rintro ⟨⟨others, same, member⟩, form⟩
    cases same
    rw [member]
    exact if_pos form

theorem not_isForm_of_none {isForm : String → Bool} {name : String} {fields : Members}
    (absent : Call.textMember? isForm name fields = none) (text : String)
    (named : HasText (.object fields) name text) : isForm text = false := by
  by_contra form
  rw [(textMember?_eq_some_iff ..).mpr ⟨named, eq_true_of_ne_false form⟩] at absent
  cases absent

theorem argumentsOf?_eq_some_iff (fields supplied : Members) :
    Call.argumentsOf? fields = some supplied ↔ Supplies (.object fields) supplied := by
  rw [Call.argumentsOf?]
  constructor
  · intro found
    split at found
    · next absent =>
        cases found
        exact ⟨fields, rfl, .inl ⟨by rw [absent]; rfl, rfl⟩⟩
    · next empty =>
        cases found
        exact ⟨fields, rfl, .inl ⟨by rw [empty]; rfl, rfl⟩⟩
    · next given =>
        cases found
        exact ⟨fields, rfl, .inr given⟩
    · cases found
  · rintro ⟨others, same, ⟨absent, rfl⟩ | given⟩
    · cases same
      cases found : Assoc.get? "arguments" fields with
      | none => rfl
      | some value =>
          cases value with
          | null => rfl
          | bool | number | string | array | object => simp [found, Json.present?] at absent
    · cases same
      rw [given]

theorem Valid.ofEntry {call : Call} (valid : Valid id body call) : Call.ofEntry id body = .ok call := by
  obtain ⟨fields, rfl, -⟩ := valid.names
  have ns := (textMember?_eq_some_iff ..).mpr ⟨valid.names, valid.isNamespace⟩
  have function := (textMember?_eq_some_iff ..).mpr ⟨valid.function, valid.isFunction⟩
  have supplied := (argumentsOf?_eq_some_iff ..).mpr valid.supplies
  rw [Call.ofEntry, valid.id]
  show Call.ofMembers fields = _
  simp only [Call.ofMembers, ns, function, supplied]

variable (r ctx w)

theorem passes_id (body : Json) (good : Call.isId id = true) : Passes r ctx id body w .id := by
  intro f fails
  cases fails with
  | id bad => exact absurd good (ne_true_of_eq_false bad)

theorem passes_object (id : String) (fields : Members) :
    Passes r ctx id (.object fields) w .object := by
  intro f fails
  cases fails with
  | object bare => exact bare fields rfl

theorem passes_namespaceName (id : String) {ns : String} (names : HasText body "ns" ns)
    (good : Call.isNamespace ns = true) : Passes r ctx id body w .namespaceName := by
  intro f fails
  cases fails with
  | namespaceName bad => exact absurd good (ne_true_of_eq_false (bad ns names))

theorem passes_function (id : String) {name : String} (function : HasText body "function" name)
    (good : Call.isFunction name = true) : Passes r ctx id body w .function := by
  intro f fails
  cases fails with
  | function bad => exact absurd good (ne_true_of_eq_false (bad name function))

theorem passes_arguments (id : String) {supplied : Members} (supplies : Supplies body supplied) :
    Passes r ctx id body w .arguments := by
  intro f fails
  cases fails with
  | arguments bad => exact bad supplied supplies

theorem Valid.passes {call : Call} (valid : Valid id body call) :
    ∀ stage ∈ Stage.loading.before, Passes r ctx id body w stage := by
  obtain ⟨fields, rfl, -⟩ := valid.names
  intro stage earlier
  cases stage with
  | id => exact passes_id r ctx w _ valid.id
  | object => exact passes_object r ctx w id fields
  | namespaceName => exact passes_namespaceName r ctx w id valid.names valid.isNamespace
  | function => exact passes_function r ctx w id valid.function valid.isFunction
  | arguments => exact passes_arguments r ctx w id valid.supplies
  | loading | lookup | binding | invocation => exact absurd earlier (by decide)

theorem ofMembers_cases (fields : Members) (good : Call.isId id = true) :
    (∃ call, Valid id (.object fields) call) ∨
      ∃ f, Call.ofMembers fields = .error f ∧
        ∃ stage ∈ Stage.loading.before, FailsFirst r ctx id (.object fields) w stage f := by
  have idPasses := passes_id r ctx w (.object fields) good
  have objectPasses := passes_object r ctx w id fields
  -- the members are looked up in the order of the stages, so what has been found has passed
  rw [Call.ofMembers]
  cases ns : Call.textMember? Call.isNamespace "ns" fields with
  | none =>
      right
      refine ⟨_, rfl, .namespaceName, by decide, .namespaceName (not_isForm_of_none ns), ?_⟩
      simpa [Stage.before, Stage.inOrder] using ⟨idPasses, objectPasses⟩
  | some namespaceName =>
      obtain ⟨names, isNamespace⟩ := (textMember?_eq_some_iff ..).mp ns
      have nsPasses := passes_namespaceName r ctx w id names isNamespace
      cases function : Call.textMember? Call.isFunction "function" fields with
      | none =>
          right
          refine ⟨_, rfl, .function, by decide, .function (not_isForm_of_none function), ?_⟩
          simpa [Stage.before, Stage.inOrder] using ⟨idPasses, objectPasses, nsPasses⟩
      | some name =>
          obtain ⟨asked, isFunction⟩ := (textMember?_eq_some_iff ..).mp function
          have functionPasses := passes_function r ctx w id asked isFunction
          cases given : Call.argumentsOf? fields with
          | none =>
              right
              refine ⟨_, rfl, .arguments, by decide, .arguments ?_, ?_⟩
              · intro supplied supplies
                rw [(argumentsOf?_eq_some_iff ..).mpr supplies] at given
                cases given
              · simpa [Stage.before, Stage.inOrder] using
                  ⟨idPasses, objectPasses, nsPasses, functionPasses⟩
          | some supplied =>
              left
              exact ⟨⟨namespaceName, name, supplied⟩, good, names, isNamespace, asked, isFunction,
                (argumentsOf?_eq_some_iff ..).mp given⟩

/-- The checks come to the call that the entry makes, or to what is wrong at the first of them. -/
theorem ofEntry_cases (id : String) (body : Json) :
    (∃ call, Valid id body call) ∨
      ∃ f, Call.ofEntry id body = .error f ∧
        ∃ stage ∈ Stage.loading.before, FailsFirst r ctx id body w stage f := by
  by_cases good : Call.isId id = true
  · have idPasses := passes_id r ctx w body good
    cases body with
    | null | bool | number | string | array =>
        right
        refine ⟨.shown "Invalid namespace" [], ?_, .object, by decide, .object (by simp), ?_⟩
        · simp [Call.ofEntry, good]
        · exact List.forall_mem_singleton.mpr idPasses
    | object fields =>
        rw [Call.ofEntry, good]
        exact ofMembers_cases r ctx w fields good
  · right
    refine ⟨.shown ("Invalid id " ++ id) [], ?_, .id, by decide, .id (eq_false_of_ne_true good), ?_⟩
    · simp [Call.ofEntry, good]
    · exact List.forall_mem_nil _

end Checks

end Entry
end Multicall
