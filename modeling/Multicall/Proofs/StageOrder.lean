import Multicall.Proofs.Stages
/-!
The turn of an entry. It is over where the first stage does not pass: with nothing done, if that is one
of its checks, and otherwise with its namespace loaded and nothing else. Only an entry that passes every
stage up to the last one has its operation called. So the stages, told by themselves, decide what an
entry comes to, and what is asked of the modules on the way.
-/
namespace Multicall

variable {ω : Type}

namespace Course

variable {σ α β : Type} {c : Course σ α} {outcome : Except Panic α} {s : σ}

/-- What follows a course depends on how it ends. -/
theorem ComesTo.attempt_andThen_congr (came : c.ComesTo outcome s)
    {f g : Except Panic α → σ → Course σ β} (same : f outcome s = g outcome s) :
    c.attempt.andThen f = c.attempt.andThen g := by
  obtain ⟨rfl, rfl⟩ := came
  induction c with
  | ended _ _ => exact same
  | send command _ ih => exact congrArg (Course.send command) (ih same)
  | record e _ ih => exact congrArg (Course.record e) (ih same)
  | suspend s _ ih => exact congrArg (Course.suspend s) (ih same)

theorem attempt_andThen_attempt (c : Course σ α) (f : α → σ → Course σ β) :
    (c.andThen f).attempt = c.attempt.andThen fun
      | .ok a => fun s => (f a s).attempt
      | .error p => fun s => .ended (.ok (.error p)) s := by
  induction c with
  | ended outcome s => cases outcome <;> rfl
  | send command _ ih => exact congrArg (Course.send command) ih
  | record e _ ih => exact congrArg (Course.record e) ih
  | suspend s _ ih => exact congrArg (Course.suspend s) ih

end Course

/-- Binding fails for the first parameter that has to be supplied and is not, if there is one. -/
theorem Operation.bindAll_cases (operation : String) (supplied : Members)
    (parameters : List Declaration) (bound : Arguments) :
    (parameters.find? (Entry.lacks supplied) = none ∧
      ∃ all, bindAll operation supplied parameters bound = .ok all) ∨
    ∃ p, parameters.find? (Entry.lacks supplied) = some p ∧
      bindAll operation supplied parameters bound = .error (missing p.name operation) := by
  induction parameters generalizing bound with
  | nil => exact .inl ⟨rfl, bound, rfl⟩
  | cons p rest ih =>
      rw [bindAll]
      cases given : Json.present? (Assoc.get? p.name supplied) with
      | some value =>
          have there : ¬ Entry.lacks supplied p = true := by simp [Entry.lacks, given]
          rw [List.find?_cons_of_neg there]
          exact ih (bound.bind p.name value)
      | none =>
          by_cases optional : p.optional = true
          · have spared : ¬ Entry.lacks supplied p = true := by simp [Entry.lacks, optional]
            rw [List.find?_cons_of_neg spared]
            dsimp only
            rw [if_pos optional]
            exact ih bound
          · right
            exact ⟨p, List.find?_cons_of_pos (by simp [Entry.lacks, given, optional]),
              if_neg optional⟩

namespace Entry

/-- Loads a namespace and does nothing else. -/
def loadOnly (r : Registry ω) (ctx : LoadContext) (ns : String) (result : EntryResult ω) :
    BatchCode ω (EntryResult ω) := do
  let _ ← (Workshop.resolve r ctx ns).attempt
  return result

/-- What a checked call does with what the loading of its namespace has come to. -/
def follow (call : Call) : Except Panic (Except LoadError (Handler ω)) → BatchCode ω (EntryResult ω)
  | .ok built => contained (answerWith call built)
  | .error p => return .error (.ofPanic p)

/-- What the call of an operation has come to, as a result. -/
def resultOf : Except Panic (Except Raised (Payload ω)) → EntryResult ω
  | .ok (.ok payload) => .ok payload
  | .ok (.error raised) => .error (.ofRaised raised)
  | .error p => .error (.ofPanic p)

variable {r : Registry ω} {ctx : LoadContext} {id : String} {body : Json} {w v : Workshop ω}
  {call : Call}

theorem process_of_error {f : Failure} (refused : Call.ofEntry id body = .error f) :
    process r ctx id body w = .ended (.ok (.error f)) w := by
  rw [process, attempt, refused]
  rfl

theorem Valid.course (valid : Valid id body call) :
    process r ctx id body w =
      (Workshop.resolve r ctx call.namespaceName w).attempt.andThen (follow call) := by
  rw [process, attempt, valid.ofEntry]
  -- a panic while loading skips the answer and is contained behind it
  refine (congrArg _ (Course.attempt_andThen_attempt _ (answerWith call))).trans ?_
  refine (Course.andThen_assoc _ _ _).trans (congrArg (Course.andThen · _) ?_)
  funext loaded v
  cases loaded with
  | ok built => rfl
  | error p => rfl

/-- Where what is left to do does nothing, the turn has only loaded its namespace. -/
theorem Valid.loadsOnly {loaded : Except Panic (Except LoadError (Handler ω))}
    {result : EntryResult ω} (valid : Valid id body call)
    (came : (Workshop.resolve r ctx call.namespaceName w).ComesTo loaded v)
    (rest : follow call loaded v = .ended (.ok result) v) :
    process r ctx id body w = loadOnly r ctx call.namespaceName result w :=
  valid.course.trans (came.attempt_andThen_congr rest)

theorem follow_list {h : Handler ω} (list : call.function = "HELP") :
    follow call (.ok (.ok h)) v = .ended (.ok (.ok (.json h.listing))) v := by
  show contained (answerBy h call) v = _
  rw [answerBy, Call.invocation, list, Call.invocationOf_help]
  rfl

theorem follow_describe {h : Handler ω} {name : String} (describe : call.function = "HELP:" ++ name) :
    follow call (.ok (.ok h)) v = .ended (.ok (.ok (.json (h.description name)))) v := by
  show contained (answerBy h call) v = _
  rw [answerBy, Call.invocation, describe, Call.invocationOf_describe]
  rfl

/-- Only the call of an operation looks at the arguments of an entry. -/
theorem follow_of_help {other : Call} (help : call.SeeksHelp) (same : other.function = call.function) :
    (follow other : _ → BatchCode ω (EntryResult ω)) = follow call := by
  funext loaded v
  match loaded with
  | .error p => rfl
  | .ok (.error e) => rfl
  | .ok (.ok h) =>
      rcases help with list | ⟨name, describe⟩
      · rw [follow_list list, follow_list (same.trans list)]
      · rw [follow_describe describe, follow_describe (same.trans describe)]

/-! Which stages pass when others are behind the entry. -/

section Passing

variable {h : Handler ω} {op : Operation ω} {bound : Arguments} {name word : String}

theorem Loads.passes (loads : Loads r ctx body w h v) : Passes r ctx id body w .loading := by
  obtain ⟨ns, names, came, -⟩ := loads
  intro f fails
  cases fails with
  | loading same refused => cases came.symm.trans ((names.loading_eq same).trans refused)
  | loadingPanics same panicked => cases came.symm.trans ((names.loading_eq same).trans panicked)

theorem Asks.passes (asks : Asks r ctx body w name h v) (found : h.operation? name = some op) :
    Passes r ctx id body w .lookup := by
  intro f fails
  cases fails with
  | lookup same absent =>
      obtain ⟨rfl, rfl, rfl⟩ := asks.unique same
      cases found.symm.trans absent

theorem Calls.passes (calls : Calls r ctx body w op bound v) : Passes r ctx id body w .binding := by
  obtain ⟨⟨name, h, asks, found⟩, supplied, supplies, binds⟩ := calls
  intro f fails
  cases fails with
  | binding same foundToo given missing =>
      obtain ⟨rfl, rfl, rfl⟩ := asks.unique same
      cases found.symm.trans foundToo
      cases supplies.unique given
      rw [Operation.bindArguments] at binds
      rcases Operation.bindAll_cases op.name supplied op.parameters .empty with
        ⟨none, -⟩ | ⟨p, -, failed⟩
      · cases none.symm.trans missing
      · cases failed.symm.trans binds

/-- Nothing behind loading has anything to say of a word that asks for help. -/
theorem passes_of_help (function : HasText body "function" word)
    (help : Call.invocationOf word ≠ .call word) {stage : Stage}
    (late : stage ∈ [.lookup, .binding, .invocation]) : Passes r ctx id body w stage := by
  intro f fails
  cases fails with
  | lookup asks _ | binding asks _ _ _ => exact help (asks.invocationOf function)
  | invocation calls _ | invocationPanics calls _ => exact help (calls.invocationOf function)
  | id | object | namespaceName | function | arguments | loading | loadingPanics =>
      exact absurd late (by decide)

end Passing

theorem Calls.passes_middle {op : Operation ω} {bound : Arguments}
    (calls : Calls r ctx body w op bound v) {stage : Stage}
    (middle : stage ∈ [.loading, .lookup, .binding]) : Passes r ctx id body w stage := by
  obtain ⟨name, h, asks, found⟩ := calls.found
  cases stage with
  | loading => exact asks.loads.passes
  | lookup => exact asks.passes found
  | binding => exact calls.passes
  | id | object | namespaceName | function | arguments | invocation =>
      exact absurd middle (by decide)

/-- How the turn of an entry goes. Only the last way invokes an operation. -/
inductive Turn (r : Registry ω) (ctx : LoadContext) (id : String) (body : Json) (w : Workshop ω) :
    Prop
  | refused {stage f} (early : stage ∈ Stage.loading.before)
      (first : FailsFirst r ctx id body w stage f)
      (course : process r ctx id body w = .ended (.ok (.error f)) w)
  | stopped {call stage f} (valid : Valid id body call)
      (middle : stage ∈ [.loading, .lookup, .binding]) (first : FailsFirst r ctx id body w stage f)
      (course : process r ctx id body w = loadOnly r ctx call.namespaceName (.error f) w)
  | helped {call payload} (valid : Valid id body call) (help : call.SeeksHelp)
      (passes : ∀ stage, Passes r ctx id body w stage) (answers : Answers r ctx body w payload)
      (course : process r ctx id body w = loadOnly r ctx call.namespaceName (.ok payload) w)
  | called {op bound v} (passes : ∀ stage ∈ Stage.invocation.before, Passes r ctx id body w stage)
      (calls : Calls r ctx body w op bound v)
      (outcome : (process r ctx id body w).outcome =
        .ok (resultOf (Workshop.inModules (op.invoke bound) v).outcome))

/-- The call of an operation comes to a result, be it a panic's. -/
theorem contained_invoke {h : Handler ω} {name : String} {op : Operation ω} {supplied : Members}
    {bound : Arguments} (found : h.operation? name = some op)
    (binds : Operation.bindArguments op.name op.parameters supplied = .ok bound) :
    (contained (invoke h name supplied) v).outcome =
      .ok (resultOf (Workshop.inModules (op.invoke bound) v).outcome) := by
  have code : invoke h name supplied v = (Workshop.inModules (op.invoke bound) v).andThen
      fun returned => .ended (.ok (returned.mapError .ofRaised)) := by
    rw [invoke, found]
    dsimp only
    rw [binds]
    refine congrArg (Course.andThen · _) ?_
    funext came v
    cases came with
    | ok payload => rfl
    | error raised => rfl
  cases came : (Workshop.inModules (op.invoke bound) v).outcome with
  | error p => exact (contained_comes (code ▸ Course.ComesTo.panics ⟨came, rfl⟩ _)).1
  | ok returned =>
      cases returned with
      | ok payload =>
          exact (contained_comes (code ▸ Course.ComesTo.andThen ⟨came, rfl⟩ ⟨rfl, rfl⟩)).1
      | error raised =>
          exact (contained_comes (code ▸ Course.ComesTo.andThen ⟨came, rfl⟩ ⟨rfl, rfl⟩)).1

namespace Valid

variable {h : Handler ω}

theorem turn_of_call (valid : Valid id body call)
    (came : (Workshop.resolve r ctx call.namespaceName w).ComesTo (.ok (.ok h)) v)
    (asks : Asks r ctx body w call.function h v) : Turn r ctx id body w := by
  have asked : call.invocation = .call call.function := asks.invocationOf valid.function
  have rest : follow call (.ok (.ok h)) v = contained (invoke h call.function call.arguments) v := by
    show contained (answerBy h call) v = _
    rw [answerBy, asked]
  have loaded := Stage.forall_before_next .loading .lookup rfl (valid.passes r ctx w)
    asks.loads.passes
  cases found : h.operation? call.function with
  | none =>
      refine .stopped valid (by decide) ⟨.lookup asks found, loaded⟩ (valid.loadsOnly came ?_)
      rw [rest, invoke, found]
      rfl
  | some op =>
      have lookedUp := Stage.forall_before_next .lookup .binding rfl loaded (asks.passes found)
      rcases Operation.bindAll_cases op.name call.arguments op.parameters .empty with
        ⟨-, bound, binds⟩ | ⟨p, missing, failed⟩
      · have calls : Calls r ctx body w op bound v :=
          ⟨⟨_, h, asks, found⟩, _, valid.supplies, binds⟩
        refine .called (Stage.forall_before_next .binding .invocation rfl lookedUp calls.passes) calls ?_
        rw [valid.course, ← contained_invoke found binds, ← rest]
        exact (came.attempt.andThen ⟨rfl, rfl⟩).1
      · refine .stopped valid (by decide) ⟨.binding asks found valid.supplies missing, lookedUp⟩
          (valid.loadsOnly came ?_)
        rw [rest, invoke, found]
        dsimp only
        rw [Operation.bindArguments, failed]
        rfl

theorem passes_of_help (valid : Valid id body call) (loads : Loads r ctx body w h v)
    (help : call.invocation ≠ .call call.function) (stage : Stage) :
    Passes r ctx id body w stage := by
  cases stage with
  | id | object | namespaceName | function | arguments => exact valid.passes r ctx w _ (by decide)
  | loading => exact loads.passes
  | lookup | binding | invocation =>
      exact Entry.passes_of_help valid.function help (by decide)

theorem turn_of_loaded (valid : Valid id body call)
    (came : (Workshop.resolve r ctx call.namespaceName w).ComesTo (.ok (.ok h)) v) :
    Turn r ctx id body w := by
  have loads : Loads r ctx body w h v := ⟨_, valid.names, came⟩
  have function := valid.function
  rcases Call.invocationOf_cases call.function with list | ⟨name, describe⟩ | ⟨word, description, -⟩
  · have help : call.SeeksHelp := .inl list
    rw [list] at function
    exact .helped valid help (valid.passes_of_help loads help.invocation) (.listing loads function)
      (valid.loadsOnly came (follow_list list))
  · have help : call.SeeksHelp := .inr ⟨name, describe⟩
    rw [describe] at function
    exact .helped valid help (valid.passes_of_help loads help.invocation)
      (.description loads function) (valid.loadsOnly came (follow_describe describe))
  · exact valid.turn_of_call came ⟨loads, function, word, description⟩

theorem turn (valid : Valid id body call) : Turn r ctx id body w := by
  have checks := valid.passes r ctx w
  cases loaded : (Workshop.resolve r ctx call.namespaceName w).outcome with
  | error p =>
      exact .stopped valid (by decide) ⟨.loadingPanics valid.names loaded, checks⟩
        (valid.loadsOnly ⟨loaded, rfl⟩ rfl)
  | ok built =>
      cases built with
      | error e =>
          exact .stopped valid (by decide) ⟨.loading valid.names loaded, checks⟩
            (valid.loadsOnly ⟨loaded, rfl⟩ rfl)
      | ok h => exact valid.turn_of_loaded ⟨loaded, rfl⟩

end Valid

theorem turn (r : Registry ω) (ctx : LoadContext) (id : String) (body : Json) (w : Workshop ω) :
    Turn r ctx id body w := by
  rcases ofEntry_cases r ctx w id body with ⟨call, valid⟩ | ⟨f, refused, stage, early, first⟩
  · exact valid.turn
  · exact .refused early first (process_of_error refused)

/-- What the stages make of an entry. -/
inductive Decides (r : Registry ω) (ctx : LoadContext) (id : String) (body : Json) (w : Workshop ω) :
    EntryResult ω → Prop
  | failure {stage f} (first : FailsFirst r ctx id body w stage f) : Decides r ctx id body w (.error f)
  | success {payload} (passes : ∀ stage, Passes r ctx id body w stage)
      (answers : Answers r ctx body w payload) : Decides r ctx id body w (.ok payload)

theorem Decides.unique {result other : EntryResult ω} (decided : Decides r ctx id body w result)
    (also : Decides r ctx id body w other) : result = other := by
  cases decided with
  | failure first =>
      cases also with
      | failure again => rw [(first.unique again).2]
      | success passes _ => exact absurd first.1 (passes _ _)
  | success passes answers =>
      cases also with
      | failure first => exact absurd first.1 (passes _ _)
      | success _ again => rw [answers.unique again]

/-- An entry whose operation is called comes to what the call comes to. -/
theorem Calls.decides {op : Operation ω} {bound : Arguments} (calls : Calls r ctx body w op bound v)
    (passes : ∀ stage ∈ Stage.invocation.before, Passes r ctx id body w stage) :
    Decides r ctx id body w (resultOf (Workshop.inModules (op.invoke bound) v).outcome) := by
  cases came : (Workshop.inModules (op.invoke bound) v).outcome with
  | error p => exact .failure ⟨.invocationPanics calls came, passes⟩
  | ok returned =>
      cases returned with
      | error raised => exact .failure ⟨.invocation calls came, passes⟩
      | ok payload =>
          refine .success ?_ (.returned calls came)
          -- an operation that has returned has neither failed nor panicked
          intro stage
          rcases stage.before_last_or_eq with before | rfl
          · exact passes stage before
          · intro f fails
            cases fails with
            | invocation same raises => cases came.symm.trans ((calls.outcome_eq same).trans raises)
            | invocationPanics same panicked =>
                cases came.symm.trans ((calls.outcome_eq same).trans panicked)

theorem process_decided (r : Registry ω) (ctx : LoadContext) (id : String) (body : Json)
    (w : Workshop ω) :
    ∃ result, (process r ctx id body w).outcome = .ok result ∧ Decides r ctx id body w result := by
  have loadOnly_outcome (ns : String) (result : EntryResult ω) :
      (loadOnly r ctx ns result w).outcome = .ok result :=
    (Course.ComesTo.andThen (Course.ComesTo.attempt ⟨rfl, rfl⟩) ⟨rfl, rfl⟩).1
  cases turn r ctx id body w with
  | refused _ first course => exact ⟨_, by rw [course]; rfl, .failure first⟩
  | stopped _ _ first course => exact ⟨_, by rw [course, loadOnly_outcome], .failure first⟩
  | helped _ _ passes answers course =>
      exact ⟨_, by rw [course, loadOnly_outcome], .success passes answers⟩
  | called passes calls outcome => exact ⟨_, outcome, calls.decides passes⟩

theorem process_iff (result : EntryResult ω) :
    (process r ctx id body w).outcome = .ok result ↔ Decides r ctx id body w result := by
  obtain ⟨own, came, decided⟩ := process_decided r ctx id body w
  constructor
  · intro ended
    cases came.symm.trans ended
    exact decided
  · intro also
    rw [came, decided.unique also]

end Entry

/-! What is asked of the modules in the turn of an entry, told by a watched twin of its workshop. -/

def Request.operation? : Request → Option String
  | .invoke _ operation _ => some operation
  | .load _ | .close _ => none

/-- Of handlers that are alike one has an operation where the other has one that declares the same. -/
theorem Handler.AlikeUpTo.operation?_eq_some {υ : Type} {payloads : Payload ω → Payload υ → Prop}
    {debug : Bool} {worlds : ω → υ → Prop} {h : Handler ω} {k : Handler υ} {name : String}
    {op : Operation υ} (alike : h.AlikeUpTo payloads debug worlds k)
    (found : k.operation? name = some op) :
    ∃ own, h.operation? name = some own ∧ own.name = op.name ∧ own.parameters = op.parameters := by
  have operations := alike.operations.get? name
  rw [show Assoc.get? name k.operations = some op from found] at operations
  cases own : Assoc.get? name h.operations with
  | none =>
      rw [own] at operations
      cases operations
  | some first =>
      rw [own] at operations
      cases operations with
      | some same => exact ⟨first, own, same.name, same.parameters⟩

namespace Workshop

/-- A workshop with a list beside its world, where nothing has been asked yet. -/
def watched (w : Workshop ω) : Workshop (Watched ω) where
  modules := ⟨⟨w.modules.world, []⟩, w.modules.nextStream⟩
  cache := w.cache.map fun entry => (entry.1, entry.2.watched)
  order := w.order

theorem watched_alike (debug : Bool) (w : Workshop ω) : w.Alike debug Logged.Beside w.watched where
  modules := ⟨rfl, rfl⟩
  cache := List.forall₂_map_right_iff.mpr
    (List.forall₂_same.mpr fun entry _ => ⟨rfl, Watched.handler_alike entry.2⟩)
  order := rfl

theorem watched_hasAsked {β : Type} (view : Request → Option β) (w : Workshop ω) :
    w.watched.HasAsked view [] where
  called := rfl
  watched := List.forall_mem_map.mpr fun entry _ => ⟨entry.2, rfl⟩

end Workshop

namespace Entry

variable {r : Registry ω} {ctx : LoadContext} {id : String} {body : Json} {w v : Workshop ω}

/-- What the turn of an entry asks of the modules, in order. -/
def requests (r : Registry ω) (ctx : LoadContext) (id : String) (body : Json) (w : Workshop ω) :
    List Request :=
  (process r.watched ctx id body w.watched).finalState.modules.world.log

/-- Loading invokes no operation. -/
theorem loadOnly_asks {ns : String} {result : EntryResult (Watched ω)}
    (course : process r.watched ctx id body w.watched =
      loadOnly r.watched ctx ns result w.watched) :
    (requests r ctx id body w).filterMap Request.operation? = [] := by
  have asks := Workshop.resolve_asks (fun _ => rfl) r ctx ns
    (w.watched_hasAsked Request.operation?)
  have stays : (loadOnly r.watched ctx ns result w.watched).Stays
      (Workshop.HasAsked Request.operation? []) (fun _ => True) := by
    refine asks.attempt.andThen (fun _ asked => ?_) (fun _ _ _ asked => .ended trivial ?_)
    all_goals simpa [Request.operation?] using asked
  rw [requests, course]
  exact (stays.states _ (Course.finalState_mem_states _)).called

/-- The twin loads a handler only where the workshop itself loads one, and one that is alike. -/
theorem Loads.of_watched {k : Handler (Watched ω)} {u : Workshop (Watched ω)}
    (loads : Loads r.watched ctx body w.watched k u) :
    ∃ h v, Loads r ctx body w h v ∧ h.AlikeUpTo (Payload.Alike Logged.Beside) true Logged.Beside k := by
  obtain ⟨ns, names, came, -⟩ := loads
  have registries : r.Alike true Logged.Beside ctx r.watched := Watched.registry_alike r ctx
  have workshops := w.watched_alike true
  rw [Registry.alike_eq] at registries
  rw [Workshop.alike_eq] at workshops
  have ends := (Workshop.resolve_alike registries ns w w.watched workshops).ends.1
  rw [came] at ends
  cases loaded : (Workshop.resolve r ctx ns w).outcome with
  | error p =>
      rw [loaded] at ends
      cases ends
  | ok built =>
      rw [loaded] at ends
      cases ends with
      | ok same =>
          cases same with
          | @ok h _ alike => exact ⟨h, _, ⟨ns, names, loaded, rfl⟩, alike⟩

/-- Watching an entry brings no operation to it. -/
theorem Calls.of_watched {op : Operation (Watched ω)} {bound : Arguments}
    {u : Workshop (Watched ω)} (calls : Calls r.watched ctx body w.watched op bound u) :
    ∃ own v, Calls r ctx body w own bound v := by
  obtain ⟨⟨name, k, asks, found⟩, supplied, supplies, binds⟩ := calls
  obtain ⟨h, v, loads, alike⟩ := asks.loads.of_watched
  obtain ⟨own, here, named, parameters⟩ := alike.operation?_eq_some found
  rw [← named, ← parameters] at binds
  have same : Asks r ctx body w name h v := ⟨loads, asks.function, asks.word, asks.description⟩
  exact ⟨own, v, ⟨name, h, same, here⟩, supplied, supplies, binds⟩

theorem requests_of_uncalled (uncalled : ∀ op bound v, ¬ Calls r ctx body w op bound v) :
    ∀ asked ∈ requests r ctx id body w, asked.operation? = none := by
  rw [← List.filterMap_eq_nil_iff]
  cases turn r.watched ctx id body w.watched with
  | refused _ _ course => rw [requests, course]; rfl
  | stopped _ _ _ course | helped _ _ _ _ course => exact loadOnly_asks course
  | called _ calls _ =>
      obtain ⟨op, v, own⟩ := calls.of_watched
      exact absurd own (uncalled op _ v)

theorem FailsFirst.ofEntry {stage : Stage} {f : Failure} (first : FailsFirst r ctx id body w stage f)
    (early : stage ∈ Stage.loading.before) : Call.ofEntry id body = .error f := by
  rcases ofEntry_cases r ctx w id body with ⟨call, valid⟩ | ⟨g, refused, other, -, again⟩
  · exact absurd first.1 (valid.passes r ctx w stage early f)
  · rw [refused, (first.unique again).2]

theorem FailsFirst.course {stage : Stage} {f : Failure} (first : FailsFirst r ctx id body w stage f)
    (middle : stage ∈ [.loading, .lookup, .binding]) :
    ∃ ns, HasText body "ns" ns ∧ process r ctx id body w = loadOnly r ctx ns (.error f) w := by
  cases turn r ctx id body w with
  | refused early again _ =>
      obtain ⟨rfl, -⟩ := first.unique again
      exact absurd middle (Stage.not_middle_of_early early)
  | stopped valid _ again course =>
      obtain ⟨-, rfl⟩ := first.unique again
      exact ⟨_, valid.names, course⟩
  | helped _ _ passes _ _ => exact absurd first.1 (passes stage f)
  | called _ calls _ => exact absurd first.1 (calls.passes_middle middle f)

/-- A check of an entry is passed or not by its id and its text alone, so a refused entry asks
nothing. -/
theorem FailsFirst.requests {stage : Stage} {f : Failure}
    (first : FailsFirst r ctx id body w stage f) (early : stage ∈ Stage.loading.before) :
    requests r ctx id body w = [] := by
  rw [Entry.requests, process_of_error (first.ofEntry early)]
  rfl

theorem Fails.kind {stage : Stage} {f : Failure} (fails : Fails r ctx id body w stage f) :
    Blames r ctx body w stage f := by
  cases fails with
  | id | object | namespaceName | function | arguments | loading | lookup | binding =>
      exact .entry (by decide) rfl rfl
  | loadingPanics names panicked => exact .loader names panicked rfl rfl
  | @invocation _ _ _ raised calls raises =>
      cases raised with
      | failure f contexts => exact .operation calls raises
      | other root contexts => exact .unknown calls raises rfl rfl
  | invocationPanics calls panicked => exact .panicking calls panicked rfl rfl

/-- Loading is all that help takes, and no entry that asks for the same help gets another answer. -/
theorem Valid.helped {call : Call} (valid : Valid id body call) (help : call.SeeksHelp) :
    (∀ h v, Loads r ctx body w h v →
      (call.function = "HELP" →
        process r ctx id body w = loadOnly r ctx call.namespaceName (.ok (.json h.listing)) w) ∧
      ∀ name, call.function = "HELP:" ++ name →
        process r ctx id body w =
          loadOnly r ctx call.namespaceName (.ok (.json (h.description name))) w) ∧
    ∀ otherId otherBody other, Valid otherId otherBody other →
      other.namespaceName = call.namespaceName → other.function = call.function →
      process r ctx otherId otherBody w = process r ctx id body w := by
  constructor
  · rintro h v ⟨ns, names, came⟩
    cases names.unique valid.names
    constructor
    · intro list
      exact valid.loadsOnly came (follow_list list)
    · intro name describe
      exact valid.loadsOnly came (follow_describe describe)
  · intro otherId otherBody other also ns function
    rw [valid.course, also.course, ns, follow_of_help help function]

/-- For every registry, surroundings, id, entry and workshop. The entry comes to a result, and to the one
that the stages make of it: the failure of the first stage that does not pass, or the answer where all
pass. Such a failure is the client's and recoverable, unless code of a module has panicked or has failed
with something of its own. Where a check fails, nothing happens and nothing is asked of the modules;
where loading, lookup or binding fails, the namespace is loaded and no operation is invoked. A valid
entry that asks for help has no operation invoked either: once its namespace is loaded it is told what
the handler tells of itself, whatever its id and its arguments. -/
theorem first_failing_stage_decides (r : Registry ω) (ctx : LoadContext) (id : String) (body : Json)
    (w : Workshop ω) :
    (∃ result, (process r ctx id body w).outcome = .ok result) ∧
    (∀ result, (process r ctx id body w).outcome = .ok result ↔ Decides r ctx id body w result) ∧
    (∀ stage f, Fails r ctx id body w stage f → Blames r ctx body w stage f) ∧
    (∀ stage f, FailsFirst r ctx id body w stage f → stage ∈ Stage.loading.before →
      process r ctx id body w = .ended (.ok (.error f)) w ∧ requests r ctx id body w = []) ∧
    (∀ stage f, FailsFirst r ctx id body w stage f → stage ∈ [.loading, .lookup, .binding] →
      (∃ ns, HasText body "ns" ns ∧ process r ctx id body w = loadOnly r ctx ns (.error f) w) ∧
      ∀ asked ∈ requests r ctx id body w, asked.operation? = none) ∧
    ∀ call, Valid id body call → call.SeeksHelp →
      (∀ asked ∈ requests r ctx id body w, asked.operation? = none) ∧
      (∀ h v, Loads r ctx body w h v →
        (call.function = "HELP" →
          process r ctx id body w = loadOnly r ctx call.namespaceName (.ok (.json h.listing)) w) ∧
        ∀ name, call.function = "HELP:" ++ name →
          process r ctx id body w =
            loadOnly r ctx call.namespaceName (.ok (.json (h.description name))) w) ∧
      ∀ otherId otherBody other, Valid otherId otherBody other →
        other.namespaceName = call.namespaceName → other.function = call.function →
        process r ctx otherId otherBody w = process r ctx id body w := by
  refine ⟨?_, fun _ => process_iff _, fun _ _ => Fails.kind, ?_, ?_, ?_⟩
  · obtain ⟨result, came, -⟩ := process_decided r ctx id body w
    exact ⟨result, came⟩
  · intro stage f first early
    exact ⟨process_of_error (first.ofEntry early), first.requests early⟩
  · intro stage f first middle
    constructor
    · exact first.course middle
    · exact requests_of_uncalled fun op bound v calls => calls.passes_middle middle f first.1
  · intro call valid help
    refine ⟨?_, valid.helped help⟩
    exact requests_of_uncalled fun op bound v calls =>
      help.invocation (calls.invocationOf valid.function)

/-- Of a wrong function and wrong arguments the function decides, whatever the registry. -/
example (r : Registry ω) (ctx : LoadContext) (w : Workshop ω) :
    process r ctx "a" (.object [("ns", .string "late"), ("function", .string "?"),
      ("arguments", .array [])]) w = .ended (.ok (.error (.shown "Invalid operation" []))) w := by
  rfl

end Entry
end Multicall
