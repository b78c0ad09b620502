import Multicall.Proofs.FactoryCalls
/-!
Handlers that are kept. The first entry whose load of a namespace yields a handler brings it for all
entries behind it that name the namespace; each one before it has tried for itself and has failed
alone. Which handler that is, and which entries have tried, can be told from the entries and what
loading yields in their turns, with no look at what is kept.
-/
namespace Multicall

variable {ω α β : Type}

namespace Course

variable {σ τ : Type} {c : Course σ α}

/-- How a course ends, and in which state. -/
def ComesTo (c : Course σ α) (outcome : Except Panic α) (s : σ) : Prop :=
  c.outcome = outcome ∧ c.finalState = s

theorem ComesTo.andThen {f : α → σ → Course σ β} {a : α} {s t : σ} {outcome : Except Panic β}
    (first : c.ComesTo (.ok a) s) (second : (f a s).ComesTo outcome t) :
    (c.andThen f).ComesTo outcome t := by
  obtain ⟨ended, rfl⟩ := first
  induction c with
  | ended result s =>
    obtain rfl : result = .ok a := ended
    exact second
  | send _ next ih => exact ih ended second
  | record _ next ih => exact ih ended second
  | suspend _ next ih => exact ih ended second

theorem ComesTo.panics {p : Panic} {s : σ} (first : c.ComesTo (.error p) s)
    (f : α → σ → Course σ β) : (c.andThen f).ComesTo (.error p) s := by
  obtain ⟨ended, rfl⟩ := first
  induction c with
  | ended result s =>
    obtain rfl : result = .error p := ended
    exact ⟨rfl, rfl⟩
  | send _ next ih => exact ih ended
  | record _ next ih => exact ih ended
  | suspend _ next ih => exact ih ended

theorem ComesTo.attempt {outcome : Except Panic α} {s : σ} (first : c.ComesTo outcome s) :
    c.attempt.ComesTo (.ok outcome) s := by
  obtain ⟨rfl, rfl⟩ := first
  induction c with
  | ended _ _ => exact ⟨rfl, rfl⟩
  | send _ next ih => exact ih
  | record _ next ih => exact ih
  | suspend _ next ih => exact ih

theorem ComesTo.mapState {outcome : Except Panic α} {s : σ} (first : c.ComesTo outcome s)
    (f : σ → τ) : (c.mapState f).ComesTo outcome (f s) := by
  obtain ⟨rfl, rfl⟩ := first
  induction c with
  | ended _ _ => exact ⟨rfl, rfl⟩
  | send _ next ih => exact ih
  | record _ next ih => exact ih
  | suspend _ next ih => exact ih

end Course

namespace Entry

/-- Answers a call by a handler. -/
def answerBy (h : Handler ω) (call : Call) : BatchCode ω (EntryResult ω) :=
  match call.invocation with
  | .list => return .ok (.json h.listing)
  | .describe name => return .ok (.json (h.description name))
  | .call name => invoke h name call.arguments

/-- Answers a call by what its namespace has been resolved to. -/
def answerWith (call : Call) (resolved : Except LoadError (Handler ω)) : BatchCode ω (EntryResult ω) :=
  match resolved with
  | .error e => return .error (.ofLoad e)
  | .ok h => answerBy h call

/-- A panic in the code of an entry is its result. -/
def contained (code : BatchCode ω (EntryResult ω)) : BatchCode ω (EntryResult ω) := do
  match ← code.attempt with
  | .ok result => return result
  | .error p => return .error (.ofPanic p)

def settled : Except Panic (EntryResult ω) → EntryResult ω
  | .ok result => result
  | .error p => .error (.ofPanic p)

theorem contained_comes {code : BatchCode ω (EntryResult ω)} {w v : Workshop ω}
    {outcome : Except Panic (EntryResult ω)} (came : (code w).ComesTo outcome v) :
    (contained code w).ComesTo (.ok (settled outcome)) v := by
  refine came.attempt.andThen ?_
  cases outcome with
  | ok result => exact ⟨rfl, rfl⟩
  | error p => exact ⟨rfl, rfl⟩

/-- An answer keeps no handler and gives none up. -/
theorem answerBy_stays (h : Handler ω) (call : Call) (w : Workshop ω) :
    (contained (answerBy h call) w).Stays (fun v => v.cache = w.cache) (fun _ => True) := by
  have inModules {α : Type} (code : ModuleCode ω α) :
      (Workshop.inModules code w).Stays (fun v => v.cache = w.cache) (fun _ => True) :=
    (Course.stays_anywhere _).mapState fun _ _ => rfl
  have invoked (name : String) (supplied : Members) :
      (invoke h name supplied w).Stays (fun v => v.cache = w.cache) (fun _ => True) := by
    rw [invoke]
    cases h.operation? name with
    | none => exact .ended trivial rfl
    | some op =>
      dsimp only
      cases Operation.bindArguments op.name op.parameters supplied with
      | error f => exact .ended trivial rfl
      | ok arguments =>
        refine (inModules (op.invoke arguments)).andThen (fun _ same => same) ?_
        rintro (payload | raised) v - same
        · exact .ended trivial same
        · exact .ended trivial same
  have answered : (answerBy h call w).Stays (fun v => v.cache = w.cache) (fun _ => True) := by
    rw [answerBy]
    cases call.invocation with
    | list => exact .ended trivial rfl
    | describe name => exact .ended trivial rfl
    | call name => exact invoked name _
  refine answered.attempt.andThen (fun _ same => same) ?_
  rintro (p | result) v _ same
  · exact .ended trivial same
  · exact .ended trivial same

theorem answerBy_cache (h : Handler ω) (call : Call) (w : Workshop ω) :
    (contained (answerBy h call) w).finalState.cache = w.cache :=
  (answerBy_stays h call w).states _ (Course.finalState_mem_states _)

end Entry

/-- The code that loads a namespace for an entry. -/
def Setting.load (setting : Setting ω) (name : String) :
    ModuleCode ω (Except LoadError (Handler ω)) :=
  setting.registry.load ⟨setting.settings, setting.app, ⟨true⟩⟩ name

/-- A namespace is loaded only with a handler of its own name. -/
theorem Setting.load_name {setting : Setting ω} {name : String} {m : ModuleState ω} {h : Handler ω}
    (came : (setting.load name m).outcome = .ok (.ok h)) : h.name = name := by
  have checked (built : Except LoadError (Handler ω)) (t : ModuleState ω) :
      (Registry.check name built t).Stays (fun _ => True)
        (fun built => ∀ h, built = .ok h → h.name = name) := by
    cases built with
    | error e => exact .ended (fun _ same => by cases same) trivial
    | ok handler =>
      rw [Registry.check]
      by_cases named : handler.name = name
      · rw [if_pos named]
        exact .ended (fun h same => by cases same; exact named) trivial
      · rw [if_neg named]
        exact (Course.stays_anywhere _).andThen (fun _ same => same) fun _ _ _ _ =>
          .ended (fun _ same => by cases same) trivial
  have loaded : (setting.load name m).Stays (fun _ => True)
      (fun built => ∀ h, built = .ok h → h.name = name) := by
    rw [Setting.load, Registry.load]
    cases setting.registry.factories.get? name with
    | none => exact .ended (fun _ same => by cases same) trivial
    | some factory =>
      cases setting.registry.manifest name with
      | error e => exact .ended (fun _ same => by cases same) trivial
      | ok manifest =>
        exact (Course.stays_anywhere _).andThen (fun _ same => same) fun built t _ _ =>
          checked built t
  exact loaded.answer came h rfl

namespace Batch

variable {setting : Setting ω} {name : String}

/-- The handler that loading a namespace yields in a workshop. -/
def yields (setting : Setting ω) (name : String) (w : Workshop ω) : Option (Handler ω) :=
  match (setting.load name w.modules).outcome with
  | .ok (.ok h) => some h
  | _ => none

/-- The handler that turns bring of a namespace: the first that loading it for one of the entries that
name it yields. -/
def keptHandler (setting : Setting ω) (name : String) : List Taken → Workshop ω → Option (Handler ω)
  | [], _ => none
  | t :: rest, w =>
      let later := keptHandler setting name rest (pulledBy (courseOf setting t.id t.body w) t.pulled)
      if Entry.namespace? t.id t.body = some name then (yields setting name w).or later else later

/-- The turns of entries that name a namespace, up to the first for which loading it yields a
handler. -/
def callers (setting : Setting ω) (name : String) : List Taken → Workshop ω → List Taken
  | [], _ => []
  | t :: rest, w =>
      let later := callers setting name rest (pulledBy (courseOf setting t.id t.body w) t.pulled)
      if Entry.namespace? t.id t.body = some name then
        t :: if (yields setting name w).isSome then [] else later
      else later

/-- How an entry with a call is answered, by the handler of its namespace that is kept. Where none is,
loading decides: its handler answers, and is kept; or the entry comes to a failure, with the handlers
kept that were. -/
inductive Answered (setting : Setting ω) (id : String) (body : Json) (call : Call)
    (w : Workshop ω) : Option (Handler ω) → Prop
  | kept {h} (course : courseOf setting id body w = Entry.contained (Entry.answerBy h call) w) :
      Answered setting id body call w (some h)
  | loaded {h m result last}
      (came : (setting.load call.namespaceName w.modules).ComesTo (.ok (.ok h)) m)
      (answer : (Entry.contained (Entry.answerBy h call)
        { w with modules := m, cache := w.cache.set call.namespaceName h }).ComesTo (.ok result) last)
      (course : (courseOf setting id body w).ComesTo (.ok result) last) :
      Answered setting id body call w none
  | refused {e m} (came : (setting.load call.namespaceName w.modules).ComesTo (.ok (.error e)) m)
      (course : (courseOf setting id body w).ComesTo (.ok (.error (.ofLoad e)))
        { w with modules := m }) :
      Answered setting id body call w none
  | panicked {p m} (came : (setting.load call.namespaceName w.modules).ComesTo (.error p) m)
      (course : (courseOf setting id body w).ComesTo (.ok (.error (.ofPanic p)))
        { w with modules := m }) :
      Answered setting id body call w none

/-- An entry is answered by the handler that is kept, or loads one. -/
theorem answered_of_call (setting : Setting ω) {id : String} {body : Json} {call : Call}
    (valid : Call.ofEntry id body = .ok call) (w : Workshop ω) :
    Answered setting id body call w (w.cache.get? call.namespaceName) := by
  cases found : w.cache.get? call.namespaceName with
  | some h =>
    refine .kept ?_
    rw [courseOf, Entry.process, Entry.attempt, valid]
    show (((Workshop.resolve _ _ _ w).andThen _).attempt).andThen _ = _
    rw [Workshop.resolve_of_kept found]
    rfl
  | none =>
    -- Whatever the answer comes to, a panic included, the turn comes to it in the same workshop.
    have course (outcome : Except Panic (EntryResult ω)) {v : Workshop ω}
        (came : (Entry.answer setting.registry ⟨setting.settings, setting.app, ⟨true⟩⟩ call
          w).ComesTo outcome v) :
        (courseOf setting id body w).ComesTo (.ok (Entry.settled outcome)) v := by
      rw [courseOf, Entry.process, Entry.attempt, valid]
      exact Entry.contained_comes came
    have loading : (Workshop.inModules (setting.load call.namespaceName) w).ComesTo
        (setting.load call.namespaceName w.modules).outcome
        { w with modules := (setting.load call.namespaceName w.modules).finalState } :=
      Course.ComesTo.mapState ⟨rfl, rfl⟩ _
    have answer : Entry.answer setting.registry ⟨setting.settings, setting.app, ⟨true⟩⟩ call w =
        ((Workshop.inModules (setting.load call.namespaceName) w).andThen
          (Workshop.keep call.namespaceName)).andThen (Entry.answerWith call) := by
      rw [Setting.load, ← Workshop.resolve_of_absent found]
      rfl
    rw [answer] at course
    cases ended : (setting.load call.namespaceName w.modules).outcome with
    | ok built =>
      rw [ended] at loading
      cases built with
      | ok h =>
        exact .loaded ⟨ended, rfl⟩ (Entry.contained_comes ⟨rfl, rfl⟩)
          (course _ ((loading.andThen ⟨rfl, rfl⟩).andThen ⟨rfl, rfl⟩))
      | error e =>
        exact .refused ⟨ended, rfl⟩
          (course (.ok (.error (.ofLoad e))) ((loading.andThen ⟨rfl, rfl⟩).andThen ⟨rfl, rfl⟩))
    | error p =>
      rw [ended] at loading
      exact .panicked ⟨ended, rfl⟩ (course (.error p) ((loading.panics _).panics _))

theorem yields_eq_some_iff (w : Workshop ω) (h : Handler ω) :
    yields setting name w = some h ↔ (setting.load name w.modules).outcome = .ok (.ok h) := by
  rw [yields]
  constructor
  · intro loaded
    split at loaded
    · next came =>
      cases loaded
      exact came
    · cases loaded
  · intro came
    rw [came]

theorem yields_of_loaded {w : Workshop ω} {h : Handler ω} {m : ModuleState ω}
    (came : (setting.load name w.modules).ComesTo (.ok (.ok h)) m) :
    yields setting name w = some h :=
  (yields_eq_some_iff w h).mpr came.1

/-- A turn adds the handler that it loads, if it names a namespace of which none is kept. -/
theorem get?_of_turn (setting : Setting ω) (name id : String) (body : Json) (pulled : Nat)
    (w : Workshop ω) :
    (pulledBy (courseOf setting id body w) pulled).cache.get? name =
      (w.cache.get? name).or
        (if Entry.namespace? id body = some name then yields setting name w else none) := by
  -- pulling a sequence keeps no handler and gives none up
  show (courseOf setting id body w).finalState.cache.get? name = _
  cases valid : Call.ofEntry id body with
  | error f =>
    rw [courseOf, Entry.process, Entry.attempt, Entry.namespace?, valid]
    exact Option.or_none.symm
  | ok call =>
    have named : Entry.namespace? id body = some call.namespaceName := by
      rw [Entry.namespace?, valid]
      rfl
    rw [named]
    have answered := answered_of_call setting valid w
    generalize found : w.cache.get? call.namespaceName = kept at answered
    by_cases same : call.namespaceName = name
    · rw [if_pos (congrArg some same), ← same]
      cases answered with
      | kept course =>
        rw [course, Entry.answerBy_cache, found]
        rfl
      | loaded came answer course =>
        rw [course.2, ← answer.2, Entry.answerBy_cache, Assoc.get?_set, if_pos rfl,
          yields_of_loaded came, found]
        rfl
      | refused came course | panicked came course =>
        rw [course.2, yields, came.1]
        exact Option.or_none.symm
    -- A handler that this turn loads is kept under another name, so what is kept of `name` is the same.
    · rw [if_neg (fun eq => same (Option.some.inj eq)), Option.or_none]
      cases answered with
      | kept course =>
        rw [course, Entry.answerBy_cache]
      | loaded came answer course =>
        rw [course.2, ← answer.2, Entry.answerBy_cache, Assoc.get?_set, if_neg same]
      | refused came course | panicked came course => rw [course.2]

theorem get?_of_turns (setting : Setting ω) (name : String) (turns : List Taken) (w : Workshop ω) :
    (workshopBehind setting turns w).cache.get? name =
      (w.cache.get? name).or (keptHandler setting name turns w) := by
  induction turns generalizing w with
  | nil => exact Option.or_none.symm
  | cons t rest ih =>
    rw [keptHandler, workshopBehind]
    refine (ih _).trans ?_
    rw [get?_of_turn, Option.or_assoc]
    by_cases named : Entry.namespace? t.id t.body = some name
    · rw [if_pos named, if_pos named]
    · rw [if_neg named, if_neg named, Option.none_or]

theorem get?_of_reports (setting : Setting ω) (name : String) (entries : Members) (w : Workshop ω) :
    (reports setting entries w).2.cache.get? name =
      (w.cache.get? name).or (keptHandler setting name (wholeTurns setting entries w) w) := by
  rw [← workshopBehind_whole, get?_of_turns]

theorem keptHandler_append (setting : Setting ω) (name : String) (before later : List Taken)
    (w : Workshop ω) :
    keptHandler setting name (before ++ later) w =
      (keptHandler setting name before w).or
        (keptHandler setting name later (workshopBehind setting before w)) := by
  induction before generalizing w with
  | nil => rfl
  | cons t rest ih =>
    rw [List.cons_append, keptHandler, keptHandler, ih, workshopBehind]
    by_cases named : Entry.namespace? t.id t.body = some name
    · rw [if_pos named, if_pos named, Option.or_assoc]
    · rw [if_neg named, if_neg named]

/-- What every handler has that loading yields, the one that is kept has. -/
theorem keptHandler_holds {holds : Handler ω → Prop}
    (each : ∀ w h, yields setting name w = some h → holds h) (turns : List Taken) (w : Workshop ω)
    (h : Handler ω) (kept : keptHandler setting name turns w = some h) : holds h := by
  induction turns generalizing w with
  | nil => cases kept
  | cons t rest ih =>
    rw [keptHandler] at kept
    by_cases named : Entry.namespace? t.id t.body = some name
    · rw [if_pos named] at kept
      cases loaded : yields setting name w with
      | none =>
        rw [loaded, Option.none_or] at kept
        exact ih _ kept
      | some own =>
        rw [loaded, Option.some_or] at kept
        cases kept
        exact each w h loaded
    · rw [if_neg named] at kept
      exact ih _ kept

theorem keptHandler_name (turns : List Taken) (w : Workshop ω) (h : Handler ω)
    (kept : keptHandler setting name turns w = some h) : h.name = name :=
  keptHandler_holds (fun w h loaded => Setting.load_name ((yields_eq_some_iff w h).mp loaded))
    turns w h kept

/-! The calls of factories in the order of the entries, and those of one namespace among them. -/

/-- The calls of factories that turns lead to one after the other. -/
def factoryCalls (setting : Setting ω) : List Taken → Workshop ω → List ModuleContext
  | [], _ => []
  | t :: rest, w =>
      Entry.factoryCall setting.registry ⟨setting.settings, setting.app, ⟨true⟩⟩ w.cache t.id t.body ++
        factoryCalls setting rest (pulledBy (courseOf setting t.id t.body w) t.pulled)

/-- The calls for one namespace. -/
def callsFor (name : String) (contexts : List ModuleContext) : List ModuleContext :=
  contexts.filter fun context => context.namespaceName = name

theorem callsFor_contextOf (r : Registry ω) (ctx : LoadContext) (name other : String) :
    callsFor name (r.contextOf ctx other).toList =
      if other = name then (r.contextOf ctx other).toList else [] := by
  rw [Registry.contextOf]
  split
  · by_cases same : other = name <;> simp [callsFor, same]
  · simp [callsFor]

theorem callsFor_append (name : String) (first second : List ModuleContext) :
    callsFor name (first ++ second) = callsFor name first ++ callsFor name second :=
  List.filter_append ..

theorem callsFor_factoryCall (r : Registry ω) (ctx : LoadContext) (cache : Assoc (Handler ω))
    (name id : String) (body : Json) :
    callsFor name (Entry.factoryCall r ctx cache id body) =
      if Entry.namespace? id body = some name ∧ cache.get? name = none then
        (r.contextOf ctx name).toList
      else [] := by
  rw [Entry.factoryCall]
  cases Entry.namespace? id body with
  | none => simp [callsFor]
  | some other =>
    simp only [Option.some.injEq]
    by_cases same : other = name
    · subst same
      cases cache.get? other with
      | some h => simp [callsFor]
      | none => simp [callsFor_contextOf]
    · rw [if_neg fun both : other = name ∧ cache.get? name = none => same both.1]
      cases cache.get? other with
      | some h => rfl
      | none => exact (callsFor_contextOf r ctx name other).trans (if_neg same)

/-- Once a handler is kept, no factory is called for its namespace. -/
theorem callsFor_of_kept (setting : Setting ω) (name : String) (turns : List Taken) (w : Workshop ω)
    {h : Handler ω} (kept : w.cache.get? name = some h) :
    callsFor name (factoryCalls setting turns w) = [] := by
  induction turns generalizing w with
  | nil => rfl
  | cons t rest ih =>
    have still : (pulledBy (courseOf setting t.id t.body w) t.pulled).cache.get? name = some h := by
      rw [get?_of_turn, kept, Option.some_or]
    rw [factoryCalls, callsFor_append, callsFor_factoryCall, ih _ still, kept, if_neg]
    · rfl
    · exact fun both => nomatch both.2

/-- Before that, its factory is called for each entry that names the namespace. -/
theorem callsFor_of_absent (setting : Setting ω) (name : String) (turns : List Taken)
    (w : Workshop ω) (absent : w.cache.get? name = none) :
    callsFor name (factoryCalls setting turns w) =
      (callers setting name turns w).flatMap fun _ =>
        (setting.registry.contextOf ⟨setting.settings, setting.app, ⟨true⟩⟩ name).toList := by
  induction turns generalizing w with
  | nil => rfl
  | cons t rest ih =>
    have after := get?_of_turn setting name t.id t.body t.pulled w
    rw [absent, Option.none_or] at after
    rw [factoryCalls, callsFor_append, callsFor_factoryCall, callers]
    by_cases named : Entry.namespace? t.id t.body = some name
    · rw [if_pos named] at after
      rw [if_pos ⟨named, absent⟩, if_pos named, List.flatMap_cons]
      cases yielded : yields setting name w with
      | some h => rw [callsFor_of_kept setting name rest _ (after.trans yielded)]; rfl
      | none => rw [ih _ (after.trans yielded)]; rfl
    · rw [if_neg named] at after
      rw [if_neg fun both => named both.1, if_neg named, List.nil_append, ih _ after]

end Batch
end Multicall
