import Multicall.Proofs.Requests
/-!
What entries ask of factories. An entry that names a namespace has its factory called where no handler
of it is kept: once, before anything else is asked of the module, and whatever becomes of the call.
Nothing else calls a factory, neither an operation nor a close hook. So in a watched run the calls of
factories can be told from the entries and the handlers that were kept when their turns came.
-/
namespace Multicall

variable {ω υ α β : Type}

namespace Course

variable {σ τ : Type}

/-- All states that a course shows are of a kind, and so is its answer, if it comes to one. -/
inductive Stays (kind : σ → Prop) (answers : α → Prop) : Course σ α → Prop
  | ended {a s} (answer : answers a) (state : kind s) : Stays kind answers (.ended (.ok a) s)
  | panicked {p s} (state : kind s) : Stays kind answers (.ended (.error p) s)
  | send {c} (command : PartCommand) (rest : Stays kind answers c) :
      Stays kind answers (.send command c)
  | record {c} (e : Event) (rest : Stays kind answers c) : Stays kind answers (.record e c)
  | suspend {s c} (state : kind s) (rest : Stays kind answers c) :
      Stays kind answers (.suspend s c)

variable {kind : σ → Prop} {answers : α → Prop} {c : Course σ α}

theorem stays_anywhere (c : Course σ α) : c.Stays (fun _ => True) (fun _ => True) := by
  induction c with
  | ended outcome s =>
    cases outcome with
    | ok a => exact .ended trivial trivial
    | error p => exact .panicked trivial
  | send command _ ih => exact .send command ih
  | record e _ ih => exact .record e ih
  | suspend s _ ih => exact .suspend trivial ih

theorem Stays.andThen {wider : σ → Prop} {later : β → Prop} {f : α → σ → Course σ β}
    (stays : c.Stays kind answers) (widen : ∀ s, kind s → wider s)
    (next : ∀ a s, answers a → kind s → (f a s).Stays wider later) :
    (c.andThen f).Stays wider later := by
  induction stays with
  | ended answer state => exact next _ _ answer state
  | panicked state => exact .panicked (widen _ state)
  | send command _ ih => exact .send command ih
  | record e _ ih => exact .record e ih
  | suspend state _ ih => exact .suspend (widen _ state) ih

theorem Stays.attempt (stays : c.Stays kind answers) :
    c.attempt.Stays kind fun result => ∀ a, result = .ok a → answers a := by
  induction stays with
  | ended answer state => exact .ended (fun _ same => by cases same; exact answer) state
  | panicked state => exact .ended (fun _ same => nomatch same) state
  | send command _ ih => exact .send command ih
  | record e _ ih => exact .record e ih
  | suspend state _ ih => exact .suspend state ih

theorem Stays.mapState {outer : τ → Prop} {f : σ → τ} (stays : c.Stays kind answers)
    (put : ∀ s, kind s → outer (f s)) : (c.mapState f).Stays outer answers := by
  induction stays with
  | ended answer state => exact .ended answer (put _ state)
  | panicked state => exact .panicked (put _ state)
  | send command _ ih => exact .send command ih
  | record e _ ih => exact .record e ih
  | suspend state _ ih => exact .suspend (put _ state) ih

theorem Stays.answer (stays : c.Stays kind answers) {a : α} (ended : c.outcome = .ok a) :
    answers a := by
  induction stays with
  | ended answer _ =>
    cases ended
    exact answer
  | panicked _ => cases ended
  | send _ _ ih => exact ih ended
  | record _ _ ih => exact ih ended
  | suspend _ _ ih => exact ih ended

theorem Stays.states (stays : c.Stays kind answers) : ∀ s ∈ c.states, kind s := by
  induction stays with
  | ended _ state | panicked state =>
    intro s shown
    rw [List.mem_singleton.mp shown]
    exact state
  | send _ _ ih => exact ih
  | record _ _ ih => exact ih
  | suspend state _ ih => exact List.forall_mem_cons.mpr ⟨state, ih⟩

end Course

/-- A result of watched code: if it is a sequence, its pulls leave the log alone. -/
def EntryResult.Unlogged {ε : Type} (result : EntryResult (Logged ε ω)) : Prop :=
  ∃ own : EntryResult ω, result = own.map Payload.unseen

namespace EntryResult

variable {ε : Type}

theorem unlogged_of_error (f : Failure) : Unlogged (.error f : EntryResult (Logged ε ω)) :=
  ⟨.error f, rfl⟩

theorem unlogged_of_json (j : Json) : Unlogged (.ok (.json j) : EntryResult (Logged ε ω)) :=
  ⟨.ok (.json j), rfl⟩

/-- However often a sequence is pulled, the log stays as it is. -/
theorem Unlogged.log_after {result : EntryResult (Logged ε ω)} (unlogged : result.Unlogged)
    (count : Nat) (m : ModuleState (Logged ε ω)) :
    (result.after count m).world.log = m.world.log := by
  obtain ⟨own, rfl⟩ := unlogged
  match own with
  | .error _ | .ok (.value _) => rfl
  | .ok (.sequence producer) =>
    have pulled (count index : Nat) (m : ModuleState (Logged ε ω)) :
        (Producer.after (fun index => Logged.unseen (producer index)) count index m).world.log =
          m.world.log := by
      induction count generalizing index m with
      | zero => rfl
      | succ count ih =>
        rw [Producer.after, ih, Producer.next, Logged.unseen, Activity.within,
          Course.finalState_mapState]
    exact pulled count 0 m

end EntryResult

/-! The calls of factories among all that is asked. -/

def Request.context? : Request → Option ModuleContext
  | .load context => some context
  | .invoke _ _ _ | .close _ => none

def Request.contexts (requests : List Request) : List ModuleContext :=
  requests.filterMap Request.context?

/-- What the factory of a namespace would be called with: there has to be one, and its manifest has to
be readable. -/
def Registry.contextOf (r : Registry ω) (ctx : LoadContext) (name : String) : Option ModuleContext :=
  match r.factories.get? name, r.manifest name with
  | some _, .ok manifest => some ⟨name, ctx.settings, ctx.app, ctx.sink, manifest⟩
  | _, _ => none

namespace Watched

/-- Modules of which this was asked, as far as a view of requests tells. -/
def Asked (view : Request → Option β) (seen : List β) (m : ModuleState (Watched ω)) : Prop :=
  m.world.log.filterMap view = seen

/-- Modules whose factories have been called with these contexts. -/
abbrev Called (contexts : List ModuleContext) (m : ModuleState (Watched ω)) : Prop :=
  Asked Request.context? contexts m

variable {view : Request → Option β} {seen : List β} {contexts : List ModuleContext}
  {m : ModuleState (Watched ω)}

theorem unseen_stays (code : ModuleCode ω α) (asked : Asked view seen m) :
    (Logged.unseen code m).Stays (Asked view seen) (fun _ => True) :=
  (Course.stays_anywhere _).mapState fun _ _ => asked

theorem note_stays {kind : ModuleState (Watched ω) → Prop} {answers : α → Prop} (r : Request)
    {rest : ModuleCode (Watched ω) α} (asked : Asked view seen m)
    (stays : ∀ t, Asked view (seen ++ (view r).toList) t → (rest t).Stays kind answers) :
    ((Logged.note r >>= fun _ => rest) m).Stays kind answers := by
  refine stays _ ?_
  show (m.world.log ++ [r]).filterMap view = _
  rw [List.filterMap_append, asked]
  cases found : view r <;> simp [found]

theorem invoke_stays (namespaceName : String) (op : Operation ω) (arguments : Arguments)
    (called : Called contexts m) :
    ((op.watched namespaceName).invoke arguments m).Stays (Called contexts) fun came =>
      ∃ own : Except Raised (Payload ω), came = own.map Payload.unseen :=
  note_stays _ called fun t same =>
    (unseen_stays _ (by rwa [Request.context?, Option.toList_none, List.append_nil] at same)).andThen
      (fun _ same => same) fun own _ _ asked => .ended ⟨own, rfl⟩ asked

/-- What loading comes to over a watched registry: a handler that is watched, or an error. -/
def Built (built : Except LoadError (Handler (Watched ω))) : Prop :=
  ∃ own : Except LoadError (Handler ω), built = own.map Handler.watched

section Loading

variable (closing : ∀ name, view (.close name) = none)
include closing

theorem close_stays (h : Handler ω) (asked : Asked view seen m) :
    (h.watched.close m).Stays (Asked view seen) (fun _ => True) := by
  rw [Handler.close, Handler.watched]
  cases h.onClose with
  | none => exact .ended trivial asked
  | some hook =>
    exact note_stays _ asked fun t same =>
      unseen_stays _ (by rwa [closing, Option.toList_none, List.append_nil] at same)

theorem check_stays (name : String) {built : Except LoadError (Handler (Watched ω))}
    (own : Built built) (asked : Asked view seen m) :
    (Registry.check name built m).Stays (Asked view seen) Built := by
  obtain ⟨own, rfl⟩ := own
  cases own with
  | error e => exact .ended ⟨.error e, rfl⟩ asked
  | ok h =>
    rw [Except.map, Registry.check]
    by_cases named : h.watched.name = name
    · rw [if_pos named]
      exact .ended ⟨.ok h, rfl⟩ asked
    · rw [if_neg named]
      exact (close_stays closing h asked).andThen (fun _ same => same) fun _ _ _ asked =>
        .ended ⟨.error _, rfl⟩ asked

omit closing in
theorem factory_stays (factory : Factory ω) (context : ModuleContext) (asked : Asked view seen m) :
    (Factory.watched factory context m).Stays
      (Asked view (seen ++ (view (.load context)).toList)) Built :=
  note_stays (.load context) asked fun _ once =>
    (unseen_stays (factory context) once).andThen (fun _ same => same) fun built _ _ asked =>
      .ended ⟨built, rfl⟩ asked

theorem load_stays (r : Registry ω) (ctx : LoadContext) (name : String)
    (asked : Asked view seen m) :
    (r.watched.load ctx name m).Stays
      (Asked view (seen ++ (r.contextOf ctx name).toList.filterMap fun context =>
        view (.load context))) Built := by
  have routes : r.watched.manifest name = r.manifest name := rfl
  have factories : r.watched.factories.get? name = (r.factories.get? name).map Factory.watched :=
    Assoc.get?_map _ _ _
  have unasked (e : LoadError) : Course.Stays (Asked view (seen ++ [])) (@Built ω)
      (.ended (.ok (.error e)) m : Course (ModuleState (Watched ω)) _) :=
    .ended ⟨.error e, rfl⟩ (by rwa [List.append_nil])
  rw [Registry.load, Registry.contextOf, factories, routes]
  cases r.factories.get? name with
  | none => exact unasked _
  | some factory =>
    cases r.manifest name with
    | error e => exact unasked e
    | ok manifest =>
      have single (context : ModuleContext) :
          (some context).toList.filterMap (fun context => view (.load context)) =
            (view (.load context)).toList := by
        cases found : view (.load context) <;> simp [found]
      dsimp only
      rw [single]
      exact (factory_stays factory _ asked).andThen (fun _ same => same) fun _ _ own once =>
        check_stays closing name own once

end Loading

end Watched

/-! What an entry asks. -/

/-- The namespace of an entry that passes the check of entries. -/
def Entry.namespace? (id : String) (body : Json) : Option String :=
  (Call.ofEntry id body).toOption.map (·.namespaceName)

/-- The call of a factory that an entry leads to when these handlers are kept. -/
def Entry.factoryCall (r : Registry ω) (ctx : LoadContext) (cache : Assoc (Handler υ)) (id : String)
    (body : Json) : List ModuleContext :=
  match Entry.namespace? id body with
  | none => []
  | some name => if (cache.get? name).isSome then [] else (r.contextOf ctx name).toList

namespace Workshop

/-- This was asked of the modules, as far as a view tells, and every handler that is kept is
watched. -/
structure HasAsked (view : Request → Option β) (seen : List β) (w : Workshop (Watched ω)) :
    Prop where
  called : Watched.Asked view seen w.modules
  watched : ∀ entry ∈ w.cache, ∃ h : Handler ω, entry.2 = h.watched

/-- Factories have been called with these contexts. -/
abbrev HasCalled (contexts : List ModuleContext) (w : Workshop (Watched ω)) : Prop :=
  w.HasAsked Request.context? contexts

variable {view : Request → Option β} {seen : List β} {contexts : List ModuleContext}
  {w : Workshop (Watched ω)}

theorem inModules_stays {code : ModuleCode (Watched ω) α} {answers : α → Prop}
    (watched : ∀ entry ∈ w.cache, ∃ h : Handler ω, entry.2 = h.watched)
    (stays : (code w.modules).Stays (Watched.Asked view seen) answers) :
    (inModules code w).Stays (fun v => v.HasAsked view seen ∧ v.cache = w.cache) answers :=
  stays.mapState fun _ asked => ⟨⟨asked, watched⟩, rfl⟩

theorem HasAsked.keep (asked : w.HasAsked view seen) {name : String}
    (absent : w.cache.get? name = none) (h : Handler ω) :
    HasAsked view seen { w with cache := w.cache.set name h.watched } := by
  refine ⟨asked.called, ?_⟩
  rw [Assoc.set_of_get?_none _ absent]
  intro entry among
  rcases List.mem_append.mp among with before | last
  · exact asked.watched entry before
  · rw [List.mem_singleton.mp last]
    exact ⟨h, rfl⟩

/-- The pulls of a sequence ask nothing. -/
theorem HasAsked.pulled {c : Course (Workshop (Watched ω)) (EntryResult (Watched ω))}
    (asked : c.finalState.HasAsked view seen) (unlogged : (Batch.resultOf c).Unlogged)
    (count : Nat) : (Batch.pulledBy c count).HasAsked view seen where
  called := (congrArg (List.filterMap view) (unlogged.log_after count _)).trans asked.called
  watched := asked.watched

/-- A factory is called once where no handler is kept, and never where there is one. No operation is
invoked on the way. -/
theorem resolve_asks (closing : ∀ name, view (.close name) = none) (r : Registry ω)
    (ctx : LoadContext) (name : String) (asked : w.HasAsked view seen) :
    (resolve r.watched ctx name w).Stays
      (HasAsked view (seen ++ (if (w.cache.get? name).isSome then []
        else (r.contextOf ctx name).toList).filterMap fun context => view (.load context)))
      Watched.Built := by
  cases found : w.cache.get? name with
  | some handler =>
    rw [resolve_of_kept found, Option.isSome_some, if_pos rfl, List.filterMap_nil, List.append_nil]
    obtain ⟨h, own⟩ := asked.watched _ (Assoc.mem_of_get? found)
    exact .ended ⟨.ok h, congrArg Except.ok own⟩ asked
  | none =>
    rw [resolve_of_absent found, Option.isSome_none, if_neg Bool.false_ne_true]
    refine (inModules_stays asked.watched
      (Watched.load_stays closing r ctx name asked.called)).andThen (fun _ => And.left) ?_
    rintro _ v ⟨own, rfl⟩ ⟨asked, same⟩
    cases own with
    | error e => exact .record _ (.ended ⟨.error e, rfl⟩ asked)
    | ok h => exact .ended ⟨.ok h, rfl⟩ (asked.keep (same ▸ found) h)

theorem resolve_stays (r : Registry ω) (ctx : LoadContext) (name : String)
    (called : w.HasCalled contexts) :
    (resolve r.watched ctx name w).Stays
      (HasCalled (contexts ++
        if (w.cache.get? name).isSome then [] else (r.contextOf ctx name).toList))
      Watched.Built := by
  have asks := resolve_asks (fun _ => rfl) r ctx name called
  simpa only [Request.context?, List.filterMap_some] using asks

theorem closeHandlers_stays (handlers : List (Handler (Watched ω)))
    (own : ∀ handler ∈ handlers, ∃ h : Handler ω, handler = h.watched)
    (called : w.HasCalled contexts) :
    (closeHandlers handlers w).Stays (HasCalled contexts) (fun _ => True) := by
  induction handlers generalizing w with
  | nil => exact .ended trivial called
  | cons handler rest ih =>
    obtain ⟨⟨h, rfl⟩, others⟩ := List.forall_mem_cons.mp own
    exact (inModules_stays called.watched (Watched.close_stays (fun _ => rfl) h called.called)).andThen
      (fun _ => And.left) fun _ _ _ closed => ih others closed.1

/-- Giving handlers up calls no factory. -/
theorem closeAll_stays (called : w.HasCalled contexts) :
    (closeAll w).Stays (HasCalled contexts) (fun _ => True) :=
  closeHandlers_stays _ (forall_mem_leaving called.watched)
    ⟨called.called, fun _ among => nomatch among⟩

end Workshop

namespace Entry

variable {contexts : List ModuleContext} {w : Workshop (Watched ω)}

theorem invoke_stays (h : Handler ω) (name : String) (supplied : Members)
    (called : w.HasCalled contexts) :
    (invoke h.watched name supplied w).Stays (Workshop.HasCalled contexts)
      EntryResult.Unlogged := by
  have operations : h.watched.operation? name =
      (h.operations.get? name).map (Operation.watched h.name) :=
    Handler.operation?_logged _ _ h name
  rw [invoke, operations]
  cases h.operations.get? name with
  | none => exact .ended (EntryResult.unlogged_of_error _) called
  | some op =>
    dsimp only [Option.map_some]
    cases Operation.bindArguments (op.watched h.name).name (op.watched h.name).parameters supplied with
    | error f => exact .ended (EntryResult.unlogged_of_error f) called
    | ok arguments =>
      refine (Workshop.inModules_stays called.watched
        (Watched.invoke_stays h.name op arguments called.called)).andThen (fun _ => And.left) ?_
      rintro _ v ⟨own, rfl⟩ ⟨called, -⟩
      cases own with
      | ok payload => exact .ended ⟨.ok payload, rfl⟩ called
      | error raised => exact .ended (EntryResult.unlogged_of_error _) called

/-- What an entry asks of factories, wherever it may be broken off. -/
theorem process_stays (r : Registry ω) (ctx : LoadContext) (id : String) (body : Json)
    (called : w.HasCalled contexts) :
    (process r.watched ctx id body w).Stays
      (Workshop.HasCalled (contexts ++ factoryCall r ctx w.cache id body)) EntryResult.Unlogged := by
  have attempted : (Entry.attempt r.watched ctx id body w).Stays
      (Workshop.HasCalled (contexts ++ factoryCall r ctx w.cache id body)) EntryResult.Unlogged := by
    rw [Entry.attempt, factoryCall, namespace?]
    cases Call.ofEntry id body with
    | error f =>
      exact .ended (EntryResult.unlogged_of_error f) (by simpa [Except.toOption] using called)
    | ok call =>
      refine (Workshop.resolve_stays r ctx call.namespaceName called).andThen (fun _ same => same) ?_
      rintro _ v ⟨own, rfl⟩ called
      cases own with
      | error e => exact .ended (EntryResult.unlogged_of_error _) called
      | ok h =>
        dsimp only [Except.map]
        cases call.invocation with
        | list => exact .ended (EntryResult.unlogged_of_json _) called
        | describe name => exact .ended (EntryResult.unlogged_of_json _) called
        | call name => exact invoke_stays h name _ called
  refine attempted.attempt.andThen (fun _ same => same) ?_
  rintro (p | result) v unlogged called
  · exact .ended (EntryResult.unlogged_of_error _) called
  · exact .ended (unlogged result rfl) called

end Entry
end Multicall
