import Multicall.Proofs.Likeness
import Multicall.Proofs.Pulls
/-!
Modules side by side. Two courses are alike when they send the same commands and suspend at the same
points, in related states, up to ends that are alike; what they record is left open. Two registries
are alike when loading a namespace goes alike and the handlers that it gives answer alike from then
on. Entries processed over registries that are alike then go alike, whatever has been loaded before.
-/
namespace Multicall

variable {σ τ α β γ δ : Type}

namespace Course

inductive Alike (states : σ → τ → Prop) (answers : α → β → Prop) (panics : Panic → Panic → Prop) :
    Course σ α → Course τ β → Prop
  | ended {a b s t} (same : answers a b) (related : states s t) :
      Alike states answers panics (.ended (.ok a) s) (.ended (.ok b) t)
  | panicked {p q s t} (same : panics p q) (related : states s t) :
      Alike states answers panics (.ended (.error p) s) (.ended (.error q) t)
  | send {c d} (command : PartCommand) (rest : Alike states answers panics c d) :
      Alike states answers panics (.send command c) (.send command d)
  | recordLeft {c d} (e : Event) (rest : Alike states answers panics c d) :
      Alike states answers panics (.record e c) d
  | recordRight {c d} (e : Event) (rest : Alike states answers panics c d) :
      Alike states answers panics c (.record e d)
  | suspend {s t c d} (related : states s t) (rest : Alike states answers panics c d) :
      Alike states answers panics (.suspend s c) (.suspend t d)

variable {states : σ → τ → Prop} {answers : α → β → Prop} {panics : Panic → Panic → Prop}
  {c : Course σ α} {d : Course τ β}

/-- A course goes like itself. Of its answer no more is known than that it is the one it ends with. -/
theorem Alike.itself {states : σ → σ → Prop} {answers : α → α → Prop} {c : Course σ α}
    (reflState : ∀ s, states s s) (answer : ∀ a, c.outcome = .ok a → answers a a)
    (reflPanic : ∀ p, panics p p) : c.Alike states answers panics c := by
  induction c with
  | ended outcome s =>
    cases outcome with
    | ok a => exact .ended (answer a rfl) (reflState s)
    | error p => exact .panicked (reflPanic p) (reflState s)
  | send command _ ih => exact .send command (ih answer)
  | record e _ ih => exact .recordLeft e (.recordRight e (ih answer))
  | suspend s _ ih => exact .suspend (reflState s) (ih answer)

theorem Alike.refl {states : σ → σ → Prop} {answers : α → α → Prop} (reflState : ∀ s, states s s)
    (reflAnswer : ∀ a, answers a a) (reflPanic : ∀ p, panics p p) (c : Course σ α) :
    c.Alike states answers panics c :=
  .itself reflState (fun a _ => reflAnswer a) reflPanic

theorem Alike.andThen {later : γ → δ → Prop} {f : α → σ → Course σ γ} {g : β → τ → Course τ δ}
    (alike : c.Alike states answers panics d)
    (next : ∀ a b s t, answers a b → states s t → (f a s).Alike states later panics (g b t)) :
    (c.andThen f).Alike states later panics (d.andThen g) := by
  induction alike with
  | ended same related => exact next _ _ _ _ same related
  | panicked same related => exact .panicked same related
  | send command _ ih => exact .send command ih
  | recordLeft e _ ih => exact .recordLeft e ih
  | recordRight e _ ih => exact .recordRight e ih
  | suspend related _ ih => exact .suspend related ih

theorem Alike.attempt {others : Panic → Panic → Prop} (alike : c.Alike states answers panics d) :
    c.attempt.Alike states (ResultAlike panics answers) others d.attempt := by
  induction alike with
  | ended same related => exact .ended (.ok same) related
  | panicked same related => exact .ended (.error same) related
  | send command _ ih => exact .send command ih
  | recordLeft e _ ih => exact .recordLeft e ih
  | recordRight e _ ih => exact .recordRight e ih
  | suspend related _ ih => exact .suspend related ih

theorem Alike.mapState {σ' τ' : Type} {outer : σ' → τ' → Prop} {f : σ → σ'} {g : τ → τ'}
    (alike : c.Alike states answers panics d)
    (put : ∀ s t, states s t → outer (f s) (g t)) :
    (c.mapState f).Alike outer answers panics (d.mapState g) := by
  induction alike with
  | ended same related => exact .ended same (put _ _ related)
  | panicked same related => exact .panicked same (put _ _ related)
  | send command _ ih => exact .send command ih
  | recordLeft e _ ih => exact .recordLeft e ih
  | recordRight e _ ih => exact .recordRight e ih
  | suspend related _ ih => exact .suspend (put _ _ related) ih

theorem Alike.weaken {wider : α → β → Prop} (alike : c.Alike states answers panics d)
    (answer : ∀ a b, answers a b → wider a b) : c.Alike states wider panics d := by
  induction alike with
  | ended same related => exact .ended (answer _ _ same) related
  | panicked same related => exact .panicked same related
  | send command _ ih => exact .send command ih
  | recordLeft e _ ih => exact .recordLeft e ih
  | recordRight e _ ih => exact .recordRight e ih
  | suspend related _ ih => exact .suspend related ih

theorem Alike.awaited (alike : c.Alike states answers panics d) :
    c.awaited.Alike states answers panics d.awaited := by
  induction alike with
  | ended same related => exact .ended same related
  | panicked same related => exact .panicked same related
  | send command _ ih => exact .send command ih
  | recordLeft e _ ih => exact .recordLeft e ih
  | recordRight e _ ih => exact .recordRight e ih
  | suspend _ _ ih => exact ih

theorem Alike.commands_eq (alike : c.Alike states answers panics d) : c.commands = d.commands := by
  induction alike with
  | ended | panicked => rfl
  | send command _ ih => exact congrArg (command :: ·) ih
  | recordLeft _ _ ih => exact ih
  | recordRight _ _ ih => exact ih
  | suspend _ _ ih => exact ih

theorem Alike.ends (alike : c.Alike states answers panics d) :
    ResultAlike panics answers c.outcome d.outcome ∧ states c.finalState d.finalState := by
  induction alike with
  | ended same related => exact ⟨.ok same, related⟩
  | panicked same related => exact ⟨.error same, related⟩
  | send _ _ ih => exact ih
  | recordLeft _ _ ih => exact ih
  | recordRight _ _ ih => exact ih
  | suspend _ _ ih => exact ih

end Course

namespace Activity

def Alike (states : σ → τ → Prop) (answers : α → β → Prop) (panics : Panic → Panic → Prop)
    (m : Activity σ α) (n : Activity τ β) : Prop :=
  ∀ s t, states s t → (m s).Alike states answers panics (n t)

variable {states : σ → τ → Prop} {answers : α → β → Prop} {panics : Panic → Panic → Prop}
  {m : Activity σ α} {n : Activity τ β}

theorem Alike.refl {answers : α → α → Prop} (reflAnswer : ∀ a, answers a a)
    (reflPanic : ∀ p, panics p p) (m : Activity σ α) : Alike (· = ·) answers panics m m := by
  rintro s _ rfl
  exact .refl (fun _ => rfl) reflAnswer reflPanic (m s)

theorem alike_pure {a : α} {b : β} (same : answers a b) :
    Alike states answers panics (pure a) (pure b) :=
  fun _ _ related => .ended same related

theorem alike_panic {p q : Panic} (same : panics p q) :
    Alike states answers panics (panic p) (panic q) :=
  fun _ _ related => .panicked same related

theorem alike_get : Alike states states panics get get := fun _ _ related => .ended related related

theorem alike_modify {f : σ → σ} {g : τ → τ} (keeps : ∀ s t, states s t → states (f s) (g t)) :
    Alike states (fun _ _ => True) panics (modify f) (modify g) :=
  fun s t related => .ended trivial (keeps s t related)

theorem alike_record (e f : Event) :
    Alike states (fun _ _ => True) panics (record e) (record f) :=
  fun _ _ related => .recordLeft e (.recordRight f (.ended trivial related))

theorem Alike.bind {later : γ → δ → Prop} {f : α → Activity σ γ} {g : β → Activity τ δ}
    (first : Alike states answers panics m n)
    (second : ∀ a b, answers a b → Alike states later panics (f a) (g b)) :
    Alike states later panics (m >>= f) (n >>= g) :=
  fun s t related => (first s t related).andThen fun a b s t same related => second a b same s t related

theorem Alike.attempt {others : Panic → Panic → Prop} (alike : Alike states answers panics m n) :
    Alike states (ResultAlike panics answers) others m.attempt n.attempt :=
  fun s t related => (alike s t related).attempt

theorem Alike.weaken {wider : α → β → Prop} (alike : Alike states answers panics m n)
    (answer : ∀ a b, answers a b → wider a b) : Alike states wider panics m n :=
  fun s t related => (alike s t related).weaken answer

theorem Alike.within {σ' τ' : Type} {outer : σ' → τ' → Prop} {getLeft : σ' → σ} {getRight : τ' → τ}
    {setLeft : σ' → σ → σ'} {setRight : τ' → τ → τ'} (alike : Alike states answers panics m n)
    (take : ∀ k l, outer k l → states (getLeft k) (getRight l))
    (put : ∀ k l s t, outer k l → states s t → outer (setLeft k s) (setRight l t)) :
    Alike outer answers panics (.within getLeft setLeft m) (.within getRight setRight n) :=
  fun k l related => (alike _ _ (take k l related)).mapState fun s t => put k l s t related

/-- Code goes alike on a state and on one that has something beside it. -/
theorem alike_beside {answers : α → α → Prop} (reflAnswer : ∀ a, answers a a)
    (reflPanic : ∀ p, panics p p) {get : τ → σ} {set : τ → σ → τ}
    (take : ∀ s t, states s t → s = get t) (put : ∀ t s, states s (set t s)) (m : Activity σ α) :
    Alike states answers panics m (.within get set m) := by
  intro s t related
  obtain rfl := take s t related
  have itself : (m (get t)).Alike (· = ·) answers panics (m (get t)) :=
    .refl (fun _ => rfl) reflAnswer reflPanic _
  have kept : ∀ inner fellow : σ, inner = fellow → states (id inner) (set t fellow) := by
    rintro inner _ rfl
    exact put t inner
  have alike := itself.mapState kept
  rwa [Course.mapState_id] at alike

end Activity

/-! Tables. -/

/-- Tables with the same keys in the same order, and values that are alike. -/
abbrev Assoc.Alike (values : α → β → Prop) (table : Assoc α) (other : Assoc β) : Prop :=
  List.Forall₂ (fun entry fellow => entry.1 = fellow.1 ∧ values entry.2 fellow.2) table other

namespace Assoc

variable {values : α → β → Prop} {table : Assoc α} {other : Assoc β}

theorem Alike.get? (alike : Assoc.Alike values table other) (key : String) :
    Option.Rel values (table.get? key) (other.get? key) := by
  induction alike with
  | nil => exact .none
  | @cons entry fellow rest others first _ ih =>
    obtain ⟨name, value⟩ := entry
    obtain ⟨own, match'⟩ := fellow
    obtain ⟨rfl, same⟩ := first
    rw [Assoc.get?, Assoc.get?]
    by_cases found : name = key
    · rw [if_pos found, if_pos found]
      exact .some same
    · rw [if_neg found, if_neg found]
      exact ih

theorem Alike.set {a : α} {b : β} (alike : Assoc.Alike values table other) (key : String)
    (same : values a b) : Assoc.Alike values (table.set key a) (other.set key b) := by
  induction alike with
  | nil => exact .cons ⟨rfl, same⟩ .nil
  | @cons entry fellow rest others first tail ih =>
    obtain ⟨name, value⟩ := entry
    obtain ⟨own, match'⟩ := fellow
    obtain ⟨rfl, kept⟩ := first
    rw [Assoc.set, Assoc.set]
    by_cases found : name = key
    · rw [if_pos found, if_pos found]
      exact .cons ⟨rfl, same⟩ tail
    · rw [if_neg found, if_neg found]
      exact .cons ⟨rfl, kept⟩ ih

theorem Alike.place {entry : String × α} {fellow : String × β}
    (same : entry.1 = fellow.1 ∧ values entry.2 fellow.2) (rank : String → Nat)
    (alike : Assoc.Alike values table other) :
    Assoc.Alike values (table.place rank entry) (other.place rank fellow) := by
  induction alike with
  | nil => exact .cons same .nil
  | cons first tail ih =>
    rw [Assoc.place, Assoc.place, same.1, first.1]
    split
    · exact .cons same (.cons first tail)
    · exact .cons first ih

theorem Alike.arrange (alike : Assoc.Alike values table other) (rank : String → Nat) :
    Assoc.Alike values (table.arrange rank) (other.arrange rank) := by
  induction alike with
  | nil => exact .nil
  | cons first _ ih => exact ih.place first rank

theorem Alike.keys_eq (alike : Assoc.Alike values table other) : table.keys = other.keys := by
  induction alike with
  | nil => rfl
  | cons first _ ih => simpa only [keys, List.map_cons, first.1, List.cons.injEq, true_and] using ih

end Assoc

/-! Modules. -/

variable {ω υ : Type}

structure ModuleState.Alike (worlds : ω → υ → Prop) (m : ModuleState ω) (n : ModuleState υ) :
    Prop where
  world : worlds m.world n.world
  nextStream : m.nextStream = n.nextStream

abbrev ModuleCode.Alike (debug : Bool) (worlds : ω → υ → Prop) (answers : α → β → Prop)
    (m : ModuleCode ω α) (n : ModuleCode υ β) : Prop :=
  Activity.Alike (ModuleState.Alike worlds) answers (Panic.Alike debug) m n

/-- Sequences that give values which are related, pull by pull. What their code panics with is left
open. -/
def Producer.Alike (values : Json → Json → Prop) (worlds : ω → υ → Prop) (producer : Producer ω)
    (other : Producer υ) : Prop :=
  ∀ index, Activity.Alike (ModuleState.Alike worlds) (ProducedAlike values) (fun _ _ => True)
    (producer index) (other index)

/-- Payloads of one kind with values that are related. -/
inductive Payload.Related (values : Json → Json → Prop) (producers : Producer ω → Producer υ → Prop) :
    Payload ω → Payload υ → Prop
  | value {json other : Except String Json} (same : ConversionAlike values json other) :
      Related values producers (.value json) (.value other)
  | sequence {producer : Producer ω} {other : Producer υ} (same : producers producer other) :
      Related values producers (.sequence producer) (.sequence other)

/-- Payloads that hold the same values. -/
abbrev Payload.Alike (worlds : ω → υ → Prop) : Payload ω → Payload υ → Prop :=
  Payload.Related (· = ·) (Producer.Alike (· = ·) worlds)

structure Operation.Alike (debug : Bool) (worlds : ω → υ → Prop) (op : Operation ω)
    (other : Operation υ) : Prop where
  name : op.name = other.name
  parameters : op.parameters = other.parameters
  returns : op.returns = other.returns
  invoke : ∀ arguments, ModuleCode.Alike debug worlds
    (ResultAlike (Raised.Alike debug) (Payload.Alike worlds)) (op.invoke arguments)
      (other.invoke arguments)

structure Handler.Alike (debug : Bool) (worlds : ω → υ → Prop) (h : Handler ω) (other : Handler υ) :
    Prop where
  name : h.name = other.name
  operations : Assoc.Alike (Operation.Alike debug worlds) h.operations other.operations
  close : ModuleCode.Alike debug worlds (fun _ _ => True) h.close other.close

/-- Registries that load alike. Why a namespace does not load is left open. -/
def Registry.Alike (debug : Bool) (worlds : ω → υ → Prop) (ctx : LoadContext) (r : Registry ω)
    (other : Registry υ) : Prop :=
  ∀ name, ModuleCode.Alike debug worlds
    (ResultAlike (fun _ _ => True) (Handler.Alike debug worlds)) (r.load ctx name)
    (other.load ctx name)

abbrev Registry.FactoryAlike (debug : Bool) (worlds : ω → υ → Prop) (factory : Factory ω)
    (fellow : Factory υ) : Prop :=
  ∀ ctx, ModuleCode.Alike debug worlds
    (ResultAlike (fun _ _ => True) (Handler.Alike debug worlds)) (factory ctx) (fellow ctx)

/-- Workshops that have loaded the same namespaces, with handlers that are alike. -/
structure Workshop.Alike (debug : Bool) (worlds : ω → υ → Prop) (w : Workshop ω) (v : Workshop υ) :
    Prop where
  modules : ModuleState.Alike worlds w.modules v.modules
  cache : Assoc.Alike (Handler.Alike debug worlds) w.cache v.cache
  order : w.order = v.order

/-! The same, up to a relation of the payloads that operations hand back. -/

section UpTo

variable (payloads : Payload ω → Payload υ → Prop) (debug : Bool) (worlds : ω → υ → Prop)

structure Operation.AlikeUpTo (op : Operation ω) (other : Operation υ) : Prop where
  name : op.name = other.name
  parameters : op.parameters = other.parameters
  returns : op.returns = other.returns
  invoke : ∀ arguments, ModuleCode.Alike debug worlds (ResultAlike (Raised.Alike debug) payloads)
    (op.invoke arguments) (other.invoke arguments)

structure Handler.AlikeUpTo (h : Handler ω) (other : Handler υ) : Prop where
  name : h.name = other.name
  operations : Assoc.Alike (Operation.AlikeUpTo payloads debug worlds) h.operations other.operations
  close : ModuleCode.Alike debug worlds (fun _ _ => True) h.close other.close

def Registry.AlikeUpTo (ctx : LoadContext) (r : Registry ω) (other : Registry υ) : Prop :=
  ∀ name, ModuleCode.Alike debug worlds
    (ResultAlike (fun _ _ => True) (Handler.AlikeUpTo payloads debug worlds)) (r.load ctx name)
    (other.load ctx name)

abbrev Registry.FactoryAlikeUpTo (factory : Factory ω) (fellow : Factory υ) : Prop :=
  ∀ ctx, ModuleCode.Alike debug worlds
    (ResultAlike (fun _ _ => True) (Handler.AlikeUpTo payloads debug worlds)) (factory ctx)
    (fellow ctx)

structure Workshop.AlikeUpTo (w : Workshop ω) (v : Workshop υ) : Prop where
  modules : ModuleState.Alike worlds w.modules v.modules
  cache : Assoc.Alike (Handler.AlikeUpTo payloads debug worlds) w.cache v.cache
  order : w.order = v.order

abbrev BatchCode.AlikeUpTo (answers : α → β → Prop) (m : BatchCode ω α) (n : BatchCode υ β) : Prop :=
  Activity.Alike (Workshop.AlikeUpTo payloads debug worlds) answers (Panic.Alike debug) m n

theorem Operation.alike_eq :
    Operation.Alike debug worlds = Operation.AlikeUpTo (Payload.Alike worlds) debug worlds := by
  funext op other
  apply propext
  constructor
  · rintro ⟨name, parameters, returns, invoke⟩
    exact ⟨name, parameters, returns, invoke⟩
  · rintro ⟨name, parameters, returns, invoke⟩
    exact ⟨name, parameters, returns, invoke⟩

theorem Handler.alike_eq :
    Handler.Alike debug worlds = Handler.AlikeUpTo (Payload.Alike worlds) debug worlds := by
  funext h other
  apply propext
  constructor
  · rintro ⟨name, operations, close⟩
    exact ⟨name, Operation.alike_eq debug worlds ▸ operations, close⟩
  · rintro ⟨name, operations, close⟩
    exact ⟨name, Operation.alike_eq debug worlds ▸ operations, close⟩

theorem Registry.alike_eq :
    Registry.Alike debug worlds = Registry.AlikeUpTo (Payload.Alike worlds) debug worlds := by
  funext ctx r other
  rw [Registry.Alike, Registry.AlikeUpTo, Handler.alike_eq]

theorem Registry.factoryAlike_eq :
    Registry.FactoryAlike debug worlds =
      Registry.FactoryAlikeUpTo (Payload.Alike worlds) debug worlds := by
  funext factory fellow
  rw [Registry.FactoryAlike, Registry.FactoryAlikeUpTo, Handler.alike_eq]

theorem Workshop.alike_eq :
    Workshop.Alike debug worlds = Workshop.AlikeUpTo (Payload.Alike worlds) debug worlds := by
  funext w v
  apply propext
  constructor
  · rintro ⟨modules, cache, order⟩
    exact ⟨modules, Handler.alike_eq debug worlds ▸ cache, order⟩
  · rintro ⟨modules, cache, order⟩
    exact ⟨modules, Handler.alike_eq debug worlds ▸ cache, order⟩

end UpTo

variable {payloads : Payload ω → Payload υ → Prop} {debug : Bool} {worlds : ω → υ → Prop}

namespace Handler

variable {h : Handler ω} {other : Handler υ}

theorem AlikeUpTo.listing_eq (alike : h.AlikeUpTo payloads debug worlds other) :
    h.listing = other.listing := by
  rw [listing, listing, operationNames, operationNames, alike.operations.keys_eq]

theorem AlikeUpTo.description_eq (alike : h.AlikeUpTo payloads debug worlds other) (name : String) :
    h.description name = other.description name := by
  have found := alike.operations.get? name
  rw [description, description, operation?, operation?]
  generalize h.operations.get? name = left at found ⊢
  generalize other.operations.get? name = right at found ⊢
  cases found with
  | none => rfl
  | some same => simp only [same.name, same.parameters, same.returns]

end Handler

theorem Handler.Alike.close_hook {h : Handler ω} {other : Handler υ} (name : h.name = other.name)
    (hooks : Option.Rel (fun hook fellow => ∀ name, ModuleCode.Alike debug worlds
      (fun _ _ => True) (hook name) (fellow name)) h.onClose other.onClose) :
    ModuleCode.Alike debug worlds (fun _ _ => True) h.close other.close := by
  rw [Handler.close, Handler.close, name]
  generalize h.onClose = left at hooks ⊢
  generalize other.onClose = right at hooks ⊢
  cases hooks with
  | none => exact Activity.alike_pure trivial
  | some same => exact same other.name

namespace Registry

variable {ctx : LoadContext} {r : Registry ω} {other : Registry υ}

theorem check_alike (name : String) {built : Except LoadError (Handler ω)}
    {fellow : Except LoadError (Handler υ)}
    (alike : ResultAlike (fun _ _ => True) (Handler.AlikeUpTo payloads debug worlds) built fellow) :
    ModuleCode.Alike debug worlds
      (ResultAlike (fun _ _ => True) (Handler.AlikeUpTo payloads debug worlds))
      (check name built) (check name fellow) := by
  cases alike with
  | error _ => exact Activity.alike_pure (.error trivial)
  | @ok h twin same =>
    rw [check, check, same.name]
    by_cases own : twin.name = name
    · rw [if_pos own, if_pos own]
      exact Activity.alike_pure (.ok same)
    · rw [if_neg own, if_neg own]
      exact same.close.bind fun _ _ _ => Activity.alike_pure (.error trivial)

theorem alikeUpTo_of_factories (routes : r.routes = other.routes)
    (factories : Assoc.Alike (FactoryAlikeUpTo payloads debug worlds) r.factories other.factories) :
    r.AlikeUpTo payloads debug worlds ctx other := by
  intro name
  have found := factories.get? name
  rw [load, load, manifest, manifest, routes]
  generalize r.factories.get? name = left at found ⊢
  generalize other.factories.get? name = right at found ⊢
  cases found with
  | none => exact Activity.alike_pure (.error trivial)
  | some same =>
    dsimp only
    split
    · exact Activity.alike_pure (.error trivial)
    · exact (same _).bind fun _ _ built => check_alike name built

/-- Registries of the same namespaces, in the same order and over the same routes, load alike. -/
theorem alike_of_factories (routes : r.routes = other.routes)
    (factories : Assoc.Alike (FactoryAlike debug worlds) r.factories other.factories) :
    r.Alike debug worlds ctx other := by
  rw [factoryAlike_eq] at factories
  rw [Registry.alike_eq]
  exact alikeUpTo_of_factories routes factories

end Registry

namespace Workshop

theorem start_alikeUpTo {order same : ClosingOrder} {world : ω} {other : υ} (orders : order = same)
    (related : worlds world other) :
    (start order world).AlikeUpTo payloads debug worlds (start same other) :=
  ⟨⟨related, rfl⟩, .nil, orders⟩

theorem start_alike {order same : ClosingOrder} {world : ω} {other : υ} (orders : order = same)
    (related : worlds world other) :
    (start order world).Alike debug worlds (start same other) :=
  ⟨⟨related, rfl⟩, .nil, orders⟩

theorem inModules_alike {answers : α → β → Prop} {m : ModuleCode ω α} {n : ModuleCode υ β}
    (alike : ModuleCode.Alike debug worlds answers m n) :
    BatchCode.AlikeUpTo payloads debug worlds answers (inModules m) (inModules n) :=
  Activity.Alike.within alike (fun _ _ related => related.modules)
    fun _ _ _ _ related modules => ⟨modules, related.cache, related.order⟩

theorem resolve_alike {ctx : LoadContext} {r : Registry ω} {other : Registry υ}
    (alike : r.AlikeUpTo payloads debug worlds ctx other) (name : String) :
    BatchCode.AlikeUpTo payloads debug worlds
      (ResultAlike (fun _ _ => True) (Handler.AlikeUpTo payloads debug worlds))
      (resolve r ctx name) (resolve other ctx name) := by
  refine Activity.alike_get.bind fun w v related => ?_
  -- related caches hold the same namespaces, so both sides load or neither does
  have found := related.cache.get? name
  generalize w.cache.get? name = left at found ⊢
  generalize v.cache.get? name = right at found ⊢
  cases found with
  | some same => exact Activity.alike_pure (.ok same)
  | none =>
    refine (inModules_alike (alike name)).bind fun loaded fellow same => ?_
    cases same with
    | error _ => exact (Activity.alike_record _ _).bind fun _ _ _ => Activity.alike_pure (.error trivial)
    | ok same =>
      refine (Activity.alike_modify fun w v related => ?_).bind fun _ _ _ =>
        Activity.alike_pure (.ok same)
      exact ⟨related.modules, related.cache.set name same, related.order⟩

theorem closeHandlers_alike {handlers : List (Handler ω)} {others : List (Handler υ)}
    (alike : List.Forall₂ (Handler.AlikeUpTo payloads debug worlds) handlers others) :
    BatchCode.AlikeUpTo payloads debug worlds (fun _ _ => True) (closeHandlers handlers)
      (closeHandlers others) := by
  induction alike with
  | nil => exact Activity.alike_pure trivial
  | cons first _ ih => exact (inModules_alike first.close).bind fun _ _ _ => ih

/-- Tables of the same namespaces are put in the same order. -/
theorem leaving_alike {w : Workshop ω} {v : Workshop υ}
    (related : w.AlikeUpTo payloads debug worlds v) :
    List.Forall₂ (Handler.AlikeUpTo payloads debug worlds) w.leaving v.leaving := by
  rw [leaving, leaving, related.order, related.cache.keys_eq, List.forall₂_map_left_iff,
    List.forall₂_map_right_iff]
  exact (related.cache.arrange _).imp fun _ _ same => same.2

theorem closeAll_alike :
    BatchCode.AlikeUpTo payloads debug worlds (fun _ _ => True) (closeAll (ω := ω))
      (closeAll (ω := υ)) := by
  refine Activity.alike_get.bind fun w v related => ?_
  refine (Activity.alike_modify fun w v related =>
    ⟨related.modules, .nil, related.order⟩).bind fun _ _ _ => ?_
  exact closeHandlers_alike (leaving_alike related)

end Workshop

/-- Sequences that give values which are related, pulled in workshops. -/
def Producer.AlikeIn (values : Json → Json → Prop) (workshops : Workshop ω → Workshop υ → Prop)
    (producer : Producer ω) (other : Producer υ) : Prop :=
  ∀ index, Activity.Alike workshops (ProducedAlike values) (fun _ _ => True)
    (Workshop.inModules (producer index)) (Workshop.inModules (other index))

theorem Producer.AlikeIn.pull {values : Json → Json → Prop}
    {workshops : Workshop ω → Workshop υ → Prop} {producer : Producer ω} {other : Producer υ}
    (alike : producer.AlikeIn values workshops other) (index : Nat) {w : Workshop ω}
    {v : Workshop υ} (related : workshops w v) :
    ResultAlike (fun _ _ => True) (ProducedAlike values) (producer.pull index w.modules).came
        (other.pull index v.modules).came ∧
      (producer.pull index w.modules).commands = (other.pull index v.modules).commands ∧
      workshops (w.moved (producer.next index w.modules))
        (v.moved (other.next index v.modules)) := by
  have courses := alike index w v related
  have sent := courses.commands_eq
  obtain ⟨came, moved⟩ := courses.ends
  simp only [Workshop.inModules, Activity.within, Course.outcome_mapState,
    Course.finalState_mapState, Course.commands_mapState] at came sent moved
  exact ⟨came, sent, moved⟩

section Told

variable {values : Json → Json → Prop} {workshops : Workshop ω → Workshop υ → Prop}
  {producer : Producer ω} {other : Producer υ} {w : Workshop ω} {v : Workshop υ}

theorem Producer.AlikeIn.pulls (alike : producer.AlikeIn values workshops other)
    (patience index : Nat) (related : workshops w v) :
    List.Forall₂ (Pull.Alike values) (producer.pulls patience index w.modules)
      (other.pulls patience index v.modules) := by
  induction patience generalizing index w v with
  | zero => exact .nil
  | succ patience ih =>
    obtain ⟨came, sent, moved⟩ := alike.pull index related
    have pull : Pull.Alike values (producer.pull index w.modules) (other.pull index v.modules) :=
      ⟨sent, came⟩
    rw [Producer.pulls, Producer.pulls, pull.isLast_eq]
    split
    · exact .cons pull .nil
    · exact .cons pull (ih (index + 1) moved)

theorem Producer.AlikeIn.after (alike : producer.AlikeIn values workshops other)
    (count index : Nat) (related : workshops w v) :
    workshops (w.moved (producer.after count index w.modules))
      (v.moved (other.after count index v.modules)) := by
  induction count generalizing index w v with
  | zero => exact related
  | succ count ih => exact ih (index + 1) (alike.pull index related).2.2

end Told

namespace EntryResult

/-- Results that fail alike or hold values that are related. -/
abbrev RelatedIn (values : Json → Json → Prop) (debug : Bool)
    (workshops : Workshop ω → Workshop υ → Prop) : EntryResult ω → EntryResult υ → Prop :=
  ResultAlike (Failure.Alike debug) (Payload.Related values (Producer.AlikeIn values workshops))

/-- Results that a client cannot tell apart. -/
abbrev Alike (debug : Bool) (workshops : Workshop ω → Workshop υ → Prop) :
    EntryResult ω → EntryResult υ → Prop :=
  RelatedIn (· = ·) debug workshops

theorem RelatedIn.emitted_eq {values : Json → Json → Prop}
    {workshops : Workshop ω → Workshop υ → Prop} {result : EntryResult ω} {fellow : EntryResult υ}
    (alike : result.RelatedIn values debug workshops fellow) : result.emitted = fellow.emitted := by
  cases alike with
  | error _ => rfl
  | ok same =>
    cases same with
    | value same => cases same <;> rfl
    | sequence _ => rfl

section Told

variable {values : Json → Json → Prop} {workshops : Workshop ω → Workshop υ → Prop}
  {result : EntryResult ω} {fellow : EntryResult υ} {w : Workshop ω} {v : Workshop υ}

theorem RelatedIn.pulls (alike : result.RelatedIn values debug workshops fellow) (patience : Nat)
    (related : workshops w v) :
    List.Forall₂ (Pull.Alike values) (result.pulls patience w.modules)
      (fellow.pulls patience v.modules) := by
  cases alike with
  | error _ => exact .nil
  | ok same =>
    cases same with
    | value _ => exact .nil
    | sequence same => exact same.pulls patience 0 related

theorem RelatedIn.after (alike : result.RelatedIn values debug workshops fellow) (count : Nat)
    (related : workshops w v) :
    workshops (w.moved (result.after count w.modules))
      (v.moved (fellow.after count v.modules)) := by
  cases alike with
  | error _ => exact related
  | ok same =>
    cases same with
    | value _ => exact related
    | sequence same => exact same.after count 0 related

end Told

theorem RelatedIn.of_modules {values : Json → Json → Prop} {result : EntryResult ω}
    {fellow : EntryResult υ} (alike : ResultAlike (Failure.Alike debug)
      (Payload.Related values (Producer.Alike values worlds)) result fellow) :
    result.RelatedIn values debug (Workshop.AlikeUpTo payloads debug worlds) fellow := by
  cases alike with
  | error same => exact .error same
  | ok same =>
    cases same with
    | value same => exact .ok (.value same)
    | sequence same =>
      refine .ok (.sequence fun index => ?_)
      exact Activity.Alike.within (same index) (fun _ _ related => related.modules)
        fun _ _ _ _ related modules => ⟨modules, related.cache, related.order⟩

theorem Alike.refl (debug : Bool) (result : EntryResult ω) :
    result.Alike debug (· = ·) result := by
  match result with
  | .error f => exact .error (.refl debug f)
  | .ok (.value json) => exact .ok (.value (.refl (fun _ => rfl) json))
  | .ok (.sequence producer) =>
    exact .ok (.sequence fun index => .refl (.refl fun _ => rfl) (fun _ => trivial) _)

end EntryResult

namespace Entry

variable {ctx : LoadContext} {r : Registry ω} {other : Registry υ}

/-- Results whose payloads are related. -/
abbrev ResultUpTo (payloads : Payload ω → Payload υ → Prop) (debug : Bool) :
    EntryResult ω → EntryResult υ → Prop :=
  ResultAlike (Failure.Alike debug) payloads

theorem failed_alike (f : Failure) :
    BatchCode.AlikeUpTo payloads debug worlds (ResultUpTo payloads debug) (return .error f)
      (return .error f) :=
  Activity.alike_pure (.error (.refl debug f))

theorem invoke_alike {h : Handler ω} {fellow : Handler υ}
    (alike : h.AlikeUpTo payloads debug worlds fellow) (name : String) (supplied : Members) :
    BatchCode.AlikeUpTo payloads debug worlds (ResultUpTo payloads debug) (invoke h name supplied)
      (invoke fellow name supplied) := by
  have found := alike.operations.get? name
  rw [invoke, invoke, Handler.operation?, Handler.operation?]
  generalize h.operations.get? name = left at found ⊢
  generalize fellow.operations.get? name = right at found ⊢
  cases found with
  | none => exact failed_alike _
  | @some op twin same =>
    dsimp only
    rw [same.name, same.parameters]
    cases Operation.bindArguments twin.name twin.parameters supplied with
    | error f => exact failed_alike f
    | ok arguments =>
      refine (Workshop.inModules_alike (same.invoke arguments)).bind fun _ _ came => ?_
      cases came with
      | ok payload => exact Activity.alike_pure (.ok payload)
      | error raised => exact Activity.alike_pure (.error (Failure.Alike.ofRaised raised))

/-- What a handler tells of itself is no payload of an operation, so it has to be related to itself. -/
theorem answer_alike (told : ∀ j, payloads (.json j) (.json j))
    (alike : r.AlikeUpTo payloads debug worlds ctx other) (call : Call) :
    BatchCode.AlikeUpTo payloads debug worlds (ResultUpTo payloads debug) (answer r ctx call)
      (answer other ctx call) := by
  refine (Workshop.resolve_alike alike call.namespaceName).bind fun _ _ resolved => ?_
  cases resolved with
  | error _ => exact Activity.alike_pure (.error (Failure.alike_shown debug _ _ _))
  | ok same =>
    dsimp only
    cases call.invocation with
    | list =>
      dsimp only
      rw [same.listing_eq]
      exact Activity.alike_pure (.ok (told _))
    | describe name =>
      dsimp only
      rw [same.description_eq]
      exact Activity.alike_pure (.ok (told _))
    | call name => exact invoke_alike same name call.arguments

theorem process_alikeUpTo (told : ∀ j, payloads (.json j) (.json j))
    (alike : r.AlikeUpTo payloads debug worlds ctx other) (id : String) (body : Json) :
    BatchCode.AlikeUpTo payloads debug worlds (ResultUpTo payloads debug) (process r ctx id body)
      (process other ctx id body) := by
  have attempted : BatchCode.AlikeUpTo payloads debug worlds (ResultUpTo payloads debug)
      (Entry.attempt r ctx id body) (Entry.attempt other ctx id body) := by
    rw [Entry.attempt, Entry.attempt]
    cases Call.ofEntry id body with
    | error f => exact failed_alike f
    | ok call => exact answer_alike told alike call
  refine attempted.attempt.bind fun _ _ came => ?_
  cases came with
  | ok same => exact Activity.alike_pure same
  | error same => exact Activity.alike_pure (.error (Failure.alike_ofPanic same))

/-- Entries are processed alike: whatever panics or fails on one side does so on the other, and
comes to a result that a client cannot tell from it. -/
theorem process_alike (alike : r.Alike debug worlds ctx other) (id : String) (body : Json) :
    Activity.Alike (Workshop.Alike debug worlds)
      (EntryResult.Alike debug (Workshop.Alike debug worlds)) (Panic.Alike debug)
      (process r ctx id body) (process other ctx id body) := by
  rw [Registry.alike_eq] at alike
  rw [Workshop.alike_eq]
  exact (process_alikeUpTo (fun j => .value (.ok rfl)) alike id body).weaken
    fun _ _ => EntryResult.RelatedIn.of_modules

end Entry
end Multicall
