import Mathlib.Data.List.Forall2
import Mathlib.Data.Vector.Defs
import Multicall.Proofs.Suspension
/-!
How handlers are made. A factory may build any number of drafts on its way. What it builds it holds,
until it hands one handler over or gives it up; whatever is still held when it leaves, by an error or by
a panic too, is given up then. So a handler is never forgotten, and this is how every factory is written
that has nothing but owners to keep its handlers in.
-/
namespace Multicall

variable {ω : Type}

/-- Whether giving up the handler of a draft waits for nothing. -/
def Draft.ClosesPromptly (d : Draft ω) : Prop :=
  ∀ hook, d.onClose = some hook → ∀ name m, (hook name m).IsPrompt

/-- What a factory does while it holds so many handlers, which are told by their places. It waits for
nothing, and it cannot hold what it has given up or handed over. -/
inductive Making (ω : Type) : Nat → Type 1
  | does {n : Nat} {α : Type} (code : ModuleCode ω α) (prompt : ∀ m, (code m).IsPrompt)
      (next : α → Making ω n) : Making ω n
  | builds {n : Nat} (draft : Draft ω) (prompt : draft.ClosesPromptly)
      (refused : LoadError → Making ω n) (built : Making ω (n + 1)) : Making ω n
  | drops {n : Nat} (place : Fin n) (next : Making ω (n - 1)) : Making ω n
  | hands {n : Nat} (place : Fin n) : Making ω n
  | fails {n : Nat} (error : LoadError) : Making ω n

namespace Making

/-- Gives up handlers one after the other, whatever panics on the way; the first panic is kept. -/
def release : List (Handler ω) → ModuleCode ω (Except Panic Unit)
  | [] => return .ok ()
  | handler :: rest => do
      let came ← handler.close.attempt
      let later ← release rest
      return came.bind fun _ => later

/-- Leaves a factory: what is still held is given up, and a panic goes on. If it is giving up that
panics, the handler on its way out is given up as well. -/
def leave (held : List (Handler ω)) (result : Except Panic (Except LoadError (Handler ω))) :
    ModuleCode ω (Except LoadError (Handler ω)) := do
  match result, ← release held with
  | .error p, _ => Activity.panic p
  | .ok built, .ok () => return built
  | .ok built, .error p =>
      let _ ← release built.toOption.toList
      Activity.panic p

/-- Goes on with the handlers that are held, of which the newest is the first. -/
def go : {n : Nat} → Making ω n → List.Vector (Handler ω) n →
    ModuleCode ω (Except LoadError (Handler ω))
  | _, .does code _ next, held => do
      match ← code.attempt with
      | .ok a => (next a).go held
      | .error p => leave held.toList (.error p)
  | _, .builds draft _ refused built, held =>
      match draft.build with
      | .ok handler => built.go (held.cons handler)
      | .error e => (refused e).go held
  | _, .drops place next, held => do
      match ← (held.get place).close.attempt with
      | .ok _ => next.go (held.eraseIdx place)
      | .error p => leave (held.eraseIdx place).toList (.error p)
  | _, .hands place, held => leave (held.eraseIdx place).toList (.ok (.ok (held.get place)))
  | _, .fails e, held => leave held.toList (.ok (.error e))

theorem go_does {n : Nat} {α : Type} (code : ModuleCode ω α) (prompt : ∀ m, (code m).IsPrompt)
    (next : α → Making ω n) (held : List.Vector (Handler ω) n) :
    (Making.does code prompt next).go held = (code.attempt >>= fun came => match came with
      | .ok a => (next a).go held
      | .error p => leave held.toList (.error p)) := by
  rw [go]

/-- Nothing is held when a factory begins. -/
def factory (making : ModuleContext → Making ω 0) : Factory ω := fun ctx => (making ctx).go .nil

end Making

/-- Modules that make their handlers so, and what a batch over them is given. -/
structure Works (ω : Type) where
  makers : List (String × (ModuleContext → Making ω 0))
  routes : Option RouteDirectory
  settings : BatchSettings
  app : AppContext
  order : ClosingOrder
  patience : Nat

def Works.setting (works : Works ω) : Setting ω where
  registry := ⟨works.makers.map fun maker => (maker.1, Making.factory maker.2), works.routes⟩
  settings := works.settings
  app := works.app
  order := works.order
  patience := works.patience

/-! What is built and given up, in order. -/

/-- A draft is told by its number, a run of a close hook also by the name that the hook is given. -/
inductive Deed
  | refused (number : Nat) (name : String)
  | built (number : Nat) (name : String)
  | closed (number : Nat) (name : String)
  deriving DecidableEq, Repr

namespace Deed

def isDraft : Deed → Bool
  | .refused _ _ | .built _ _ => true
  | .closed _ _ => false

/-- The draft that this is about. -/
def number : Deed → Nat
  | .refused number _ | .built number _ | .closed number _ => number

end Deed

/-- Drafts are numbered in the order in which they are built, from zero on. -/
def drafts (deeds : List Deed) : Nat := deeds.countP Deed.isDraft

abbrev Tracked (ω : Type) := Logged Deed ω

/-- The number of the next draft. -/
def Tracked.number : ModuleCode (Tracked ω) Nat := fun m => .ended (.ok (drafts m.world.log)) m

def Operation.tracked (op : Operation ω) : Operation (Tracked ω) := op.logged fun _ => none

/-- A hook that is noted when it runs; where there is none, giving up is noted all the same. -/
def CloseHook.tracked (number : Nat) (onClose : Option (CloseHook ω)) : CloseHook (Tracked ω) :=
  CloseHook.logged (.closed number) (onClose.getD fun _ => return ())

def Handler.tracked (number : Nat) (h : Handler ω) : Handler (Tracked ω) :=
  h.logged (fun _ _ => none) (some (CloseHook.tracked number h.onClose))

def Draft.tracked (number : Nat) (d : Draft ω) : Draft (Tracked ω) where
  name := d.name
  operations := d.operations.map Operation.tracked
  onClose := some (CloseHook.tracked number d.onClose)

namespace Course

variable {σ τ α β : Type}

theorem IsPrompt.mapState {c : Course σ α} (prompt : c.IsPrompt) (f : σ → τ) :
    (c.mapState f).IsPrompt := by
  induction c with
  | ended outcome s => trivial
  | send _ _ ih | record _ _ ih => exact ih prompt
  | suspend _ _ _ => exact prompt.elim

end Course

namespace Logged

variable {ε α : Type}

theorem note_prompt (e : ε) (m : ModuleState (Logged ε ω)) : Course.IsPrompt (note e m) := trivial

theorem unseen_prompt {code : ModuleCode ω α} (prompt : ∀ m, (code m).IsPrompt)
    (m : ModuleState (Logged ε ω)) : Course.IsPrompt (unseen code m) :=
  (prompt _).mapState _

end Logged

theorem Tracked.number_prompt (m : ModuleState (Tracked ω)) : Course.IsPrompt (number m) := trivial

theorem Draft.ClosesPromptly.tracked {d : Draft ω} (prompt : d.ClosesPromptly) (number : Nat) :
    (d.tracked number).ClosesPromptly := by
  rintro _ ⟨⟩ name m
  show Course.IsPrompt (CloseHook.tracked number d.onClose name m)
  cases hooked : d.onClose with
  | none => trivial
  | some hook => exact Logged.unseen_prompt (prompt hook hooked name) _

/-- A making that notes what becomes of its drafts, and does the same otherwise. -/
def Making.tracked : {n : Nat} → Making ω n → Making (Tracked ω) n
  | _, .does code prompt next =>
      .does (Logged.unseen code) (Logged.unseen_prompt prompt) fun a => (next a).tracked
  | _, .builds draft prompt refused built =>
      .does Tracked.number Tracked.number_prompt fun number =>
        .builds (draft.tracked number) (prompt.tracked number)
          (fun e => .does (Logged.note (.refused number draft.name)) (Logged.note_prompt _)
            fun _ => (refused e).tracked)
          (.does (Logged.note (.built number draft.name)) (Logged.note_prompt _)
            fun _ => built.tracked)
  | _, .drops place next => .drops place next.tracked
  | _, .hands place => .hands place
  | _, .fails e => .fails e

def Works.tracked (works : Works ω) : Works (Tracked ω) where
  makers := works.makers.map fun maker => (maker.1, fun ctx => (maker.2 ctx).tracked)
  routes := works.routes
  settings := works.settings
  app := works.app
  order := works.order
  patience := works.patience

/-- What a run builds and gives up. -/
def Batch.deeds (works : Works ω) (world : ω) (body : Octets) (info : RequestInfo) (peer : Peer)
    (boundary : Boundary) : List Deed :=
  (run works.tracked.setting ⟨world, []⟩ body info peer
    boundary).state.workshop.modules.world.log

theorem Tracked.handler_alike {debug : Bool} (number : Nat) (h : Handler ω) :
    h.Alike debug Logged.Beside (h.tracked number) := by
  refine Logged.handler_alike _ ?_
  rw [Handler.close]
  show ModuleCode.Alike debug Logged.Beside _ _ (CloseHook.tracked number h.onClose h.name)
  cases h.onClose with
  | none => exact Logged.hook_alike (Deed.closed number) (fun _ => return ()) h.name
  | some hook => exact Logged.hook_alike (Deed.closed number) hook h.name

namespace Draft

/-- The table of a draft that is tracked is the table of the draft, tracked. -/
theorem enter_tracked (name : String) (table : Assoc (Operation ω))
    (operations : List (Operation ω)) :
    enter name (table.map fun entry => (entry.1, entry.2.tracked))
        (operations.map Operation.tracked) =
      (enter name table operations).map (List.map fun entry => (entry.1, entry.2.tracked)) := by
  induction operations generalizing table with
  | nil => rfl
  | cons op rest ih =>
    have known : (Assoc.get? op.name (table.map fun entry => (entry.1, entry.2.tracked))).isSome =
        (table.get? op.name).isSome := by
      rw [Assoc.get?_map, Option.isSome_map]
    have entered : Assoc.set op.name op.tracked
        (table.map fun entry => (entry.1, entry.2.tracked)) =
        (table.set op.name op).map fun entry => (entry.1, entry.2.tracked) :=
      Assoc.set_map Operation.tracked op.name op table
    rw [List.map_cons, enter, enter, show op.tracked.name = op.name from rfl, known]
    by_cases callable : isCallable op.name = true
    · by_cases twice : (table.get? op.name).isSome = true
      · rw [if_neg (by simp [callable]), if_pos twice, if_neg (by simp [callable]), if_pos twice]
        rfl
      · rw [if_neg (by simp [callable]), if_neg twice, if_neg (by simp [callable]), if_neg twice,
          entered]
        exact ih _
    · rw [if_pos (by simp [callable]), if_pos (by simp [callable])]
      rfl

/-- A draft and the draft that is tracked are built alike. -/
theorem build_tracked (number : Nat) (d : Draft ω) :
    (d.tracked number).build = d.build.map (Handler.tracked number) := by
  have table := enter_tracked d.name [] d.operations
  rw [List.map_nil] at table
  rw [build, build, tracked, table]
  cases enter d.name [] d.operations <;> rfl

end Draft

/-! Handlers that are held, place by place. -/

section Held

variable {α β : Type} {n : Nat} {R : α → β → Prop} {xs : List.Vector α n} {ys : List.Vector β n}

theorem forall₂_get (related : List.Forall₂ R xs.toList ys.toList) (place : Fin n) :
    R (xs.get place) (ys.get place) := by
  obtain ⟨xs, rfl⟩ := xs
  obtain ⟨ys, same⟩ := ys
  exact related.get place.isLt (Nat.lt_of_lt_of_eq place.isLt same.symm)

theorem forall₂_eraseIdx (related : List.Forall₂ R xs.toList ys.toList) (place : Fin n) :
    List.Forall₂ R (xs.eraseIdx place).toList (ys.eraseIdx place).toList := by
  obtain ⟨xs, rfl⟩ := xs
  obtain ⟨ys, same⟩ := ys
  show List.Forall₂ R (xs.eraseIdx place) (ys.eraseIdx place)
  rw [List.eraseIdx_eq_take_drop_succ, List.eraseIdx_eq_take_drop_succ]
  exact List.rel_append (List.forall₂_take _ related) (List.forall₂_drop _ related)

end Held

namespace Making

variable {debug : Bool}

theorem release_alike {held : List (Handler ω)} {others : List (Handler (Tracked ω))}
    (alike : List.Forall₂ (Handler.Alike debug Logged.Beside) held others) :
    ModuleCode.Alike debug Logged.Beside (ResultAlike (Panic.Alike debug) fun _ _ => True)
      (release held) (release others) := by
  induction alike with
  | nil => exact Activity.alike_pure (.ok trivial)
  | @cons h other held others first _ ih =>
    have attempted : ModuleCode.Alike debug Logged.Beside
        (ResultAlike (Panic.Alike debug) fun _ _ => True) h.close.attempt other.close.attempt :=
      first.close.attempt
    refine attempted.bind fun came twin same => ih.bind fun later fellow agreed => ?_
    refine Activity.alike_pure ?_
    cases same with
    | error same => exact .error same
    | ok _ => exact agreed

theorem leave_alike {held : List (Handler ω)} {others : List (Handler (Tracked ω))}
    (alike : List.Forall₂ (Handler.Alike debug Logged.Beside) held others)
    {result : Except Panic (Except LoadError (Handler ω))}
    {fellow : Except Panic (Except LoadError (Handler (Tracked ω)))}
    (same : ResultAlike (Panic.Alike debug)
      (ResultAlike (fun _ _ => True) (Handler.Alike debug Logged.Beside)) result fellow) :
    ModuleCode.Alike debug Logged.Beside
      (ResultAlike (fun _ _ => True) (Handler.Alike debug Logged.Beside))
      (leave held result) (leave others fellow) := by
  apply (release_alike alike).bind
  intro came twin agreed
  cases same with
  | error agree => exact Activity.alike_panic agree
  | @ok built other same =>
    cases agreed with
    | ok _ => exact Activity.alike_pure same
    | error agree =>
      have way_out : List.Forall₂ (Handler.Alike debug Logged.Beside) built.toOption.toList
          other.toOption.toList := by
        cases same with
        | error _ => exact .nil
        | ok same => exact .cons same .nil
      exact (release_alike way_out).bind fun _ _ _ => Activity.alike_panic agree

/-- What is noted on the way makes no difference to how a making goes on. -/
theorem noted_go_alike {n : Nat} {code : ModuleCode ω (Except LoadError (Handler ω))} (d : Deed)
    (next : Making (Tracked ω) n) {held : List.Vector (Handler (Tracked ω)) n}
    (alike : ModuleCode.Alike debug Logged.Beside
      (ResultAlike (fun _ _ => True) (Handler.Alike debug Logged.Beside)) code (next.go held)) :
    ModuleCode.Alike debug Logged.Beside
      (ResultAlike (fun _ _ => True) (Handler.Alike debug Logged.Beside)) code
      ((Making.does (Logged.note d) (Logged.note_prompt d) fun _ => next).go held) := by
  rw [go_does]
  exact fun m _ related => alike m _ ⟨related.world, related.nextStream⟩

/-- Makings that hold handlers that are alike go alike, tracked or not. -/
theorem go_alike {n : Nat} (making : Making ω n) {held : List.Vector (Handler ω) n}
    {others : List.Vector (Handler (Tracked ω)) n}
    (alike : List.Forall₂ (Handler.Alike debug Logged.Beside) held.toList others.toList) :
    ModuleCode.Alike debug Logged.Beside
      (ResultAlike (fun _ _ => True) (Handler.Alike debug Logged.Beside))
      (making.go held) (making.tracked.go others) := by
  induction making with
  | does code prompt next ih =>
    have went : ModuleCode.Alike debug Logged.Beside (· = ·) code
        (Logged.unseen code : ModuleCode (Tracked ω) _) :=
      Logged.unseen_alike (fun _ => rfl) (Panic.Alike.refl debug) code
    have attempted : ModuleCode.Alike debug Logged.Beside
        (ResultAlike (Panic.Alike debug) (· = ·)) code.attempt
        (Logged.unseen code : ModuleCode (Tracked ω) _).attempt := went.attempt
    rw [Making.tracked, go_does, go_does]
    refine attempted.bind ?_
    intro came twin same
    cases same with
    | ok same => exact same ▸ ih _ alike
    | error same => exact leave_alike alike (.error same)
  | builds draft prompt refused built ihRefused ihBuilt =>
    -- the number is only looked at, so what follows can be compared number by number
    have numbered (number : Nat) : ModuleCode.Alike debug Logged.Beside
        (ResultAlike (fun _ _ => True) (Handler.Alike debug Logged.Beside))
        ((Making.builds draft prompt refused built).go held)
        ((Making.builds (draft.tracked number) (prompt.tracked number)
          (fun e => .does (Logged.note (.refused number draft.name)) (Logged.note_prompt _)
            fun _ => (refused e).tracked)
          (.does (Logged.note (.built number draft.name)) (Logged.note_prompt _)
            fun _ => built.tracked)).go others) := by
      rw [go, go, Draft.build_tracked]
      cases draft.build with
      | error e => exact noted_go_alike _ _ (ihRefused e alike)
      | ok h =>
        exact noted_go_alike _ _ (ihBuilt (.cons (Tracked.handler_alike number h) alike))
    rw [Making.tracked, go_does]
    exact fun m t related => numbered (drafts t.world.log) m t related
  | drops place next ih =>
    have attempted : ModuleCode.Alike debug Logged.Beside
        (ResultAlike (Panic.Alike debug) fun _ _ => True)
        (held.get place).close.attempt (others.get place).close.attempt :=
      (forall₂_get alike place).close.attempt
    refine attempted.bind ?_
    intro came twin same
    cases same with
    | ok _ => exact ih (forall₂_eraseIdx alike place)
    | error same => exact leave_alike (forall₂_eraseIdx alike place) (.error same)
  | hands place =>
    exact leave_alike (forall₂_eraseIdx alike place) (.ok (.ok (forall₂_get alike place)))
  | fails e => exact leave_alike alike (.ok (.error trivial))

theorem factory_alike (making : ModuleContext → Making ω 0) :
    Registry.FactoryAlike debug Logged.Beside (factory making)
      (factory fun ctx => (making ctx).tracked) :=
  fun ctx => go_alike (making ctx) .nil

end Making

theorem Works.setting_alike (works : Works ω) :
    works.setting.Alike (Workshop.Alike works.setting.settings.debug Logged.Beside)
      works.tracked.setting := by
  have registries (ctx : LoadContext) : works.setting.registry.Alike works.settings.debug
      Logged.Beside ctx works.tracked.setting.registry := by
    refine Registry.alike_of_factories rfl ?_
    show List.Forall₂ _ (works.makers.map _) ((works.makers.map _).map _)
    rw [List.map_map, List.forall₂_map_left_iff, List.forall₂_map_right_iff, List.forall₂_same]
    exact fun maker _ => ⟨rfl, Making.factory_alike maker.2⟩
  exact .of_registry rfl rfl rfl (registries _)

/-- A tracked run is the run itself, but for the log. -/
theorem Batch.tracking_changes_nothing (works : Works ω) (world : ω) (body : Octets)
    (info : RequestInfo) (peer : Peer) (boundary : Boundary) :
    (run works.setting world body info peer boundary).Alike
      (fun s t => s.desk.writer.outlet.transport = t.desk.writer.outlet.transport ∧
        t.workshop.modules.world.world = s.workshop.modules.world ∧ s.summary = t.summary)
      (fun _ _ => True) (Panic.Alike works.settings.debug)
      (run works.tracked.setting ⟨world, []⟩ body info peer boundary) := by
  have worlds : Logged.Beside world (⟨world, []⟩ : Tracked ω) := rfl
  exact run_alike_over_one_peer works.setting_alike rfl worlds body info peer boundary

end Multicall
