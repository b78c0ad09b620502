import Multicall.Proofs.Account
import Multicall.Proofs.LikeRuns
/-!
What is asked of modules. Modules may run with a log beside their world, which their own code neither
sees nor changes. In a watched registry each call of a factory, each invocation of an operation and each
run of a close hook is noted there, with all it is given, before it happens. Watching a run changes
nothing in it, so the log at its end is what the run asked of its modules, in order.
-/
namespace Multicall

variable {ω α β : Type}

/-- A world, and a log beside it. -/
structure Logged (ε ω : Type) where
  world : ω
  log : List ε

section Logged

variable {ε : Type}

namespace Logged

def note (e : ε) : ModuleCode (Logged ε ω) Unit := Activity.modify fun m =>
  { m with world := { m.world with log := m.world.log ++ [e] } }

def note? : Option ε → ModuleCode (Logged ε ω) Unit
  | none => return ()
  | some e => note e

/-- Runs code on the world and leaves the log alone. -/
def unseen (code : ModuleCode ω α) : ModuleCode (Logged ε ω) α :=
  .within (fun m => ⟨m.world.world, m.nextStream⟩)
    (fun m inner => ⟨⟨inner.world, m.world.log⟩, inner.nextStream⟩) code

end Logged

/-- A payload whose sequence, if it is one, leaves the log alone while it is pulled. -/
def Payload.unseen : Payload ω → Payload (Logged ε ω)
  | .value json => .value json
  | .sequence producer => .sequence fun index => Logged.unseen (producer index)

def Operation.logged (noted : Arguments → Option ε) (op : Operation ω) :
    Operation (Logged ε ω) where
  name := op.name
  parameters := op.parameters
  returns := op.returns
  invoke arguments := do
    Logged.note? (noted arguments)
    return (← Logged.unseen (op.invoke arguments)).map Payload.unseen

def CloseHook.logged (noted : String → ε) (hook : CloseHook ω) : CloseHook (Logged ε ω) :=
  fun name => do
    Logged.note (noted name)
    Logged.unseen (hook name)

def Handler.logged (noted : Operation ω → Arguments → Option ε)
    (onClose : Option (CloseHook (Logged ε ω))) (h : Handler ω) : Handler (Logged ε ω) where
  name := h.name
  operations := h.operations.map fun entry => (entry.1, entry.2.logged (noted entry.2))
  onClose := onClose

theorem Handler.operation?_logged (noted : Operation ω → Arguments → Option ε)
    (onClose : Option (CloseHook (Logged ε ω))) (h : Handler ω) (name : String) :
    (h.logged noted onClose).operation? name =
      (h.operations.get? name).map fun op => op.logged (noted op) :=
  Assoc.get?_map (fun op : Operation ω => op.logged (noted op)) name h.operations

namespace Logged

/-- A world, and the same world with a log beside it. -/
def Beside (world : ω) (logged : Logged ε ω) : Prop := logged.world = world

variable {debug : Bool}

theorem unseen_alike {answers : α → α → Prop} {panics : Panic → Panic → Prop}
    (same : ∀ a, answers a a) (samePanic : ∀ p, panics p p) (code : ModuleCode ω α) :
    Activity.Alike (ModuleState.Alike (Beside (ε := ε))) answers panics code (unseen code) := by
  refine Activity.alike_beside same samePanic ?_ (fun _ _ => ⟨rfl, rfl⟩) code
  rintro ⟨_, _⟩ ⟨⟨_, _⟩, _⟩ ⟨worlds, streams⟩
  cases worlds
  cases streams
  rfl

/-- What is noted is no part of the world, so code with a note in front of it goes alike. -/
theorem note_alike {answers : α → β → Prop} (e : ε) {code : ModuleCode ω α}
    {rest : ModuleCode (Logged ε ω) β} (alike : ModuleCode.Alike debug Beside answers code rest) :
    ModuleCode.Alike debug Beside answers code (note e >>= fun _ => rest) :=
  fun m _ related => alike m _ ⟨related.world, related.nextStream⟩

/-- What is made of a result at the end changes nothing before it. -/
theorem unseen_map_alike {answers : α → β → Prop} {f : α → β} (same : ∀ a, answers a (f a))
    (code : ModuleCode ω α) :
    ModuleCode.Alike debug (Beside (ε := ε)) answers code (do return f (← unseen code)) := by
  have whole : code >>= pure = code := funext fun _ => Course.andThen_pure _
  have itself : ModuleCode.Alike debug (Beside (ε := ε)) (· = ·) code (unseen code) :=
    unseen_alike (fun _ => rfl) (Panic.Alike.refl debug) code
  have mapped : ModuleCode.Alike debug (Beside (ε := ε)) answers (code >>= pure)
      (unseen code >>= fun a => pure (f a)) := by
    refine itself.bind ?_
    rintro a _ rfl
    exact Activity.alike_pure (same a)
  rwa [whole] at mapped

theorem payload_alike (payload : Payload ω) :
    Payload.Alike (Beside (ε := ε)) payload payload.unseen := by
  cases payload with
  | value json => exact .value (.refl (fun _ => rfl) json)
  | sequence producer =>
    exact .sequence fun index => unseen_alike (.refl fun _ => rfl) (fun _ => trivial) _

theorem operation_alike (noted : Arguments → Option ε) (op : Operation ω) :
    op.Alike debug Beside (op.logged noted) where
  name := rfl
  parameters := rfl
  returns := rfl
  invoke arguments := by
    have unseen : ModuleCode.Alike debug (Beside (ε := ε))
        (ResultAlike (Raised.Alike debug) (Payload.Alike (Beside (ε := ε)))) (op.invoke arguments)
        (do return (← Logged.unseen (op.invoke arguments)).map Payload.unseen) := by
      refine unseen_map_alike (fun result => ?_) _
      cases result with
      | error raised => exact .error (.refl debug raised)
      | ok payload => exact .ok (payload_alike payload)
    show ModuleCode.Alike debug Beside _ _ (note? (noted arguments) >>= fun _ => _)
    cases noted arguments with
    | none => exact unseen
    | some e => exact note_alike e unseen

theorem hook_alike (noted : String → ε) (hook : CloseHook ω) (name : String) :
    ModuleCode.Alike debug Beside (fun _ _ => True) (hook name) (hook.logged noted name) :=
  note_alike _ (unseen_alike (fun _ => trivial) (Panic.Alike.refl debug) (hook name))

/-- It is enough that the handlers are given up alike. -/
theorem handler_alike (noted : Operation ω → Arguments → Option ε)
    {onClose : Option (CloseHook (Logged ε ω))} {h : Handler ω}
    (close : ModuleCode.Alike debug Beside (fun _ _ => True) h.close (h.logged noted onClose).close) :
    h.Alike debug Beside (h.logged noted onClose) where
  name := rfl
  operations := List.forall₂_map_right_iff.mpr
    (List.forall₂_same.mpr fun entry _ => ⟨rfl, operation_alike (noted entry.2) entry.2⟩)
  close := close

end Logged

end Logged

/-! What is asked of modules, as the entries of such a log. -/

inductive Request
  | load (context : ModuleContext)
  | invoke (namespaceName operation : String) (arguments : Arguments)
  | close (namespaceName : String)

abbrev Watched (ω : Type) := Logged Request ω

def Operation.watched (namespaceName : String) (op : Operation ω) : Operation (Watched ω) :=
  op.logged fun arguments => some (.invoke namespaceName op.name arguments)

def Handler.watched (h : Handler ω) : Handler (Watched ω) :=
  h.logged (fun op arguments => some (.invoke h.name op.name arguments))
    (h.onClose.map (CloseHook.logged .close))

def Factory.watched (factory : Factory ω) : Factory (Watched ω) := fun ctx => do
  Logged.note (.load ctx)
  return (← Logged.unseen (factory ctx)).map Handler.watched

def Registry.watched (r : Registry ω) : Registry (Watched ω) where
  factories := r.factories.map fun entry => (entry.1, Factory.watched entry.2)
  routes := r.routes

def Setting.watched (setting : Setting ω) : Setting (Watched ω) where
  registry := setting.registry.watched
  settings := setting.settings
  app := setting.app
  order := setting.order
  patience := setting.patience

def Batch.requests (setting : Setting ω) (world : ω) (body : Octets) (info : RequestInfo)
    (peer : Peer) (boundary : Boundary) : List Request :=
  (run setting.watched ⟨world, []⟩ body info peer boundary).state.workshop.modules.world.log

namespace Watched

variable {debug : Bool}

theorem handler_alike (h : Handler ω) : h.Alike debug Logged.Beside h.watched := by
  refine Logged.handler_alike _ (Handler.Alike.close_hook rfl ?_)
  show Option.Rel _ h.onClose (h.onClose.map (CloseHook.logged Request.close))
  cases h.onClose with
  | none => exact .none
  | some hook => exact .some (Logged.hook_alike Request.close hook)

theorem factory_alike (factory : Factory ω) :
    Registry.FactoryAlike debug Logged.Beside factory (Factory.watched factory) := by
  intro ctx
  refine Logged.note_alike _ (Logged.unseen_map_alike (fun built => ?_) _)
  cases built with
  | error e => exact .error trivial
  | ok h => exact .ok (handler_alike h)

theorem registry_alike (r : Registry ω) (ctx : LoadContext) :
    r.Alike debug Logged.Beside ctx r.watched :=
  Registry.alike_of_factories rfl (List.forall₂_map_right_iff.mpr
    (List.forall₂_same.mpr fun entry _ => ⟨rfl, factory_alike entry.2⟩))

theorem setting_alike (setting : Setting ω) :
    setting.Alike (Workshop.Alike setting.settings.debug Logged.Beside) setting.watched :=
  .of_registry rfl rfl rfl (registry_alike setting.registry _)

end Watched

namespace Batch

/-- Runs over modules that are alike make the same calls to a transport, end in the same way, and leave
worlds behind that are related again, and the same counts. -/
theorem run_alike_over_one_peer {υ : Type} {worlds : ω → υ → Prop} {setting : Setting ω}
    {other : Setting υ} (alike : setting.Alike (Workshop.Alike setting.settings.debug worlds) other)
    (orders : setting.order = other.order) {world : ω} {twin : υ} (related : worlds world twin)
    (body : Octets) (info : RequestInfo) (peer : Peer) (boundary : Boundary) :
    (run setting world body info peer boundary).Alike
      (fun s t => s.desk.writer.outlet.transport = t.desk.writer.outlet.transport ∧
        worlds s.workshop.modules.world t.workshop.modules.world ∧ s.summary = t.summary)
      (fun _ _ => True) (Panic.Alike setting.settings.debug)
      (run other twin body info peer boundary) := by
  have transports : Coupling.unlogged.together ⟨.start peer, false, 0, #[]⟩
      ⟨.start peer, false, 0, #[]⟩ := ⟨_, rfl⟩
  refine (run_alike Coupling.unlogged_inseparable alike (Workshop.start_alike orders related)
    transports body info boundary).weaken ?_ (fun _ _ same => same) fun _ _ same => same
  rintro s t ⟨⟨w, ⟨o, ⟨log, rfl⟩, rfl⟩, desk⟩ | parted, workshop, summary⟩
  · exact ⟨by rw [desk], workshop.modules.world, summary⟩
  · exact parted.elim

section Accounts

variable {υ : Type} {workshops : Workshop ω → Workshop υ → Prop} {setting : Setting ω}
  {other : Setting υ}

variable {c : Course (Workshop ω) (EntryResult ω)} {d : Course (Workshop υ) (EntryResult υ)}
  {debug : Bool} {panics : Panic → Panic → Prop}

theorem resultOf_alike (alike : c.Alike workshops (EntryResult.Alike debug workshops) panics d)
    (ended : c.outcome = .ok (resultOf c)) (endedToo : d.outcome = .ok (resultOf d)) :
    EntryResult.Alike debug workshops (resultOf c) (resultOf d) := by
  have ends := alike.ends.1
  rw [ended, endedToo] at ends
  cases ends with
  | ok same => exact same

theorem pulledBy_alike (alike : c.Alike workshops (EntryResult.Alike debug workshops) panics d)
    (same : EntryResult.Alike debug workshops (resultOf c) (resultOf d)) (count : Nat) :
    workshops (pulledBy c count) (pulledBy d count) :=
  same.after count alike.ends.2

theorem pulls_length_alike
    (alike : c.Alike workshops (EntryResult.Alike debug workshops) panics d)
    (same : EntryResult.Alike debug workshops (resultOf c) (resultOf d)) (patience : Nat) :
    ((resultOf c).pulls patience c.finalState.modules).length =
      ((resultOf d).pulls patience d.finalState.modules).length :=
  (same.pulls patience alike.ends.2).length_eq

/-- Entries that are processed alike leave workshops that are related again. -/
theorem reports_alike (alike : setting.Alike workshops other) (entries : Members) (w : Workshop ω)
    (v : Workshop υ) (related : workshops w v) :
    workshops (reports setting entries w).2 (reports other entries v).2 := by
  induction entries generalizing w v with
  | nil => exact related
  | cons entry rest ih =>
    obtain ⟨id, body⟩ := entry
    have courses := alike.process id body w v related
    rw [show Entry.process other.registry _ id body v = courseOf other id body v by
      rw [courseOf, alike.settings, alike.app]] at courses
    have same := resultOf_alike courses (courseOf_outcome setting id body w)
      (courseOf_outcome other id body v)
    refine ih _ _ ?_
    rw [leftBy, leftBy, ← alike.patience, ← pulls_length_alike courses same]
    exact pulledBy_alike courses same _

end Accounts

/-- What a run asks of its modules can be read off the account of the watched run. -/
theorem requests_eq (setting : Setting ω) (world : ω) (body : Octets) (info : RequestInfo)
    (peer : Peer) (boundary : Boundary) (takesAll : peer.TakesAll) :
    requests setting world body info peer boundary =
      (account setting.watched ⟨world, []⟩ body info).closing.finalState.modules.world.log := by
  obtain ⟨after, ran, -, reached, -⟩ :=
    run_comes setting.watched ⟨world, []⟩ body info peer boundary takesAll
  rw [requests, ran, Outcome.state_of, reached]

end Batch
end Multicall
