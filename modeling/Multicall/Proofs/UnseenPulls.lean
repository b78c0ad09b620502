import Multicall.Proofs.Requests
/-!
Sequences of which no one can tell how far they have been pulled. Once a transport has failed a sequence
is pulled no more, so what its code does to the world of the modules depends on the transport. Whether
that can be told elsewhere is up to the modules: worlds may be related that differ in what only
sequences look at. Runs over modules that cannot tell stay in step, whatever becomes of the transport.
-/
namespace Multicall

variable {ω υ ε α β : Type} {debug : Bool} {worlds : ω → υ → Prop}

/-- Sequences that are alike, and no worlds are told apart by pulling one of them alone. -/
structure Producer.Unseen (worlds : ω → υ → Prop) (producer : Producer ω) (other : Producer υ) :
    Prop where
  alike : producer.Alike (· = ·) worlds other
  left : ∀ index m n, ModuleState.Alike worlds m n →
    ModuleState.Alike worlds (producer.next index m) n
  right : ∀ index m n, ModuleState.Alike worlds m n →
    ModuleState.Alike worlds m (other.next index n)

/-- Payloads that hold the same values, or sequences whose pulls are unseen. -/
abbrev Payload.Unseen (worlds : ω → υ → Prop) : Payload ω → Payload υ → Prop :=
  Payload.Related (· = ·) (Producer.Unseen worlds)

structure Handler.PullsUnseen (debug : Bool) (worlds : ω → υ → Prop) (h : Handler ω)
    (other : Handler υ) : Prop where
  alike : h.AlikeUpTo (Payload.Unseen worlds) debug worlds other
  hooked : Option.Rel (fun hook fellow => ∀ name, ModuleCode.Alike debug worlds (fun _ _ => True)
    (hook name) (fellow name)) h.onClose other.onClose

def Factory.PullsUnseen (debug : Bool) (worlds : ω → υ → Prop) (factory : Factory ω)
    (fellow : Factory υ) : Prop :=
  ∀ ctx, ModuleCode.Alike debug worlds
    (ResultAlike (fun _ _ => True) (Handler.PullsUnseen debug worlds)) (factory ctx) (fellow ctx)

/-- The modules cannot tell related worlds apart, and pulling a sequence leaves worlds related. -/
def Setting.PullsUnseen (worlds : ω → ω → Prop) (setting : Setting ω) : Prop :=
  ∀ entry ∈ setting.registry.factories,
    Factory.PullsUnseen setting.settings.debug worlds entry.2 entry.2

theorem Factory.PullsUnseen.alike {factory : Factory ω} {fellow : Factory υ}
    (unseen : Factory.PullsUnseen debug worlds factory fellow) :
    Registry.FactoryAlikeUpTo (Payload.Unseen worlds) debug worlds factory fellow :=
  fun ctx => (unseen ctx).weaken fun _ _ same => same.weaken fun _ _ unseen => unseen.alike

namespace EntryResult

variable {payloads : Payload ω → Payload υ → Prop} {result : EntryResult ω} {fellow : EntryResult υ}

theorem alike_of_unseen
    (unseen : ResultAlike (Failure.Alike debug) (Payload.Unseen worlds) result fellow) :
    result.RelatedIn (· = ·) debug (Workshop.AlikeUpTo payloads debug worlds) fellow := by
  refine .of_modules (unseen.weaken fun _ _ same => ?_)
  cases same with
  | value same => exact .value same
  | sequence same => exact .sequence same.alike

theorem alone_of_unseen
    (unseen : ResultAlike (Failure.Alike debug) (Payload.Unseen worlds) result fellow) :
    result.AloneIn (Workshop.AlikeUpTo payloads debug worlds) fellow := by
  rintro producer other rfl rfl
  cases unseen with
  | ok same =>
    cases same with
    | sequence same =>
      exact fun index w v related =>
        ⟨⟨same.left index _ _ related.modules, related.cache, related.order⟩,
          ⟨same.right index _ _ related.modules, related.cache, related.order⟩⟩

end EntryResult

namespace Setting.PullsUnseen

variable {setting : Setting ω} {worlds : ω → ω → Prop}

theorem inStep (unseen : setting.PullsUnseen worlds) (c : Coupling) :
    setting.InStep c (Workshop.AlikeUpTo (Payload.Unseen worlds) setting.settings.debug worlds)
      setting where
  settings := rfl
  turn id body := by
    have registry : setting.registry.AlikeUpTo (Payload.Unseen worlds) setting.settings.debug worlds
        ⟨setting.settings, setting.app, ⟨true⟩⟩ setting.registry :=
      Registry.alikeUpTo_of_factories rfl
        (List.forall₂_same.mpr fun entry among => ⟨rfl, (unseen entry among).alike⟩)
    exact Session.takeTurn_of_results rfl rfl
      (Entry.process_alikeUpTo (fun _ => .value (.ok rfl)) registry id body) fun _ _ same =>
        Session.emit_matches (fun _ _ => congrArg Json.withoutPrivate)
          (EntryResult.alike_of_unseen same) (.inr (EntryResult.alone_of_unseen same)) _ id
  closeAll := Workshop.closeAll_alike

end Setting.PullsUnseen

/-! Where pulling leaves the modules as they are, no pull can be seen. -/

/-- Pulling changes nothing in the modules. -/
def Producer.Still (producer : Producer ω) : Prop := ∀ index m, producer.next index m = m

/-- All sequences that the operations of a handler hand back are still. -/
def Handler.PullsStill (h : Handler ω) : Prop :=
  ∀ entry ∈ h.operations, ∀ arguments m producer,
    (entry.2.invoke arguments m).outcome = .ok (.ok (.sequence producer)) → producer.Still

/-- All handlers that load pull still sequences only. -/
def Setting.PullsStill (setting : Setting ω) : Prop :=
  ∀ entry ∈ setting.registry.factories, ∀ ctx m handler,
    (entry.2 ctx m).outcome = .ok (.ok handler) → handler.PullsStill

theorem ModuleCode.alike_itself {answers : α → α → Prop} {code : ModuleCode ω α}
    (answer : ∀ m a, (code m).outcome = .ok a → answers a a) :
    ModuleCode.Alike debug (· = ·) answers code code := by
  rintro m ⟨_, _⟩ ⟨rfl, rfl⟩
  exact .itself (fun _ => ⟨rfl, rfl⟩) (answer m) (Panic.Alike.refl debug)

theorem Producer.Still.unseen {producer : Producer ω} (still : producer.Still) :
    producer.Unseen (· = ·) producer where
  alike _ := by
    rintro m ⟨_, _⟩ ⟨rfl, rfl⟩
    exact .refl (fun _ => ⟨rfl, rfl⟩) (.refl fun _ => rfl) (fun _ => trivial) _
  left index m n related := by rwa [still]
  right index m n related := by rwa [still]

theorem Handler.PullsStill.unseen {h : Handler ω} (still : h.PullsStill) (debug : Bool) :
    h.PullsUnseen debug (· = ·) h := by
  have hooks : Option.Rel (fun hook fellow => ∀ name, ModuleCode.Alike debug (· = ·)
      (fun _ _ => True) (hook name) (fellow name)) h.onClose h.onClose := by
    cases h.onClose with
    | none => exact .none
    | some hook => exact .some fun name => ModuleCode.alike_itself fun _ _ _ => trivial
  refine ⟨⟨rfl, List.forall₂_same.mpr fun entry among => ⟨rfl, rfl, rfl, rfl, fun arguments => ?_⟩,
    Handler.Alike.close_hook rfl hooks⟩, hooks⟩
  refine ModuleCode.alike_itself fun m answer came => ?_
  match answer with
  | .error raised => exact .error (.refl debug raised)
  | .ok (.value json) => exact .ok (.value (.refl (fun _ => rfl) json))
  | .ok (.sequence producer) =>
    exact .ok (.sequence (still entry among arguments m producer came).unseen)

theorem Setting.PullsStill.unseen {setting : Setting ω} (still : setting.PullsStill) :
    setting.PullsUnseen (· = ·) := by
  intro entry among ctx
  refine ModuleCode.alike_itself fun m built came => ?_
  match built with
  | .error _ => exact .error trivial
  | .ok handler => exact .ok ((still entry among ctx m handler came).unseen _)

/-! The same with a log beside the world, which both sides write alike. -/

namespace Logged

end Logged

namespace Watched

end Watched
end Multicall
