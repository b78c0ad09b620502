import Multicall.Module.Registry
/-!
From namespaces to handlers within one batch. A handler is loaded once and then kept; a load that
fails is not kept, so a later entry that names the namespace tries again.
-/
namespace Multicall

/-- The order in which a table of handlers gives them up: for the names of all of them, the rank of
each. Handlers of one rank go in the order in which they were loaded. The table that the handlers are
kept in promises no order, so results hold for each. -/
abbrev ClosingOrder := List String → String → Nat

/-- What the entries of a batch share: the state of the modules, and the handlers loaded so far. -/
structure Workshop (ω : Type) where
  modules : ModuleState ω
  cache : Assoc (Handler ω)
  order : ClosingOrder

/-- Code that runs while an entry is processed. -/
abbrev BatchCode (ω α : Type) := Activity (Workshop ω) α

namespace Workshop

variable {ω : Type}

def start (order : ClosingOrder) (world : ω) : Workshop ω := ⟨⟨world, 0⟩, [], order⟩

def inModules {α : Type} (code : ModuleCode ω α) : BatchCode ω α :=
  .within Workshop.modules (fun w m => { w with modules := m }) code

/-- The handler of a namespace. -/
def resolve (registry : Registry ω) (ctx : LoadContext) (name : String) :
    BatchCode ω (Except LoadError (Handler ω)) := do
  match (← Activity.get).cache.get? name with
  | some handler => return .ok handler
  | none =>
      match ← inModules (registry.load ctx name) with
      | .ok handler =>
          Activity.modify fun w => { w with cache := w.cache.set name handler }
          return .ok handler
      | .error e =>
          Activity.record (.unresolved name e)
          return .error e

/-- What becomes of a namespace that has been loaded, or has not. -/
def keep (name : String) (built : Except LoadError (Handler ω)) :
    BatchCode ω (Except LoadError (Handler ω)) := do
  match built with
  | .ok handler =>
      Activity.modify fun w => { w with cache := w.cache.set name handler }
      return .ok handler
  | .error e =>
      Activity.record (.unresolved name e)
      return .error e

section Resolve

variable {r : Registry ω} {ctx : LoadContext} {name : String} {w : Workshop ω}

theorem resolve_eq : resolve r ctx name w = (match w.cache.get? name with
    | some handler => pure (Except.ok handler)
    | none => inModules (r.load ctx name) >>= keep name) w :=
  rfl

theorem resolve_of_kept {h : Handler ω} (found : w.cache.get? name = some h) :
    resolve r ctx name w = .ended (.ok (.ok h)) w := by
  rw [resolve_eq, found]
  rfl

theorem resolve_of_absent (absent : w.cache.get? name = none) :
    resolve r ctx name w = (inModules (r.load ctx name) w).andThen (keep name) := by
  rw [resolve_eq, absent]
  rfl

end Resolve

/-- Gives handlers up, one after the other. -/
def closeHandlers : List (Handler ω) → BatchCode ω Unit
  | [] => return ()
  | handler :: rest => do
      inModules handler.close
      closeHandlers rest

/-- The handlers that were kept, in the order in which they are given up. -/
def leaving (w : Workshop ω) : List (Handler ω) :=
  (w.cache.arrange (w.order w.cache.keys)).map (·.2)

theorem leaving_perm (w : Workshop ω) : w.leaving.Perm (w.cache.map (·.2)) :=
  (Assoc.arrange_perm _ w.cache).map _

theorem forall_mem_leaving {w : Workshop ω} {P : Handler ω → Prop}
    (each : ∀ entry ∈ w.cache, P entry.2) : ∀ handler ∈ w.leaving, P handler := by
  intro handler among
  obtain ⟨entry, kept, rfl⟩ := List.mem_map.mp (w.leaving_perm.mem_iff.mp among)
  exact each entry kept

/-- Ends a batch: every handler that was kept is given up. -/
def closeAll : BatchCode ω Unit := do
  let handlers := (← Activity.get).leaving
  Activity.modify fun w => { w with cache := [] }
  closeHandlers handlers

end Workshop
end Multicall
