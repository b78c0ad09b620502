import Multicall.Failure.Cause
/-!
Actions on a state that may panic. A panic unwinds through everything up to the nearest attempt,
and the state stays as it was when the panic struck: what was taken out of it is not put back.
-/
namespace Multicall

/-- What an action comes to. -/
inductive Outcome (σ α : Type)
  | done (value : α) (state : σ)
  | panicked (panic : Panic) (state : σ)

def Outcome.state {σ α : Type} : Outcome σ α → σ
  | .done _ s => s
  | .panicked _ s => s

def Outcome.of {σ α : Type} (result : Except Panic α) (s : σ) : Outcome σ α :=
  match result with
  | .ok a => .done a s
  | .error p => .panicked p s

theorem Outcome.state_of {σ α : Type} (result : Except Panic α) (s : σ) :
    (Outcome.of result s).state = s := by
  cases result <;> rfl

def Action (σ α : Type) := σ → Outcome σ α

namespace Action

variable {σ τ α β : Type}

@[always_inline, inline]
protected def pure (a : α) : Action σ α := fun s => .done a s

@[always_inline, inline]
protected def bind (m : Action σ α) (f : α → Action σ β) : Action σ β := fun s =>
  match m s with
  | .done a s => f a s
  | .panicked p s => .panicked p s

@[always_inline]
instance : Monad (Action σ) where
  pure := Action.pure
  bind := Action.bind

@[always_inline, inline]
def get : Action σ σ := fun s => .done s s

@[always_inline, inline]
def modify (f : σ → σ) : Action σ Unit := fun s => .done () (f s)

@[always_inline, inline]
def panic (p : Panic) : Action σ α := fun s => .panicked p s

/-- Runs an action up to its end or its panic, whichever comes. -/
@[always_inline, inline]
def attempt (m : Action σ α) : Action σ (Except Panic α) := fun s =>
  match m s with
  | .done a s => .done (.ok a) s
  | .panicked p s => .done (.error p) s

/-- Runs an action on a component. `focus` takes the component out and says how to put it back. -/
@[always_inline, inline]
def within (focus : σ → τ × (τ → σ)) (m : Action τ α) : Action σ α := fun s =>
  match focus s with
  | (t, back) =>
    match m t with
    | .done a t => .done a (back t)
    | .panicked p t => .panicked p (back t)

instance : LawfulMonad (Action σ) where
  map_const := rfl
  id_map m := by
    funext s
    show Action.bind m (fun a => Action.pure (id a)) s = m s
    simp only [Action.bind, Action.pure, id]
    cases m s <;> rfl
  seqLeft_eq x y := by
    funext s
    show Action.bind x (fun a => Action.bind y (fun _ => Action.pure a)) s =
      Action.bind (Action.bind x (fun a => Action.pure (Function.const _ a)))
        (fun f => Action.bind y (fun b => Action.pure (f b))) s
    simp only [Action.bind, Action.pure]
    cases x s with
    | done a s => simp only; cases y s <;> rfl
    | panicked p s => rfl
  seqRight_eq x y := by
    funext s
    show Action.bind x (fun _ => y) s =
      Action.bind (Action.bind x (fun _ => Action.pure id))
        (fun f => Action.bind y (fun b => Action.pure (f b))) s
    simp only [Action.bind, Action.pure]
    cases x s with
    | done a s => simp only [id]; cases y s <;> rfl
    | panicked p s => rfl
  pure_seq g x := rfl
  bind_pure_comp f x := rfl
  bind_map f x := rfl
  pure_bind a f := rfl
  bind_assoc x f g := by
    funext s
    show Action.bind (Action.bind x f) g s = Action.bind x (fun a => Action.bind (f a) g) s
    simp only [Action.bind]
    cases x s <;> rfl

@[simp] theorem pure_apply (a : α) (s : σ) : (pure a : Action σ α) s = .done a s := rfl

theorem bind_apply (m : Action σ α) (f : α → Action σ β) (s : σ) :
    (m >>= f) s = match m s with
      | .done a s => f a s
      | .panicked p s => .panicked p s := rfl

theorem bind_of_done {m : Action σ α} {s t : σ} {a : α} (done : m s = .done a t)
    (f : α → Action σ β) : (m >>= f) s = f a t := by
  rw [bind_apply, done]

theorem bind_of_panicked {m : Action σ α} {s t : σ} {p : Panic} (panicked : m s = .panicked p t)
    (f : α → Action σ β) : (m >>= f) s = .panicked p t := by
  rw [bind_apply, panicked]

theorem within_apply (focus : σ → τ × (τ → σ)) (m : Action τ α) (s : σ) :
    within focus m s = match m (focus s).1 with
      | .done a t => .done a ((focus s).2 t)
      | .panicked p t => .panicked p ((focus s).2 t) := rfl

@[simp] theorem get_apply (s : σ) : (get : Action σ σ) s = .done s s := rfl

@[simp] theorem modify_apply (f : σ → σ) (s : σ) : modify f s = .done () (f s) := rfl

end Action
end Multicall
