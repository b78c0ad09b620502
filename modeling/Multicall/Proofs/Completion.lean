import Multicall.Action
/-!
Actions that end. To say that an action ends is to say that it does not panic, and what holds of its
answer and of the state it leaves. The steps of an action end one after the other, so each operation
needs one such statement, and whatever is built from it only cites that.
-/
namespace Multicall.Action

variable {σ τ α β : Type}

/-- The action ends without a panic, in an answer and a state of which `after` holds. -/
def Ends (m : Action σ α) (s : σ) (after : α → σ → Prop) : Prop :=
  ∃ a t, m s = .done a t ∧ after a t

theorem ends_pure (a : α) (s : σ) (after : α → σ → Prop) (holds : after a s) :
    Ends (pure a : Action σ α) s after :=
  ⟨a, s, rfl, holds⟩

theorem ends_modify (f : σ → σ) (s : σ) (after : Unit → σ → Prop) (holds : after () (f s)) :
    (modify f).Ends s after :=
  ⟨(), f s, rfl, holds⟩

theorem Ends.weaken {m : Action σ α} {s : σ} {first second : α → σ → Prop}
    (ended : m.Ends s first) (step : ∀ a t, first a t → second a t) : m.Ends s second := by
  obtain ⟨a, t, ran, holds⟩ := ended
  exact ⟨a, t, ran, step a t holds⟩

/-- An action ends in one way only, so what is known of its end holds together. -/
theorem Ends.and {m : Action σ α} {s : σ} {first second : α → σ → Prop} (left : m.Ends s first)
    (right : m.Ends s second) : m.Ends s fun a t => first a t ∧ second a t := by
  obtain ⟨a, after, ran, held⟩ := left
  obtain ⟨_, _, again, heldToo⟩ := right
  cases ran.symm.trans again
  exact ⟨a, after, ran, held, heldToo⟩

/-- Steps one after the other: the second goes on from wherever the first may end. -/
theorem Ends.bind {m : Action σ α} {f : α → Action σ β} {s : σ} {middle : α → σ → Prop}
    {after : β → σ → Prop} (first : m.Ends s middle)
    (second : ∀ a t, middle a t → (f a).Ends t after) : (m >>= f).Ends s after := by
  obtain ⟨a, t, ran, holds⟩ := first
  obtain ⟨b, u, continued, reached⟩ := second a t holds
  refine ⟨b, u, ?_, reached⟩
  rw [bind_apply, ran]
  exact continued

theorem ends_get_bind (f : σ → Action σ β) (s : σ) (after : β → σ → Prop)
    (rest : (f s).Ends s after) : (get >>= f).Ends s after :=
  rest

theorem ends_modify_bind (g : σ → σ) (f : Unit → Action σ β) (s : σ) (after : β → σ → Prop)
    (rest : (f ()).Ends (g s) after) : (modify g >>= f).Ends s after :=
  rest

/-- Both steps have ended where an action of two steps has. -/
theorem done_of_bind {m : Action σ α} {f : α → Action σ β} {s t : σ} {b : β}
    (ran : (m >>= f) s = .done b t) : ∃ a u, m s = .done a u ∧ f a u = .done b t := by
  rw [bind_apply] at ran
  cases first : m s with
  | done a u =>
    rw [first] at ran
    exact ⟨a, u, rfl, ran⟩
  | panicked p u =>
    rw [first] at ran
    cases ran

/-- What ends on a component ends on the whole, with the component put back. -/
theorem Ends.within {focus : σ → τ × (τ → σ)} {m : Action τ α} {s : σ} {after : α → τ → Prop}
    (ended : m.Ends (focus s).1 after) :
    (within focus m).Ends s fun a u => ∃ t, after a t ∧ u = (focus s).2 t := by
  obtain ⟨a, t, ran, holds⟩ := ended
  refine ⟨a, (focus s).2 t, ?_, t, holds, rfl⟩
  simp only [Action.within, ran]

theorem Ends.attempt {m : Action σ α} {s : σ} {after : α → σ → Prop} (ended : m.Ends s after) :
    m.attempt.Ends s fun result t => ∃ a, result = .ok a ∧ after a t := by
  obtain ⟨a, t, ran, holds⟩ := ended
  refine ⟨.ok a, t, ?_, a, rfl, holds⟩
  simp only [Action.attempt, ran]

/-- The action comes to a result, an answer or a panic, in a state of which `after` holds. -/
def Comes (m : Action σ α) (s : σ) (result : Except Panic α) (after : σ → Prop) : Prop :=
  ∃ t, m s = .of result t ∧ after t

theorem Ends.then_comes {m : Action σ α} {f : α → Action σ β} {s : σ} {middle : α → σ → Prop}
    {result : Except Panic β} {after : σ → Prop} (first : m.Ends s middle)
    (second : ∀ a t, middle a t → (f a).Comes t result after) : (m >>= f).Comes s result after := by
  obtain ⟨a, t, ran, holds⟩ := first
  obtain ⟨u, continued, reached⟩ := second a t holds
  refine ⟨u, ?_, reached⟩
  rw [bind_apply, ran]
  exact continued

theorem Comes.ends {m : Action σ α} {s : σ} {a : α} {after : σ → Prop}
    (comes : m.Comes s (.ok a) after) : m.Ends s fun b t => b = a ∧ after t := by
  obtain ⟨t, ran, holds⟩ := comes
  exact ⟨a, t, ran, rfl, holds⟩

theorem Ends.comes {m : Action σ Unit} {s : σ} {after : Unit → σ → Prop} (ended : m.Ends s after) :
    m.Comes s (.ok ()) (after ()) := by
  obtain ⟨_, t, ran, holds⟩ := ended
  exact ⟨t, ran, holds⟩

/-- A panic is the end of all that was to follow. -/
theorem Comes.panics {m : Action σ α} {s : σ} {p : Panic} {after : σ → Prop}
    (comes : m.Comes s (.error p) after) (f : α → Action σ β) :
    (m >>= f).Comes s (.error p) after := by
  obtain ⟨t, ran, holds⟩ := comes
  refine ⟨t, ?_, holds⟩
  rw [bind_apply, ran]
  rfl

/-- The action ends as `after` says, or it panics in a state of which `stopped` holds. -/
def Goes (m : Action σ α) (s : σ) (after : α → σ → Prop) (stopped : σ → Prop) : Prop :=
  (∃ a t, m s = .done a t ∧ after a t) ∨ ∃ p t, m s = .panicked p t ∧ stopped t

theorem Ends.goes {m : Action σ α} {s : σ} {after : α → σ → Prop} {stopped : σ → Prop}
    (ended : m.Ends s after) : m.Goes s after stopped :=
  .inl ended

theorem goes_pure (a : α) (s : σ) {after : α → σ → Prop} {stopped : σ → Prop} (holds : after a s) :
    Goes (pure a : Action σ α) s after stopped :=
  (ends_pure a s after holds).goes

theorem Goes.weaken {m : Action σ α} {s : σ} {first second : α → σ → Prop} {broken worse : σ → Prop}
    (goes : m.Goes s first broken) (step : ∀ a t, first a t → second a t)
    (fall : ∀ t, broken t → worse t) : m.Goes s second worse := by
  rcases goes with ended | ⟨p, t, ran, holds⟩
  · exact (Ends.weaken ended step).goes
  · exact .inr ⟨p, t, ran, fall t holds⟩

/-- Two accounts of one action hold together. -/
theorem Goes.and {m : Action σ α} {s : σ} {first second : α → σ → Prop} {broken worse : σ → Prop}
    (goes : m.Goes s first broken) (also : m.Goes s second worse) :
    m.Goes s (fun a t => first a t ∧ second a t) fun t => broken t ∧ worse t := by
  rcases goes with ⟨a, t, ran, holds⟩ | ⟨p, t, ran, holds⟩
  · rcases also with ⟨b, u, again, too⟩ | ⟨q, u, again, -⟩
    · cases ran.symm.trans again
      exact .inl ⟨a, t, ran, holds, too⟩
    · exact nomatch ran.symm.trans again
  · rcases also with ⟨b, u, again, -⟩ | ⟨q, u, again, too⟩
    · exact nomatch ran.symm.trans again
    · cases ran.symm.trans again
      exact .inr ⟨p, t, ran, holds, too⟩

theorem Goes.bind {m : Action σ α} {f : α → Action σ β} {s : σ} {middle : α → σ → Prop}
    {after : β → σ → Prop} {stopped : σ → Prop} (first : m.Goes s middle stopped)
    (second : ∀ a t, middle a t → (f a).Goes t after stopped) : (m >>= f).Goes s after stopped := by
  rcases first with ⟨a, t, ran, holds⟩ | ⟨p, t, ran, holds⟩
  · have rest := second a t holds
    rwa [Goes, bind_apply, ran]
  · exact .inr ⟨p, t, by rw [bind_apply, ran], holds⟩

theorem Goes.of_done {m : Action σ α} {s t : σ} {a : α} {after : α → σ → Prop} {stopped : σ → Prop}
    (goes : m.Goes s after stopped) (ran : m s = .done a t) : after a t := by
  rcases goes with ⟨b, u, again, holds⟩ | ⟨p, u, again, -⟩
  · cases ran.symm.trans again
    exact holds
  · exact nomatch ran.symm.trans again

theorem Goes.of_panicked {m : Action σ α} {s t : σ} {p : Panic} {after : α → σ → Prop}
    {stopped : σ → Prop} (goes : m.Goes s after stopped) (ran : m s = .panicked p t) : stopped t := by
  rcases goes with ⟨b, u, again, -⟩ | ⟨q, u, again, holds⟩
  · exact nomatch ran.symm.trans again
  · cases ran.symm.trans again
    exact holds

theorem goes_get_bind (f : σ → Action σ β) (s : σ) {after : β → σ → Prop} {stopped : σ → Prop}
    (rest : (f s).Goes s after stopped) : (get >>= f).Goes s after stopped :=
  rest

theorem goes_modify_bind (g : σ → σ) {f : Unit → Action σ β} (s : σ) {after : β → σ → Prop}
    {stopped : σ → Prop} (rest : (f ()).Goes (g s) after stopped) :
    (modify g >>= f).Goes s after stopped :=
  rest

theorem Goes.within {focus : σ → τ × (τ → σ)} {m : Action τ α} {s : σ} {after : α → τ → Prop}
    {stopped : τ → Prop} (goes : m.Goes (focus s).1 after stopped) :
    (within focus m).Goes s (fun a u => ∃ t, after a t ∧ u = (focus s).2 t)
      fun u => ∃ t, stopped t ∧ u = (focus s).2 t := by
  rcases goes with ended | ⟨p, t, ran, holds⟩
  · exact (Ends.within ended).goes
  · exact .inr ⟨p, (focus s).2 t, by rw [within_apply, ran], t, holds, rfl⟩

/-- What no panic can break off ends. -/
theorem Goes.ends {m : Action σ α} {s : σ} {after : α → σ → Prop}
    (goes : m.Goes s after fun _ => False) : m.Ends s after := by
  rcases goes with ended | ⟨_, _, _, never⟩
  · exact ended
  · exact never.elim

/-- The action comes to a result, or a panic that is none of its own breaks it off. -/
def Exits (m : Action σ α) (s : σ) (result : Except Panic α) (after stopped : σ → Prop) : Prop :=
  m.Comes s result after ∨ ∃ p t, m s = .panicked p t ∧ stopped t

theorem Goes.then_exits {m : Action σ α} {f : α → Action σ β} {s : σ} {middle : α → σ → Prop}
    {result : Except Panic β} {after stopped : σ → Prop} (first : m.Goes s middle stopped)
    (second : ∀ a t, middle a t → (f a).Exits t result after stopped) :
    (m >>= f).Exits s result after stopped := by
  rcases first with ⟨a, t, ran, holds⟩ | ⟨p, t, ran, holds⟩
  · have rest := second a t holds
    rwa [Exits, Comes, bind_apply, ran]
  · exact .inr ⟨p, t, by rw [bind_apply, ran], holds⟩

theorem Exits.goes {m : Action σ α} {s : σ} {a : α} {after stopped : σ → Prop}
    (exits : m.Exits s (.ok a) after stopped) :
    m.Goes s (fun b t => b = a ∧ after t) stopped := by
  rcases exits with comes | broken
  · exact comes.ends.goes
  · exact .inr broken

theorem Exits.comes {m : Action σ α} {s : σ} {result : Except Panic α} {after : σ → Prop}
    (exits : m.Exits s result after fun _ => False) : m.Comes s result after := by
  rcases exits with comes | ⟨_, _, _, never⟩
  · exact comes
  · exact never.elim

/-- Whatever state an action ends in, its answer is of a kind. -/
def Answers (m : Action σ α) (kind : α → Prop) : Prop :=
  ∀ s a t, m s = .done a t → kind a

theorem answers_pure (a : α) (kind : α → Prop) (holds : kind a) :
    Answers (pure a : Action σ α) kind := by
  intro s b t ended
  cases ended
  exact holds

theorem Answers.bind {m : Action σ α} {f : α → Action σ β} {first : α → Prop} {second : β → Prop}
    (answers : m.Answers first) (last : ∀ a, first a → (f a).Answers second) :
    (m >>= f).Answers second := by
  intro s b u ended
  rw [bind_apply] at ended
  cases ran : m s with
  | done a t => exact last a (answers s a t ran) t b u (by simpa only [ran] using ended)
  | panicked p t => simp only [ran, reduceCtorEq] at ended

/-- The last step decides the answer. -/
theorem answers_of_last {m : Action σ α} {f : α → Action σ β} {kind : β → Prop}
    (last : ∀ a, (f a).Answers kind) : (m >>= f).Answers kind :=
  Answers.bind (fun _ _ _ _ => trivial) fun a _ => last a

theorem Answers.within {focus : σ → τ × (τ → σ)} {m : Action τ α} {kind : α → Prop}
    (answers : m.Answers kind) : (within focus m).Answers kind := by
  intro s a t ended
  rw [within_apply] at ended
  cases ran : m (focus s).1 with
  | done b u =>
    simp only [ran, Outcome.done.injEq] at ended
    exact ended.1 ▸ answers _ b u ran
  | panicked p u => simp only [ran, reduceCtorEq] at ended

theorem Ends.and_answers {m : Action σ α} {s : σ} {after : α → σ → Prop} {kind : α → Prop}
    (ended : m.Ends s after) (answers : m.Answers kind) :
    m.Ends s fun a t => kind a ∧ after a t := by
  obtain ⟨a, t, ran, holds⟩ := ended
  exact ⟨a, t, ran, answers s a t ran, holds⟩

theorem Goes.and_answers {m : Action σ α} {s : σ} {after : α → σ → Prop} {stopped : σ → Prop}
    {kind : α → Prop} (goes : m.Goes s after stopped) (answers : m.Answers kind) :
    m.Goes s (fun a t => kind a ∧ after a t) stopped := by
  rcases goes with ended | broken
  · exact (Ends.and_answers ended answers).goes
  · exact .inr broken

/-- Whatever an action does, it leaves a view of the state as it was. -/
def Leaves {κ : Type} (view : σ → κ) (m : Action σ α) : Prop := ∀ s, view (m s).state = view s

section Leaves

variable {κ : Type} {view : σ → κ} {m : Action σ α}

theorem leaves_pure (a : α) : Leaves view (pure a : Action σ α) := fun _ => rfl

theorem leaves_modify {f : σ → σ} (same : ∀ s, view (f s) = view s) : Leaves view (modify f) := same

theorem Leaves.bind {f : α → Action σ β} (first : m.Leaves view)
    (second : ∀ a, (f a).Leaves view) : (m >>= f).Leaves view := by
  intro s
  have once := first s
  rw [bind_apply]
  cases ran : m s with
  | done a t =>
    rw [ran] at once
    exact (second a t).trans once
  | panicked p t =>
    rw [ran] at once
    exact once

theorem leaves_get_bind {f : σ → Action σ β} (each : ∀ s, (f s).Leaves view) :
    (get >>= f).Leaves view :=
  fun s => each s s

/-- On a component, if what is seen is not part of it or is left alone there. -/
theorem leaves_within {focus : σ → τ × (τ → σ)} {n : Action τ α}
    (put : ∀ s, view ((focus s).2 (n (focus s).1).state) = view s) :
    (within focus n).Leaves view := by
  intro s
  have back := put s
  rw [within_apply]
  cases ran : n (focus s).1 with
  | done a t =>
    rw [ran] at back
    exact back
  | panicked p t =>
    rw [ran] at back
    exact back

theorem Leaves.attempt (leaves : m.Leaves view) : m.attempt.Leaves view := by
  intro s
  have same := leaves s
  rw [Action.attempt]
  cases ran : m s with
  | done a t =>
    rw [ran] at same
    exact same
  | panicked p t =>
    rw [ran] at same
    exact same

theorem Leaves.of_done {s t : σ} {a : α} (leaves : m.Leaves view) (ran : m s = .done a t) :
    view t = view s := by
  have same := leaves s
  rw [ran] at same
  exact same

end Leaves

/-! What stays true. -/

section Maintained

variable {holds : σ → Prop}

/-- Wherever the invariant holds the action ends, and the invariant holds again. -/
def Maintains (holds : σ → Prop) (m : Action σ α) : Prop :=
  ∀ s, holds s → m.Ends s fun _ after => holds after

theorem maintains_pure (a : α) : (pure a : Action σ α).Maintains holds :=
  fun s held => ends_pure a s _ held

theorem maintains_modify {f : σ → σ} (keeps : ∀ s, holds s → holds (f s)) :
    (modify f).Maintains holds :=
  fun s held => ends_modify f s _ (keeps s held)

theorem Maintains.bind {m : Action σ α} {f : α → Action σ β} (first : m.Maintains holds)
    (second : ∀ a, (f a).Maintains holds) : (m >>= f).Maintains holds :=
  fun s held => (first s held).bind fun a t still => second a t still

theorem maintains_get_bind {f : σ → Action σ α} (each : ∀ s, (f s).Maintains holds) :
    (get >>= f).Maintains holds :=
  fun s held => each s s held

/-- Invariants that are maintained each for itself are maintained together. -/
theorem Maintains.and {m : Action σ α} {other : σ → Prop} (first : m.Maintains holds)
    (second : m.Maintains other) : m.Maintains fun s => holds s ∧ other s :=
  fun s held => (first s held.1).and (second s held.2)

theorem Maintains.within {focus : σ → τ × (τ → σ)} {inner : τ → Prop} {m : Action τ α}
    (maintains : m.Maintains inner) (takes : ∀ s, holds s → inner (focus s).1)
    (restores : ∀ s t, inner t → holds ((focus s).2 t)) : (within focus m).Maintains holds := by
  intro s held
  refine (maintains _ (takes s held)).within.weaken ?_
  rintro _ _ ⟨t, still, rfl⟩
  exact restores s t still

end Maintained

end Multicall.Action
