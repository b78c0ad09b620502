import Multicall.Proofs.Completion
/-!
Two runs side by side. Two actions are alike when from related states they end the same way, in
related answers and states, or both panic. Some pairs keep in step only for a while: the states are
together until something sets them apart, and from there on each side goes its own way without
losing what is said of states that are apart. Both notions are closed under doing one thing after
the other.
-/
namespace Multicall

variable {σ τ ε δ α β γ κ : Type}

inductive ResultAlike (errors : ε → δ → Prop) (values : α → β → Prop) :
    Except ε α → Except δ β → Prop
  | ok {a b} (same : values a b) : ResultAlike errors values (.ok a) (.ok b)
  | error {e d} (same : errors e d) : ResultAlike errors values (.error e) (.error d)

theorem ResultAlike.refl {errors : ε → ε → Prop} {values : α → α → Prop}
    (reflError : ∀ e, errors e e) (reflValue : ∀ a, values a a) (result : Except ε α) :
    ResultAlike errors values result result := by
  cases result with
  | ok a => exact .ok (reflValue a)
  | error e => exact .error (reflError e)

theorem ResultAlike.weaken {errors : ε → δ → Prop} {values wider : α → β → Prop}
    {result : Except ε α} {other : Except δ β} (alike : ResultAlike errors values result other)
    (step : ∀ a b, values a b → wider a b) : ResultAlike errors wider result other := by
  cases alike with
  | ok same => exact .ok (step _ _ same)
  | error same => exact .error same

inductive Outcome.Alike (states : σ → τ → Prop) (answers : α → β → Prop)
    (panics : Panic → Panic → Prop) : Outcome σ α → Outcome τ β → Prop
  | done {a b s t} (same : answers a b) (related : states s t) :
      Alike states answers panics (.done a s) (.done b t)
  | panicked {p q s t} (same : panics p q) (related : states s t) :
      Alike states answers panics (.panicked p s) (.panicked q t)

theorem Outcome.Alike.state {states : σ → τ → Prop} {answers : α → β → Prop}
    {panics : Panic → Panic → Prop} {x : Outcome σ α} {y : Outcome τ β}
    (alike : x.Alike states answers panics y) : states x.state y.state := by
  cases alike with
  | done _ related => exact related
  | panicked _ related => exact related

theorem Outcome.Alike.weaken {states weaker : σ → τ → Prop} {answers wider : α → β → Prop}
    {panics more : Panic → Panic → Prop} {x : Outcome σ α} {y : Outcome τ β}
    (alike : x.Alike states answers panics y) (state : ∀ s t, states s t → weaker s t)
    (answer : ∀ a b, answers a b → wider a b) (panic : ∀ p q, panics p q → more p q) :
    x.Alike weaker wider more y := by
  cases alike with
  | done same related => exact .done (answer _ _ same) (state _ _ related)
  | panicked same related => exact .panicked (panic _ _ same) (state _ _ related)

namespace Action

def Alike (states : σ → τ → Prop) (answers : α → β → Prop) (panics : Panic → Panic → Prop)
    (m : Action σ α) (n : Action τ β) : Prop :=
  ∀ s t, states s t → (m s).Alike states answers panics (n t)

section Alike

variable {states : σ → τ → Prop} {answers : α → β → Prop} {panics : Panic → Panic → Prop}
  {m : Action σ α} {n : Action τ β}

theorem alike_pure {a : α} {b : β} (same : answers a b) :
    Alike states answers panics (pure a) (pure b) :=
  fun _ _ related => .done same related

theorem alike_panic {p q : Panic} (same : panics p q) :
    Alike states answers panics (panic p) (panic q) :=
  fun _ _ related => .panicked same related

theorem alike_get : Alike states states panics get get := fun _ _ related => .done related related

theorem alike_modify {f : σ → σ} {g : τ → τ} (keeps : ∀ s t, states s t → states (f s) (g t)) :
    Alike states (fun _ _ => True) panics (modify f) (modify g) :=
  fun s t related => .done trivial (keeps s t related)

theorem Alike.bind {later : γ → κ → Prop} {f : α → Action σ γ} {g : β → Action τ κ}
    (first : Alike states answers panics m n)
    (second : ∀ a b, answers a b → Alike states later panics (f a) (g b)) :
    Alike states later panics (m >>= f) (n >>= g) := by
  intro s t related
  have met := first s t related
  rw [bind_apply, bind_apply]
  generalize m s = left at met ⊢
  generalize n t = right at met ⊢
  cases met with
  | done same related => exact second _ _ same _ _ related
  | panicked same related => exact .panicked same related

/-- An attempt turns two panics into two answers, so whatever catches it goes on on both sides. -/
theorem Alike.attempt {others : Panic → Panic → Prop} (alike : Alike states answers panics m n) :
    Alike states (ResultAlike panics answers) others m.attempt n.attempt := by
  intro s t related
  have met := alike s t related
  rw [Action.attempt, Action.attempt]
  generalize m s = left at met ⊢
  generalize n t = right at met ⊢
  cases met with
  | done same related => exact .done (.ok same) related
  | panicked same related => exact .done (.error same) related

theorem Alike.weaken {wider : α → β → Prop} {more : Panic → Panic → Prop}
    (alike : Alike states answers panics m n) (answer : ∀ a b, answers a b → wider a b)
    (panic : ∀ p q, panics p q → more p q) : Alike states wider more m n :=
  fun s t related => (alike s t related).weaken (fun _ _ same => same) answer panic

theorem Alike.within {σ' τ' : Type} {outer : σ' → τ' → Prop} {focus : σ' → σ × (σ → σ')}
    {view : τ' → τ × (τ → τ')} (alike : Alike states answers panics m n)
    (takes : ∀ k l, outer k l → states (focus k).1 (view l).1)
    (restores : ∀ k l s t, outer k l → states s t → outer ((focus k).2 s) ((view l).2 t)) :
    Alike outer answers panics (.within focus m) (.within view n) := by
  intro k l related
  have met := alike _ _ (takes k l related)
  rw [within_apply, within_apply]
  generalize m (focus k).1 = left at met ⊢
  generalize n (view l).1 = right at met ⊢
  cases met with
  | done same after => exact .done same (restores k l _ _ related after)
  | panicked same after => exact .panicked same (restores k l _ _ related after)

theorem Alike.and_answers {kind : α → Prop} {other : β → Prop} {both : α → β → Prop}
    (alike : Alike states answers panics m n) (left : m.Answers kind) (right : n.Answers other)
    (join : ∀ a b, kind a → other b → both a b) : Alike states both panics m n := by
  intro s t related
  have met := alike s t related
  have ofLeft := left s
  have ofRight := right t
  generalize m s = leftward at met ofLeft ⊢
  generalize n t = rightward at met ofRight ⊢
  cases met with
  | done _ related => exact .done (join _ _ (ofLeft _ _ rfl) (ofRight _ _ rfl)) related
  | panicked same related => exact .panicked same related

end Alike

/-- Where two actions lead that start together: to one answer together, to one panic together, or
apart. -/
inductive Meets (together apart : σ → τ → Prop) : Outcome σ α → Outcome τ α → Prop
  | together {a s t} (still : together s t) : Meets together apart (.done a s) (.done a t)
  | apart {a b s t} (parted : apart s t) : Meets together apart (.done a s) (.done b t)
  | panicked {p s t} (still : together s t) :
      Meets together apart (.panicked p s) (.panicked p t)

/-- Actions that start together stay together or part; once apart, neither side panics, and each
may act on its own. -/
structure Coupled (together apart : σ → τ → Prop) (m : Action σ α) (n : Action τ α) : Prop where
  both : ∀ s t, together s t → Meets together apart (m s) (n t)
  left : ∀ s t, apart s t → m.Ends s fun _ after => apart after t
  right : ∀ s t, apart s t → n.Ends t fun _ after => apart s after

section Coupled

variable {together apart : σ → τ → Prop} {m : Action σ α} {n : Action τ α}

theorem coupled_pure (a : α) :
    Coupled together apart (pure a : Action σ α) (pure a : Action τ α) where
  both _ _ still := .together still
  left s _ parted := ends_pure a s _ parted
  right _ t parted := ends_pure a t _ parted

theorem coupled_modify {f : σ → σ} {g : τ → τ}
    (both : ∀ s t, together s t → together (f s) (g t))
    (left : ∀ s t, apart s t → apart (f s) t) (right : ∀ s t, apart s t → apart s (g t)) :
    Coupled together apart (modify f) (modify g) where
  both s t still := .together (both s t still)
  left s t parted := ends_modify f s _ (left s t parted)
  right s t parted := ends_modify g t _ (right s t parted)

theorem Coupled.bind {f : α → Action σ β} {g : α → Action τ β} (first : Coupled together apart m n)
    (second : ∀ a, Coupled together apart (f a) (g a)) :
    Coupled together apart (m >>= f) (n >>= g) where
  both s t still := by
    have met := first.both s t still
    rw [bind_apply, bind_apply]
    generalize m s = left at met ⊢
    generalize n t = right at met ⊢
    cases met with
    | together still => exact (second _).both _ _ still
    | panicked still => exact .panicked still
    | apart parted =>
      -- the two sides go on from different answers, one after the other
      obtain ⟨x, s, leftRan, parted⟩ := (second _).left _ _ parted
      obtain ⟨y, t, rightRan, parted⟩ := (second _).right _ _ parted
      show Meets together apart (f _ _) (g _ _)
      rw [leftRan, rightRan]
      exact .apart parted
  left s t parted := (first.left s t parted).bind fun a s parted => (second a).left s t parted
  right s t parted := (first.right s t parted).bind fun a t parted => (second a).right s t parted

/-- What is done next may depend on the state, as far as states that are together agree on it. -/
theorem coupled_get_bind {f : σ → Action σ α} {g : τ → Action τ α}
    (both : ∀ s t, together s t → Coupled together apart (f s) (g t))
    (left : ∀ s t, apart s t → (f s).Ends s fun _ after => apart after t)
    (right : ∀ s t, apart s t → (g t).Ends t fun _ after => apart s after) :
    Coupled together apart (get >>= f) (get >>= g) where
  both s t still := (both s t still).both s t still
  left := left
  right := right

/-- Actions on a component that are coupled are coupled on the whole, if states are apart when their
components are, and if components that stay together can be put back. -/
theorem Coupled.within {κ' : Type} {outer outerApart : κ → κ' → Prop} {focus : κ → σ × (σ → κ)}
    {view : κ' → τ × (τ → κ')} (coupled : Coupled together apart m n)
    (takes : ∀ k l, outer k l → together (focus k).1 (view l).1)
    (restores : ∀ k l s t, outer k l → together s t → outer ((focus k).2 s) ((view l).2 t))
    (parted : ∀ k l s t, outer k l → apart s t → outerApart ((focus k).2 s) ((view l).2 t))
    (takesApart : ∀ k l, outerApart k l → apart (focus k).1 (view l).1)
    (left : ∀ k l s, outerApart k l → apart s (view l).1 → outerApart ((focus k).2 s) l)
    (right : ∀ k l t, outerApart k l → apart (focus k).1 t → outerApart k ((view l).2 t)) :
    Coupled outer outerApart (.within focus m) (.within view n) where
  both k l still := by
    have met := coupled.both _ _ (takes k l still)
    rw [within_apply, within_apply]
    generalize m (focus k).1 = left at met ⊢
    generalize n (view l).1 = right at met ⊢
    cases met with
    | together kept => exact .together (restores k l _ _ still kept)
    | apart split => exact .apart (parted k l _ _ still split)
    | panicked kept => exact .panicked (restores k l _ _ still kept)
  left k l split := by
    refine (coupled.left _ _ (takesApart k l split)).within.weaken ?_
    rintro _ _ ⟨s, kept, rfl⟩
    exact left k l s split kept
  right k l split := by
    refine (coupled.right _ _ (takesApart k l split)).within.weaken ?_
    rintro _ _ ⟨t, kept, rfl⟩
    exact right k l t split kept

/-- Together or apart, the two sides end alike; only together their answers have to agree. -/
theorem Coupled.alike (coupled : Coupled together apart m n) :
    Alike (fun s t => together s t ∨ apart s t) (fun _ _ => True) (· = ·) m n := by
  intro s t either
  cases either with
  | inl still =>
    have met := coupled.both s t still
    generalize m s = left at met ⊢
    generalize n t = right at met ⊢
    cases met with
    | together still => exact .done trivial (.inl still)
    | apart parted => exact .done trivial (.inr parted)
    | panicked still => exact .panicked rfl (.inl still)
  | inr parted =>
    obtain ⟨a, s, leftRan, parted⟩ := coupled.left s t parted
    obtain ⟨b, t, rightRan, parted⟩ := coupled.right s t parted
    rw [leftRan, rightRan]
    exact .done trivial (.inr parted)

end Coupled

/-- Where two actions lead that start together: in one way to states that are together, or to states
that are apart, whatever either side comes to. -/
inductive Forks (together apart : σ → τ → Prop) : Outcome σ α → Outcome τ α → Prop
  | done {a s t} (still : together s t) : Forks together apart (.done a s) (.done a t)
  | panicked {p s t} (still : together s t) :
      Forks together apart (.panicked p s) (.panicked p t)
  | apart {x y} (parted : apart x.state y.state) : Forks together apart x y

/-- Actions that start together stay together or part. Once apart, each side may end or panic on its
own, and neither loses what is said of states that are apart. -/
structure Forking (together apart : σ → τ → Prop) (m : Action σ α) (n : Action τ α) : Prop where
  both : ∀ s t, together s t → Forks together apart (m s) (n t)
  left : ∀ s t, apart s t → apart (m s).state t
  right : ∀ s t, apart s t → apart s (n t).state

section Forking

variable {together apart : σ → τ → Prop} {m : Action σ α} {n : Action τ α}

theorem Meets.forks {x : Outcome σ α} {y : Outcome τ α} (met : Meets together apart x y) :
    Forks together apart x y := by
  cases met with
  | together still => exact .done still
  | apart parted => exact .apart parted
  | panicked still => exact .panicked still

theorem Forks.imp {wider : σ → τ → Prop} {x : Outcome σ α} {y : Outcome τ α}
    (forks : Forks together apart x y) (step : ∀ s t, apart s t → wider s t) :
    Forks together wider x y := by
  cases forks with
  | done still => exact .done still
  | panicked still => exact .panicked still
  | apart parted => exact .apart (step _ _ parted)

theorem Ends.state {s : σ} {holds : σ → Prop} (ended : m.Ends s fun _ after => holds after) :
    holds (m s).state := by
  obtain ⟨a, t, ran, held⟩ := ended
  rw [ran]
  exact held

theorem Coupled.forking (coupled : Coupled together apart m n) : Forking together apart m n where
  both s t still := (coupled.both s t still).forks
  left s t parted := (coupled.left s t parted).state
  right s t parted := (coupled.right s t parted).state

theorem forking_panic (p : Panic) :
    Forking together apart (panic p : Action σ α) (panic p : Action τ α) where
  both _ _ still := .panicked still
  left _ _ parted := parted
  right _ _ parted := parted

/-- What the first action leaves and every action behind it keeps holds in the end. -/
theorem state_of_bind {ν : Type} {m : Action ν α} {f : α → Action ν β} {s : ν} (holds : ν → Prop)
    (first : holds (m s).state) (next : ∀ a r, holds r → holds (f a r).state) :
    holds ((m >>= f) s).state := by
  rw [bind_apply]
  generalize m s = x at first ⊢
  cases x with
  | done a r => exact next a r first
  | panicked p r => exact first

theorem Forking.bind {f : α → Action σ β} {g : α → Action τ β} (first : Forking together apart m n)
    (second : ∀ a, Forking together apart (f a) (g a)) :
    Forking together apart (m >>= f) (n >>= g) := by
  have leftward (s : σ) (t : τ) (parted : apart (m s).state t) : apart ((m >>= f) s).state t :=
    state_of_bind (apart · t) parted fun a r still => (second a).left r t still
  have rightward (s : σ) (t : τ) (parted : apart s (n t).state) : apart s ((n >>= g) t).state :=
    state_of_bind (apart s) parted fun a r still => (second a).right s r still
  refine ⟨fun s t still => ?_, fun s t parted => leftward s t (first.left s t parted),
    fun s t parted => rightward s t (first.right s t parted)⟩
  have met := first.both s t still
  generalize left : m s = x at met
  generalize right : n t = y at met
  cases met with
  | done still =>
    rw [bind_of_done left, bind_of_done right]
    exact (second _).both _ _ still
  | panicked still =>
    rw [bind_of_panicked left, bind_of_panicked right]
    exact .panicked still
  | apart parted =>
    subst left right
    exact .apart (rightward _ t (leftward s _ parted))

theorem attempt_state {ν : Type} (m : Action ν α) (s : ν) : (m.attempt s).state = (m s).state := by
  rw [Action.attempt]
  cases m s <;> rfl

theorem Forking.attempt (forking : Forking together apart m n) :
    Forking together apart m.attempt n.attempt := by
  refine ⟨fun s t still => ?_, fun s t parted => ?_, fun s t parted => ?_⟩
  · have met := forking.both s t still
    have left := attempt_state m s
    have right := attempt_state n t
    rw [Action.attempt] at left ⊢
    rw [Action.attempt] at right ⊢
    generalize m s = x at met left ⊢
    generalize n t = y at met right ⊢
    cases met with
    | done still => exact .done still
    | panicked still => exact .done still
    | apart parted => exact .apart (by rwa [left, right])
  · rw [attempt_state]
    exact forking.left s t parted
  · rw [attempt_state]
    exact forking.right s t parted

end Forking

/-- Two actions that both end, in answers and states of which `after` holds. -/
def EndBoth (m : Action σ α) (n : Action τ β) (s : σ) (t : τ)
    (after : α → β → σ → τ → Prop) : Prop :=
  m.Ends s fun a u => n.Ends t fun b v => after a b u v

theorem EndBoth.bind {m : Action σ α} {n : Action τ β} {f : α → Action σ γ} {g : β → Action τ κ}
    {s : σ} {t : τ} {middle : α → β → σ → τ → Prop} {after : γ → κ → σ → τ → Prop}
    (first : EndBoth m n s t middle)
    (second : ∀ a b u v, middle a b u v → EndBoth (f a) (g b) u v after) :
    EndBoth (m >>= f) (n >>= g) s t after := by
  obtain ⟨a, u, leftRan, b, v, rightRan, holds⟩ := first
  obtain ⟨c, u, leftWent, d, v, rightWent, reached⟩ := second a b u v holds
  refine ⟨c, u, ?_, d, v, ?_, reached⟩
  · rw [bind_apply, leftRan]
    exact leftWent
  · rw [bind_apply, rightRan]
    exact rightWent

theorem EndBoth.weaken {m : Action σ α} {n : Action τ β} {s : σ} {t : τ}
    {first second : α → β → σ → τ → Prop} (ended : EndBoth m n s t first)
    (step : ∀ a b u v, first a b u v → second a b u v) : EndBoth m n s t second :=
  Ends.weaken ended fun a u other => other.weaken fun b v => step a b u v

theorem EndBoth.attempt {m : Action σ α} {n : Action τ β} {s : σ} {t : τ}
    {after : α → β → σ → τ → Prop} (ended : EndBoth m n s t after) :
    EndBoth m.attempt n.attempt s t fun x y u v =>
      ∃ a b, x = .ok a ∧ y = .ok b ∧ after a b u v := by
  obtain ⟨a, u, leftRan, b, v, rightRan, holds⟩ := ended
  refine ⟨.ok a, u, ?_, .ok b, v, ?_, a, b, rfl, rfl, holds⟩
  · rw [Action.attempt, leftRan]
  · rw [Action.attempt, rightRan]

end Action
end Multicall
