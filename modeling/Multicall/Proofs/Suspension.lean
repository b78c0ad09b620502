import Multicall.Proofs.Lasting
/-!
Suspensions. While code of a module is suspended the relay applies what is queued, so where the code
suspends decides when a command reaches the writer. It decides nothing else. Early or late, commands
are applied in queue order and nothing comes between them but steps that leave the writer alone, so
the same calls reach the transport as if the whole queue had waited for the code to end.
-/
namespace Multicall

open Multicall.Action

namespace Desk

def withQueue (queue : List PartCommand) (d : Desk) : Desk :=
  { d with relay := { d.relay with queue := queue } }

theorem withQueue_own {d : Desk} {queue : List PartCommand} (own : d.relay.queue = queue) :
    d.withQueue queue = d := by
  subst own
  rfl

theorem withQueue_back {d : Desk} {queue : List PartCommand} (own : d.relay.queue = queue)
    (other : List PartCommand) : (d.withQueue other).withQueue queue = d := by
  subst own
  rfl

/-- Applies commands that are not queued. -/
def carry : List PartCommand → Action Desk Unit
  | [] => return ()
  | c :: rest => do
      apply c
      carry rest

theorem carry_append (first second : List PartCommand) :
    carry (first ++ second) = carry first >>= fun _ => carry second := by
  induction first with
  | nil => rfl
  | cons c rest ih =>
    show apply c >>= (fun _ => carry (rest ++ second)) = apply c >>= (fun _ => carry rest) >>= _
    rw [ih, bind_assoc]

/-- A command that is applied does not see what is queued behind it. -/
theorem apply_blind (c : PartCommand) (queue : List PartCommand) :
    Coupled (fun d e => e = d.withQueue queue) (fun _ _ => False) (apply c) (apply c) := by
  have same {α : Type} (m : Action Writer α) : Coupled (· = ·) (fun _ _ => False) m m := by
    refine ⟨?_, fun _ _ => False.elim, fun _ _ => False.elim⟩
    rintro w _ rfl
    cases m w with
    | done a after => exact .together rfl
    | panicked p after => exact .panicked rfl
  -- the queue is no part of the writer, so what is done there leaves it as the only difference
  have onWriter {α : Type} (m : Action Writer α) :
      Coupled (fun d e : Desk => e = d.withQueue queue) (fun _ _ => False) (.within onWriter m)
        (.within onWriter m) := by
    refine (same m).within (fun _ _ => ?_) ?_ (fun _ _ _ _ _ => False.elim) (fun _ _ => False.elim)
      (fun _ _ _ => False.elim) fun _ _ _ => False.elim
    · rintro rfl
      rfl
    · rintro d _ w _ rfl rfl
      rfl
  refine coupled_get_bind ?_ (fun _ _ => False.elim) fun _ _ => False.elim
  rintro d _ rfl
  cases c with
  | openPart stream mime =>
    refine (onWriter _).bind fun handle => coupled_modify ?_ (fun _ _ => id) fun _ _ => id
    rintro d _ rfl
    rfl
  | write stream bytes =>
    have handle : (d.withQueue queue).relay.handle? stream = d.relay.handle? stream := rfl
    dsimp only
    rw [handle]
    cases d.relay.handle? stream <;> exact onWriter _
  | close stream =>
    have handle : (d.withQueue queue).relay.handle? stream = d.relay.handle? stream := rfl
    dsimp only
    rw [handle]
    cases d.relay.handle? stream with
    | none => exact onWriter _
    | some handle =>
      have forgotten : Coupled (fun d e : Desk => e = d.withQueue queue) (fun _ _ => False)
          (setRelay (d.relay.forget stream))
          (setRelay ((d.withQueue queue).relay.forget stream)) := by
        refine coupled_modify ?_ (fun _ _ => id) fun _ _ => id
        rintro d _ rfl
        rfl
      exact forgotten.bind fun _ => onWriter _

theorem apply_withQueue {c : PartCommand} {d e : Desk} (ran : apply c d = .done () e)
    (queue : List PartCommand) : apply c (d.withQueue queue) = .done () (e.withQueue queue) := by
  have met := (apply_blind c queue).both d _ rfl
  rw [ran] at met
  generalize apply c (d.withQueue queue) = other at met ⊢
  cases met with
  | together same => rw [same]
  | apart parted => exact parted.elim

theorem apply_queue {c : PartCommand} {d e : Desk} (ran : apply c d = .done () e) :
    e.relay.queue = d.relay.queue := by
  have same := ran.symm.trans (apply_withQueue ran d.relay.queue)
  exact congrArg (·.relay.queue) (Outcome.done.inj same).2

theorem carry_cons_done {c : PartCommand} {rest : List PartCommand} {d e : Desk} :
    carry (c :: rest) d = .done () e ↔
      ∃ middle, apply c d = .done () middle ∧ carry rest middle = .done () e := by
  rw [carry, bind_apply]
  cases apply c d with
  | done _ middle => simp
  | panicked p middle => simp

theorem carry_queue {commands : List PartCommand} {d e : Desk} (ran : carry commands d = .done () e) :
    e.relay.queue = d.relay.queue := by
  induction commands generalizing d with
  | nil =>
    cases ran
    rfl
  | cons c rest ih =>
    obtain ⟨middle, first, others⟩ := carry_cons_done.mp ran
    exact (ih others).trans (apply_queue first)

theorem drainList_eq {commands : List PartCommand} {d e : Desk} (waiting : d.relay.queue = commands)
    (ran : carry commands (d.withQueue []) = .done () e) : drainList commands d = .done () e := by
  induction commands generalizing d with
  | nil =>
    rw [withQueue_own waiting] at ran
    exact ran
  | cons c rest ih =>
    obtain ⟨middle, first, others⟩ := carry_cons_done.mp ran
    show (apply c >>= fun _ => drainList rest) (d.withQueue rest) = _
    have applied : apply c (d.withQueue rest) = .done () (middle.withQueue rest) :=
      apply_withQueue first rest
    rw [bind_apply, applied]
    have idle : middle.relay.queue = [] := apply_queue first
    exact ih rfl (by rwa [withQueue_back idle])

/-! Desks that differ in what was recorded. -/

theorem serves_carry {c : Coupling} (commands : List PartCommand) :
    c.Serves (carry commands) (carry commands) := by
  induction commands with
  | nil => exact coupled_pure ()
  | cons command rest ih => exact (Coupling.serves_apply command).bind fun _ => ih

def Like (d e : Desk) : Prop :=
  ∃ log, e = ⟨{ d.writer with outlet := { d.writer.outlet with log := log } }, d.relay⟩

theorem like_iff {d e : Desk} : Coupling.unlogged.DesksTogether d e ↔ d.Like e := by
  constructor
  · rintro ⟨_, ⟨_, ⟨log, rfl⟩, rfl⟩, rfl⟩
    exact ⟨log, rfl⟩
  · rintro ⟨log, rfl⟩
    exact ⟨_, ⟨_, ⟨log, rfl⟩, rfl⟩, rfl⟩

theorem Like.refl (d : Desk) : d.Like d := ⟨d.writer.outlet.log, rfl⟩

theorem Like.symm {d e : Desk} (like : d.Like e) : e.Like d := by
  obtain ⟨log, rfl⟩ := like
  exact ⟨d.writer.outlet.log, rfl⟩

theorem Like.trans {d e f : Desk} (first : d.Like e) (second : e.Like f) : d.Like f := by
  obtain ⟨log, rfl⟩ := first
  obtain ⟨log, rfl⟩ := second
  exact ⟨log, rfl⟩

theorem Like.relay {d e : Desk} (like : d.Like e) : e.relay = d.relay := by
  obtain ⟨log, rfl⟩ := like
  rfl

theorem Like.transport {d e : Desk} (like : d.Like e) :
    e.writer.outlet.transport = d.writer.outlet.transport := by
  obtain ⟨log, rfl⟩ := like
  rfl

theorem record_like (e : Event) (d : Desk) : (record e).Ends d fun _ after => d.Like after :=
  ⟨(), _, rfl, d.writer.outlet.log.push e, rfl⟩

/-- What one of two desks that are like does, the other does. -/
theorem Like.follows {α : Type} {m : Action Desk α} (served : Coupling.unlogged.Serves m m)
    {d e after : Desk} {a : α} (like : d.Like e) (ran : m e = .done a after) :
    m.Ends d fun b last => b = a ∧ last.Like after := by
  have met := served.both d e (like_iff.mpr like)
  rw [ran] at met
  generalize went : m d = outcome at met
  cases met with
  | together still => exact ⟨_, _, went, rfl, like_iff.mp still⟩
  | apart parted => exact parted.elim

/-- With its queue carried out as well, the desk would be like the other one. -/
def Foresees (d e : Desk) : Prop :=
  (carry d.relay.queue).Ends (d.withQueue []) fun _ after => after.Like e

/-- Carrying out what is queued can be foreseen over a transport that never panics. -/
theorem exists_foreseen (d : Desk) (calm : d.writer.outlet.Calm) :
    ∃ e, d.Foresees e ∧ e.writer.outlet.Calm ∧ e.relay.queue = [] := by
  obtain ⟨_, e, carried, still⟩ := Outlet.calm_lasts.desk (serves_carry d.relay.queue)
    (d.withQueue []) calm
  exact ⟨e, ⟨(), e, carried, .refl e⟩, still, carry_queue carried⟩

theorem Foresees.of_like {d after e : Desk} (foreseen : d.Foresees e) (like : d.Like after) :
    after.Foresees e := by
  obtain ⟨_, last, ran, reached⟩ := foreseen
  obtain ⟨log, rfl⟩ := like
  have turned : Like (withQueue [] ⟨{ d.writer with
      outlet := { d.writer.outlet with log := log } }, d.relay⟩) (d.withQueue []) :=
    ⟨d.writer.outlet.log, rfl⟩
  exact (turned.follows (serves_carry d.relay.queue) ran).weaken fun _ _ same => same.2.trans reached

theorem Foresees.enqueued {c : PartCommand} {d e after : Desk} (foreseen : d.Foresees e)
    (ran : apply c e = .done () after) : (enqueue c).Ends d fun _ last => last.Foresees after := by
  refine ends_modify _ _ _ ?_
  show (carry (d.relay.queue ++ [c])).Ends (d.withQueue []) _
  rw [carry_append]
  refine Ends.bind foreseen fun _ middle like => ?_
  refine (like.follows (Coupling.serves_apply c) ran).bind fun _ last same => ?_
  exact ends_pure _ _ _ same.2

/-- Applying the first command in the queue early is no more than beginning to carry the queue out. -/
theorem Foresees.stepped {d e : Desk} (foreseen : d.Foresees e) :
    step.Ends d fun _ after => after.Foresees e := by
  refine ends_get_bind _ _ _ ?_
  cases waiting : d.relay.queue with
  | nil =>
    simp only [waiting]
    exact ends_pure _ _ _ foreseen
  | cons c rest =>
    simp only [waiting]
    obtain ⟨_, last, ran, like⟩ := foreseen
    rw [waiting] at ran
    obtain ⟨middle, first, others⟩ := carry_cons_done.mp ran
    have applied : apply c (d.withQueue rest) = .done () (middle.withQueue rest) :=
      apply_withQueue first rest
    have idle : middle.relay.queue = [] := apply_queue first
    have left : (apply c).Ends (d.withQueue rest) fun _ after => after.Foresees e := by
      refine ⟨(), _, applied, (), last, ?_, like⟩
      rw [withQueue_back idle]
      exact others
    refine ends_modify_bind _ _ _ _ (left.bind fun _ after still => ?_)
    exact ends_pure _ _ _ still

theorem Foresees.drained {d e : Desk} (foreseen : d.Foresees e) :
    drain.Ends d fun _ after => after.Like e := by
  obtain ⟨_, after, ran, like⟩ := foreseen
  exact ⟨(), after, drainList_eq rfl ran, like⟩

end Desk

/-- Whether a course comes to its end without suspending. -/
def Course.IsPrompt {σ α : Type} : Course σ α → Prop
  | .ended _ _ => True
  | .send _ next | .record _ next => next.IsPrompt
  | .suspend _ _ => False

namespace Session

variable {ω υ α : Type}

/-- However a course suspends, what it leaves in the queue completes the same calls. -/
theorem follow_foresees (c : Course (Workshop ω) α) (s : Session ω) (e last : Desk)
    (foreseen : s.desk.Foresees e) (carried : Desk.carry c.commands e = .done () last) :
    (follow c).Comes s c.outcome fun after => after.desk.Foresees last ∧
      after.workshop = c.finalState ∧ after.summary = s.summary := by
  induction c generalizing s e with
  | ended outcome w =>
    cases carried
    cases outcome with
    | ok a => exact ⟨{ s with workshop := w }, rfl, foreseen, rfl, rfl⟩
    | error p => exact ⟨{ s with workshop := w }, rfl, foreseen, rfl, rfl⟩
  | send c next ih =>
    obtain ⟨middle, first, others⟩ := Desk.carry_cons_done.mp carried
    apply (atDesk_ends _ s _ (foreseen.enqueued first)).then_comes
    rintro _ _ ⟨d, more, rfl⟩
    exact ih _ middle more others
  | record event next ih =>
    apply (atDesk_ends _ s _ (Desk.record_like event s.desk)).then_comes
    rintro _ _ ⟨d, like, rfl⟩
    exact ih _ e (foreseen.of_like like) carried
  | suspend w next ih =>
    have moved : (setWorkshop w).Ends s fun _ after => after = { s with workshop := w } :=
      ends_modify _ _ _ rfl
    apply moved.then_comes
    rintro _ _ rfl
    apply (atDesk_ends _ { s with workshop := w } _ foreseen.stepped).then_comes
    rintro _ _ ⟨d, still, rfl⟩
    exact ih _ e still carried

theorem runAlongside_foresees (code : BatchCode ω α) (s : Session ω) (e last : Desk) (a : α)
    (foreseen : s.desk.Foresees e)
    (carried : Desk.carry (code s.workshop).commands e = .done () last)
    (ended : (code s.workshop).outcome = .ok a) :
    (runAlongside code).Ends s fun b after => b = a ∧ after.desk.Like last ∧
      after.workshop = (code s.workshop).finalState ∧ after.summary = s.summary := by
  have followed := follow_foresees (code s.workshop) s e last foreseen carried
  rw [ended] at followed
  refine ends_get_bind _ _ _ (followed.ends.bind ?_)
  rintro _ middle ⟨rfl, still, reached, counted⟩
  apply (atDesk_ends _ middle _ still.drained).bind
  rintro _ _ ⟨d, like, rfl⟩
  exact ends_pure _ _ _ ⟨rfl, like, reached, counted⟩

/-- Two sessions whose writers have done the same and that have the same commands left to apply. -/
structure Abreast (s : Session ω) (t : Session υ) : Prop where
  like : s.desk.Like t.desk
  calm : t.desk.writer.outlet.Calm
  summary : s.summary = t.summary

variable {s : Session ω} {t : Session υ}

theorem Abreast.broken (abreast : Abreast s t) :
    t.desk.writer.outlet.broken = s.desk.writer.outlet.broken := by
  obtain ⟨log, same⟩ := abreast.like
  rw [same]

theorem Abreast.foresees (abreast : Abreast s t) :
    ∃ e, s.desk.Foresees e ∧ t.desk.Foresees e ∧ e.writer.outlet.Calm ∧ e.relay.queue = [] := by
  obtain ⟨e, foreseen, calm, idle⟩ := t.desk.exists_foreseen abreast.calm
  exact ⟨e, foreseen.of_like abreast.like.symm, foreseen, calm, idle⟩

/-- Code that sends the same commands and comes to ends that are alike brings two sessions equally
far. -/
theorem runAlongside_both {β : Type} (code : BatchCode ω α) (other : BatchCode υ β) (a : α) (b : β)
    (abreast : Abreast s t)
    (commands : (code s.workshop).commands = (other t.workshop).commands)
    (ended : (code s.workshop).outcome = .ok a) (endedToo : (other t.workshop).outcome = .ok b) :
    EndBoth (runAlongside code) (runAlongside other) s t fun c d u v => c = a ∧ d = b ∧
      Abreast u v ∧ u.workshop = (code s.workshop).finalState ∧
      v.workshop = (other t.workshop).finalState := by
  obtain ⟨e, foreseen, foreseenToo, calm, -⟩ := abreast.foresees
  obtain ⟨_, last, carried, still⟩ := Outlet.calm_lasts.desk
    (Desk.serves_carry (other t.workshop).commands) e calm
  apply (runAlongside_foresees code s e last a foreseen (commands ▸ carried) ended).weaken
  rintro c u ⟨same, like, reached, counted⟩
  apply (runAlongside_foresees other t e last b foreseenToo carried endedToo).weaken
  rintro d v ⟨sameToo, likeToo, reachedToo, countedToo⟩
  refine ⟨same, sameToo, ⟨like.trans likeToo.symm, ?_, ?_⟩, reached, reachedToo⟩
  · obtain ⟨log, rfl⟩ := likeToo
    exact still
  · rw [counted, countedToo, abreast.summary]

/-- What is built from outlets does the same on both sides. -/
theorem atWriter_both (m : Action Writer α) (kept : ∀ c : Coupling, c.Keeps m m)
    (abreast : Abreast s t) :
    EndBoth (atWriter m) (atWriter m) s t fun a b u v => a = b ∧ Abreast u v ∧
      u.workshop = s.workshop ∧ v.workshop = t.workshop := by
  have ended : (Action.within Desk.onWriter m).Ends t.desk fun _ d => d.writer.outlet.Calm := by
    apply (Outlet.calm_lasts.writer (kept _) t.desk.writer abreast.calm).within.weaken
    rintro _ _ ⟨w, calm, rfl⟩
    exact calm
  obtain ⟨a, e, ran, calm⟩ := ended
  apply (atDesk_ends _ s _ (abreast.like.follows (Coupling.serves_onWriter (kept _)) ran)).weaken
  rintro b _ ⟨d, ⟨rfl, like⟩, rfl⟩
  apply (atDesk_ends (Action.within Desk.onWriter m) t (fun c d => c = b ∧ d = e)
    ⟨b, e, ran, rfl, rfl⟩).weaken
  rintro _ _ ⟨_, ⟨rfl, rfl⟩, rfl⟩
  exact ⟨rfl, ⟨like, calm, abreast.summary⟩, rfl, rfl⟩

theorem drain_both (abreast : Abreast s t) :
    EndBoth (atDesk Desk.drain) (atDesk Desk.drain) s t fun _ _ u v => Abreast u v ∧
      u.workshop = s.workshop ∧ v.workshop = t.workshop := by
  obtain ⟨e, foreseen, foreseenToo, calm, -⟩ := abreast.foresees
  apply (atDesk_ends _ s _ foreseen.drained).weaken
  rintro _ _ ⟨d, like, rfl⟩
  apply (atDesk_ends _ t _ foreseenToo.drained).weaken
  rintro _ _ ⟨d', likeToo, rfl⟩
  refine ⟨⟨like.trans likeToo.symm, ?_, abreast.summary⟩, rfl, rfl⟩
  obtain ⟨log, rfl⟩ := likeToo
  exact calm

/-! Sequences that come to the same, pulled side by side. -/

theorem Abreast.pulled (abreast : Abreast s t) (pull : Pull) (m : ModuleState ω)
    (n : ModuleState υ) : Abreast (s.pulled pull m) (t.pulled pull n) where
  like := by
    obtain ⟨log, same⟩ := Desk.like_iff.mp (Coupling.desks_hearing
      (Desk.like_iff.mpr abreast.like) pull.events pull.events)
    refine ⟨log, ?_⟩
    show Desk.mk _ { t.desk.relay with queue := t.desk.relay.queue ++ pull.commands } = _
    rw [abreast.like.relay]
    exact congrArg (Desk.mk · _) (congrArg Desk.writer same)
  calm := by
    obtain ⟨_, w, ran, calm⟩ := Outlet.calm_lasts.writer
      (Coupling.keeps_recordAll pull.events pull.events) t.desk.writer abreast.calm
    cases (Writer.recordAll_apply pull.events t.desk.writer).symm.trans ran
    exact calm
  summary := abreast.summary

theorem pull_both {producer : Producer ω} {other : Producer υ} (index : Nat) (abreast : Abreast s t)
    (same : producer.pull index s.workshop.modules = other.pull index t.workshop.modules) :
    EndBoth (pull producer index) (pull other index) s t fun a b u v =>
      a = (producer.pull index s.workshop.modules).came ∧
        b = (producer.pull index s.workshop.modules).came ∧ Abreast u v ∧
        u.workshop = s.workshop.moved (producer.next index s.workshop.modules) ∧
        v.workshop = t.workshop.moved (other.next index t.workshop.modules) :=
  ⟨_, _, pull_apply producer index s, _, _, pull_apply other index t, rfl, same ▸ rfl,
    same ▸ abreast.pulled _ _ _, rfl, rfl⟩

/-- Sequences whose pulls would come to the same are pulled equally often. -/
theorem emitElements_both {producer : Producer ω} {other : Producer υ} (id : String)
    (handle patience index written : Nat) (abreast : Abreast s t)
    (same : producer.pulls patience index s.workshop.modules =
      other.pulls patience index t.workshop.modules) :
    EndBoth (emitElements producer id handle patience index written)
      (emitElements other id handle patience index written) s t fun a b u v => a = b ∧ Abreast u v ∧
        ∃ count ≤ (producer.pulls patience index s.workshop.modules).length,
          u.workshop = s.workshop.moved (producer.after count index s.workshop.modules) ∧
          v.workshop = t.workshop.moved (other.after count index t.workshop.modules) := by
  induction patience generalizing index written s t with
  | zero =>
    apply (atWriter_both _ (fun c => Coupling.keeps_abandoned id) abreast).bind
    rintro gone _ u v ⟨rfl, abreast, still, stillToo⟩
    exact ends_pure _ _ _ (ends_pure _ _ _
      ⟨rfl, abreast, 0, Nat.zero_le _, still, stillToo⟩)
  | succ patience ih =>
    apply (atWriter_both _ (fun c => Coupling.keeps_abandoned id) abreast).bind
    rintro gone _ u v ⟨rfl, abreast, still, stillToo⟩
    cases gone with
    | true =>
      exact ends_pure _ _ _ (ends_pure _ _ _
        ⟨rfl, abreast, 0, Nat.zero_le _, still, stillToo⟩)
    | false =>
      rw [← still, ← stillToo] at same ⊢
      rw [producer.pulls_succ, other.pulls_succ] at same
      obtain ⟨first, rest⟩ := List.cons.inj same
      have once : 1 ≤ (producer.pulls (patience + 1) index u.workshop.modules).length := by
        rw [producer.pulls_succ]
        exact Nat.succ_le_succ (Nat.zero_le _)
      apply (pull_both index abreast first).bind
      rintro _ _ u' v' ⟨rfl, rfl, abreast, moved, movedToo⟩
      match came : (producer.pull index u.workshop.modules).came with
      | .error p =>
        apply (atWriter_both _ (fun c => Coupling.keeps_record _ _) abreast).bind
        rintro _ _ u v ⟨-, abreast, still, stillToo⟩
        exact ends_pure _ _ _ (ends_pure _ _ _
          ⟨rfl, abreast, 1, once, still.trans moved, stillToo.trans movedToo⟩)
      | .ok none =>
        exact ends_pure _ _ _ (ends_pure _ _ _ ⟨rfl, abreast, 1, once, moved, movedToo⟩)
      | .ok (some element) =>
        have more := Pull.isLast_of_some came
        rw [← first, if_neg (ne_true_of_eq_false more),
          if_neg (ne_true_of_eq_false more)] at rest
        apply (atWriter_both _ (fun c => Coupling.keeps_emitElement id handle index written
          (.same_public element)) abreast).bind
        rintro count _ u'' v'' ⟨rfl, abreast, still, stillToo⟩
        have onward := ih (index + 1) count abreast (by
          rw [still, stillToo, moved, movedToo]
          exact rest)
        rw [still, stillToo, moved, movedToo] at onward
        apply onward.weaken
        rintro _ _ _ _ ⟨same, abreast, later, bound, reached, reachedToo⟩
        refine ⟨same, abreast, later + 1, ?_, reached, reachedToo⟩
        rw [producer.pulls_of_more _ _ _ more]
        exact Nat.succ_le_succ bound

theorem emit_both (debug : Bool) (patience : Nat) (id : String) {result : EntryResult ω}
    {fellow : EntryResult υ} (abreast : Abreast s t)
    (same : result.answer patience s.workshop.modules =
      fellow.answer patience t.workshop.modules) :
    EndBoth (emit debug patience id result) (emit debug patience id fellow) s t fun a b u v =>
      a = b ∧ Abreast u v ∧ ∃ count ≤ (result.pulls patience s.workshop.modules).length,
        u.workshop = s.workshop.moved (result.after count s.workshop.modules) ∧
        v.workshop = t.workshop.moved (fellow.after count t.workshop.modules) := by
  have written {m : Action Writer Emitted} (kept : ∀ c : Coupling, c.Keeps m m) :
      EndBoth (do return (← atWriter m, false)) (do return (← atWriter m, false)) s t
        fun a b u v => a = b ∧ Abreast u v ∧ u.workshop = s.workshop ∧ v.workshop = t.workshop := by
    apply (atWriter_both m kept abreast).bind
    rintro a _ u v ⟨rfl, abreast, still⟩
    exact ends_pure _ _ _ (ends_pure _ _ _ ⟨rfl, abreast, still⟩)
  match result, fellow, same with
  | .ok (.value json), .ok (.value _), rfl =>
    exact (written fun c => Coupling.keeps_emitValue id (.same_public json)).weaken
      fun _ _ _ _ ⟨same, abreast, still, stillToo⟩ =>
        ⟨same, abreast, 0, Nat.zero_le _, still, stillToo⟩
  | .error f, .error _, rfl =>
    exact (written fun c => Coupling.keeps_emitFailure id (.refl debug f)).weaken
      fun _ _ _ _ ⟨same, abreast, still, stillToo⟩ =>
        ⟨same, abreast, 0, Nat.zero_le _, still, stillToo⟩
  | .ok (.sequence producer), .ok (.sequence other), same =>
    have pulls : producer.pulls patience 0 s.workshop.modules =
        other.pulls patience 0 t.workshop.modules :=
      Content.sequence.inj (Except.ok.inj same)
    have pulled : EndBoth (emitSequence patience id producer) (emitSequence patience id other) s t
        fun a b u v => a = b ∧ Abreast u v ∧
          ∃ count ≤ (producer.pulls patience 0 s.workshop.modules).length,
            u.workshop = s.workshop.moved (producer.after count 0 s.workshop.modules) ∧
            v.workshop = t.workshop.moved (other.after count 0 t.workshop.modules) := by
      apply (atWriter_both _ (fun c => Coupling.keeps_openSequence id) abreast).bind
      rintro handle _ u v ⟨rfl, abreast, still, stillToo⟩
      rw [← still, ← stillToo] at pulls ⊢
      apply (emitElements_both id handle patience 0 0 abreast pulls).bind
      rintro cut _ u v ⟨rfl, abreast, reached⟩
      apply (atWriter_both _ (fun c => Coupling.keeps_closeSequence handle) abreast).bind
      rintro _ _ u v ⟨-, abreast, same, sameToo⟩
      refine ends_pure _ _ _ (ends_pure _ _ _ ⟨rfl, abreast, ?_⟩)
      rwa [same, sameToo]
    apply pulled.bind
    rintro cut _ u v ⟨rfl, abreast, reached⟩
    exact ends_pure _ _ _ (ends_pure _ _ _ ⟨rfl, abreast, reached⟩)

variable {setting : Setting ω} {other : Setting υ}

theorem takeTurn_both (settings : setting.settings = other.settings)
    (patience : setting.patience = other.patience) (id : String) (body : Json)
    (abreast : Abreast s t)
    (same : Batch.reportOf setting.patience id (Batch.courseOf setting id body s.workshop) =
      Batch.reportOf other.patience id (Batch.courseOf other id body t.workshop)) :
    EndBoth (takeTurn setting id body) (takeTurn other id body) s t fun _ _ u v => Abreast u v ∧
      ∃ count ≤ ((Batch.resultOf (Batch.courseOf setting id body s.workshop)).pulls
          setting.patience (Batch.courseOf setting id body s.workshop).finalState.modules).length,
        u.workshop = Batch.pulledBy (Batch.courseOf setting id body s.workshop) count ∧
        v.workshop = Batch.pulledBy (Batch.courseOf other id body t.workshop) count := by
  show EndBoth (runAlongside (Batch.courseOf setting id body) >>= _)
    (runAlongside (Batch.courseOf other id body) >>= _) s t _
  rw [← settings, ← patience]
  rw [← patience] at same
  apply (runAlongside_both _ _ _ _ abreast (congrArg Report.commands same)
    (Batch.courseOf_outcome setting id body s.workshop)
    (Batch.courseOf_outcome other id body t.workshop)).bind
  rintro _ _ u v ⟨rfl, rfl, abreast, reached, reachedToo⟩
  have answer : (Batch.resultOf (Batch.courseOf setting id body s.workshop)).answer setting.patience
        u.workshop.modules =
      (Batch.resultOf (Batch.courseOf other id body t.workshop)).answer setting.patience
        v.workshop.modules := by
    rw [reached, reachedToo]
    exact congrArg Report.result same
  have written := emit_both setting.settings.debug setting.patience id abreast answer
  rw [show u.workshop = _ from reached, show v.workshop = _ from reachedToo] at written
  apply written.bind
  rintro ⟨emitted, cut⟩ _ u' v' ⟨rfl, abreast, later⟩
  refine ends_modify _ _ _ (ends_modify _ _ _ ⟨⟨abreast.like, abreast.calm, ?_⟩, later⟩)
  rw [abreast.summary]

theorem guarded_both {m next : Action (Session ω) Unit} {n go : Action (Session υ) Unit}
    {middle after : Unit → Unit → Session ω → Session υ → Prop} (debug : Bool)
    (first : EndBoth m n s t middle)
    (second : ∀ u v, middle () () u v → EndBoth next go u v after) :
    EndBoth (guarded debug m next) (guarded debug n go) s t after := by
  apply first.attempt.bind
  rintro _ _ u v ⟨_, _, rfl, rfl, holds⟩
  exact second u v holds

theorem abort_both (debug : Bool) (f : BatchFault) (abreast : Abreast s t) :
    EndBoth (abort debug f) (abort debug f) s t fun _ _ u v => Abreast u v ∧
      u.workshop = s.workshop ∧ v.workshop = t.workshop := by
  have marked : Abreast { s with summary := { s.summary with aborted := true } }
      { t with summary := { t.summary with aborted := true } } :=
    ⟨abreast.like, abreast.calm, by rw [abreast.summary]⟩
  exact (atWriter_both _ (fun c => Coupling.keeps_emitFault (.refl _ _)) marked).weaken
    fun _ _ _ _ => And.right

theorem takeFault_both (f : BatchFault) (abreast : Abreast s t) :
    EndBoth (takeFault f) (takeFault f) s t fun _ _ u v => Abreast u v ∧
      u.workshop = s.workshop ∧ v.workshop = t.workshop := by
  cases f with
  | panicked message => exact drain_both abreast
  | tooManyEntries count limit =>
    apply (atWriter_both (Writer.record _) (fun c => Coupling.keeps_record _ _) abreast).bind
    rintro _ _ u v ⟨-, abreast, same, sameToo⟩
    rw [← same, ← sameToo]
    exact drain_both abreast

theorem lastTurn_both (debug : Bool) (fault : Option BatchFault) (abreast : Abreast s t) :
    EndBoth (lastTurn debug fault) (lastTurn debug fault) s t fun _ _ u v => Abreast u v ∧
      u.workshop = s.workshop ∧ v.workshop = t.workshop := by
  cases fault with
  | none =>
    refine guarded_both _ (drain_both abreast) ?_
    rintro u v after
    exact ends_pure _ _ _ (ends_pure _ _ _ after)
  | some f =>
    refine guarded_both _ (takeFault_both f abreast) ?_
    rintro u v ⟨abreast, reached, reachedToo⟩
    apply (abort_both debug f abreast).weaken
    rintro _ _ _ _ ⟨abreast, still, stillToo⟩
    exact ⟨abreast, still.trans reached, stillToo.trans reachedToo⟩

/-- Entries that send the same and come to the same, however far their sequences are pulled, bring two
sessions equally far, turn by turn. -/
theorem turnsThen_both (settings : setting.settings = other.settings)
    (patience : setting.patience = other.patience) (fault : Option BatchFault) (entries : Members)
    (s : Session ω) (t : Session υ) (abreast : Abreast s t)
    (same : ∀ turns : List Taken, turns.map (·.entry) = entries →
      Batch.Fits setting turns s.workshop →
      Batch.reportsOf setting turns s.workshop = Batch.reportsOf other turns t.workshop) :
    EndBoth (turnsThen setting (lastTurn setting.settings.debug fault) entries)
      (turnsThen other (lastTurn setting.settings.debug fault) entries) s t fun _ _ u v =>
        Abreast u v ∧ ∃ turns : List Taken, turns.map (·.entry) = entries ∧
          Batch.Fits setting turns s.workshop ∧
          u.workshop = Batch.workshopBehind setting turns s.workshop ∧
          v.workshop = Batch.workshopBehind other turns t.workshop := by
  induction entries generalizing s t with
  | nil =>
    exact (lastTurn_both setting.settings.debug fault abreast).weaken
      fun _ _ _ _ ⟨abreast, still, stillToo⟩ => ⟨abreast, [], rfl, trivial, still, stillToo⟩
  | cons entry rest ih =>
    obtain ⟨id, body⟩ := entry
    -- whatever is behind it, the first report is the same
    have first := (List.cons.inj (same _ (List.map_cons.trans (congrArg _
      (Batch.wholeTurns_entries setting rest _))) (Batch.wholeTurns_fits setting
        ((id, body) :: rest) s.workshop))).1
    rw [turnsThen, turnsThen, ← settings]
    refine guarded_both _ (takeTurn_both settings patience id body abreast first) ?_
    rintro u v ⟨abreast, count, bound, reached, reachedToo⟩
    have later := ih u v abreast (by
      intro turns taken fits
      rw [reached] at fits
      have all := same (⟨id, body, count⟩ :: turns) (congrArg _ taken) ⟨bound, fits⟩
      rw [reached, reachedToo]
      exact (List.cons.inj all).2)
    rw [reached, reachedToo] at later
    apply later.weaken
    rintro _ _ _ _ ⟨abreast, turns, taken, fits, left, leftToo⟩
    exact ⟨abreast, ⟨id, body, count⟩ :: turns, congrArg _ taken, ⟨bound, fits⟩, left, leftToo⟩

/-- Before it is drained, what a course sends without suspending reaches no writer. -/
theorem follow_prompt (c : Course (Workshop ω) α) (prompt : c.IsPrompt) (s : Session ω) :
    (follow c).Comes s c.outcome fun after =>
      after.desk.writer.outlet.transport = s.desk.writer.outlet.transport ∧
      after.summary = s.summary := by
  induction c generalizing s with
  | ended outcome w =>
    cases outcome with
    | ok a => exact ⟨{ s with workshop := w }, rfl, rfl, rfl⟩
    | error p => exact ⟨{ s with workshop := w }, rfl, rfl, rfl⟩
  | send c next ih => exact ih prompt _
  | record e next ih => exact ih prompt _
  | suspend w next ih => exact prompt.elim

theorem conclude_eq : (conclude : Action (Session ω) Unit) =
    runAlongside Workshop.closeAll >>= fun _ => atWriter Writer.finish := by
  simp only [conclude, runAlongside, bind_assoc, pure_bind]

/-- Hooks that send the same bring two sessions to the same end, if they come to it. One that panics
leaves its commands in the queue, so it must not have suspended before. -/
theorem conclude_alike (abreast : Abreast s t)
    (commands : (Workshop.closeAll s.workshop).commands = (Workshop.closeAll t.workshop).commands)
    (outcome : (Workshop.closeAll s.workshop).outcome = (Workshop.closeAll t.workshop).outcome)
    (prompt : ∀ p, (Workshop.closeAll s.workshop).outcome = .error p →
      (Workshop.closeAll s.workshop).IsPrompt ∧ (Workshop.closeAll t.workshop).IsPrompt) :
    (conclude s).Alike
      (fun u v => u.desk.writer.outlet.transport = v.desk.writer.outlet.transport ∧
        u.summary = v.summary) (fun _ _ => True) (· = ·) (conclude t) := by
  cases ended : (Workshop.closeAll s.workshop).outcome with
  | ok a =>
    rw [conclude_eq, conclude_eq]
    have finished : EndBoth (runAlongside Workshop.closeAll >>= fun _ => atWriter Writer.finish)
        (runAlongside Workshop.closeAll >>= fun _ => atWriter Writer.finish) s t
        fun _ _ u v => Abreast u v := by
      apply (runAlongside_both _ _ a a abreast commands ended (outcome ▸ ended)).bind
      rintro _ _ u v ⟨-, -, abreast, -⟩
      exact (atWriter_both _ (fun c => Coupling.keeps_finish) abreast).weaken
        fun _ _ _ _ same => same.2.1
    obtain ⟨_, u, ran, _, v, ranToo, abreast⟩ := finished
    rw [ran, ranToo]
    exact .done trivial ⟨abreast.like.transport.symm, abreast.summary⟩
  | error p =>
    obtain ⟨first, second⟩ := prompt p ended
    obtain ⟨u, ran, same, counted⟩ := Comes.panics
      (ended ▸ follow_prompt (Workshop.closeAll s.workshop) first s)
      fun _ => (atDesk Desk.drain >>= fun _ => atWriter Writer.finish)
    obtain ⟨v, ranToo, sameToo, countedToo⟩ := Comes.panics
      ((outcome.symm.trans ended) ▸ follow_prompt (Workshop.closeAll t.workshop) second t)
      fun _ => (atDesk Desk.drain >>= fun _ => atWriter Writer.finish)
    show Outcome.Alike _ _ _ ((follow _ >>= fun _ => _) s) ((follow _ >>= fun _ => _) t)
    rw [ran, ranToo]
    refine .panicked rfl ⟨?_, by rw [counted, countedToo, abreast.summary]⟩
    rw [same, sameToo, abreast.like.transport]

end Session

namespace Batch

variable {ω υ : Type}

/-- For every request and every transport that never panics, whatever it refuses, cuts short or fails
to flush, and for any two executions in which the entries send the same commands and come to the same
results, however far their sequences are pulled: wherever the code of either suspends, and however many
of its commands are applied before it ends, the transport has seen the same calls and holds the same
octets, and the counts are the same. -/
theorem suspensions_leave_no_trace (setting : Setting ω) (other : Setting υ) (world : ω) (twin : υ)
    (body : Octets) (info : RequestInfo) (peer : Peer) (boundary : Boundary)
    (calm : peer.NeverPanics) (settings : setting.settings = other.settings)
    (patience : setting.patience = other.patience)
    (reports : ∀ turns, MayTake setting world body info turns →
      (accountOf setting world body info turns).reports =
        (accountOf other twin body info turns).reports)
    (commands : ∀ turns, MayTake setting world body info turns →
      (accountOf setting world body info turns).closing.commands =
        (accountOf other twin body info turns).closing.commands)
    (outcome : ∀ turns, MayTake setting world body info turns →
      (accountOf setting world body info turns).closing.outcome =
        (accountOf other twin body info turns).closing.outcome)
    (prompt : ∀ turns, MayTake setting world body info turns →
      ∀ p, (accountOf setting world body info turns).closing.outcome = .error p →
        (accountOf setting world body info turns).closing.IsPrompt ∧
          (accountOf other twin body info turns).closing.IsPrompt) :
    (run setting world body info peer boundary).Alike
      (fun s t => s.desk.writer.outlet.transport = t.desk.writer.outlet.transport ∧
        s.summary = t.summary) (fun _ _ => True) (· = ·)
      (run other twin body info peer boundary) := by
  have begun : Session.Abreast (Session.start setting world peer boundary)
      (Session.start other twin peer boundary) := by
    refine ⟨?_, calm, rfl⟩
    rw [Session.start, Session.start, settings]
    exact .refl _
  -- refusing a request runs no code of modules, so there the runs differ in their worlds alone
  cases parsed : Envelope.parse body info with
  | error r =>
    have refused : EndBoth (Session.refuse setting.settings.debug r)
        (Session.refuse setting.settings.debug r) (Session.start setting world peer boundary)
        (Session.start other twin peer boundary) fun _ _ u v => Session.Abreast u v := by
      apply (Session.atWriter_both _ (fun c => Coupling.keeps_emitFault (.refl _ _)) begun).bind
      rintro _ _ u v ⟨-, abreast, -⟩
      have marked : Session.Abreast { u with summary := { u.summary with aborted := true } }
          { v with summary := { v.summary with aborted := true } } :=
        ⟨abreast.like, abreast.calm, by rw [abreast.summary]⟩
      exact (Session.atWriter_both _ (fun c => Coupling.keeps_finish) marked).weaken
        fun _ _ _ _ ended => ended.2.1
    obtain ⟨_, u, ran, _, v, ranToo, abreast⟩ := refused
    rw [run_of_rejected setting world peer boundary parsed,
      run_of_rejected other twin peer boundary parsed, reject, reject, ← settings, ran, ranToo]
    exact .done trivial ⟨abreast.like.transport.symm, abreast.summary⟩
  | ok envelope =>
    have may (turns : List Taken) (taken : turns.map (·.entry) =
        (Agenda.start setting.settings.maxEntries envelope.entries).admitted)
        (fits : Fits setting turns (.start setting.order world)) :
        MayTake setting world body info turns := by
      rintro _ same
      cases parsed.symm.trans same
      exact ⟨taken, fits⟩
    simp only [accountOf, parsed] at reports commands outcome prompt
    obtain ⟨_, u, ran, _, v, ranToo, abreast, turns, taken, fits, reached, reachedToo⟩ :=
      Session.turnsThen_both settings patience
        (Agenda.start setting.settings.maxEntries envelope.entries).fault? _ _ _ begun
        fun turns taken fits => reports turns (may turns taken fits)
    rw [run_of_accepted setting world peer boundary parsed,
      run_of_accepted other twin peer boundary parsed, runEntries_eq setting world _ peer boundary rfl,
      runEntries_eq other twin _ peer boundary rfl, ← settings, bind_apply, ran, bind_apply, ranToo]
    have allowed := may turns taken fits
    refine Session.conclude_alike abreast ?_ ?_ ?_
    · rw [reached, reachedToo]
      exact commands turns allowed
    · rw [reached, reachedToo]
      exact outcome turns allowed
    · rw [reached, reachedToo]
      exact prompt turns allowed

/-- The module of notes again, with code that suspends before it returns. -/
def pausingNotes : Registry StreamId := Registry.empty.register "note" fun ctx =>
  return Draft.build ⟨"note",
    [noteOperation "open" fun _ => do
      openNote ctx.sink
      Activity.suspend,
     noteOperation "add" fun stream => do
      Activity.suspend
      ctx.sink.print stream "hi"
      Activity.suspend
      Activity.suspend], none⟩

def pausingSetting : Setting StreamId := { noteSetting with registry := pausingNotes }

/-- The id and the commands of an entry that comes to `null`. -/
def silent? : Report → Option (String × List PartCommand)
  | ⟨id, commands, .ok (.value (.ok .null))⟩ => some (id, commands)
  | _ => none

theorem eq_of_silent (reports others : List Report) (all : ∀ r ∈ reports, (silent? r).isSome = true)
    (same : reports.map silent? = others.map silent?) : reports = others := by
  induction reports generalizing others with
  | nil => exact (List.map_eq_nil_iff.mp same.symm).symm
  | cons r rest ih =>
    cases others with
    | nil => cases same
    | cons r' rest' =>
      obtain ⟨first, later⟩ := List.cons.inj same
      have own := all r List.mem_cons_self
      rw [ih rest' (fun s member => all s (List.mem_cons_of_mem r member)) later]
      match r, r', first, own with
      | ⟨id, commands, .ok (.value (.ok .null))⟩, ⟨_, _, .ok (.value (.ok .null))⟩, rfl, _ => rfl

theorem noteTurns_silent :
    (accountOf noteSetting 0 noteRequest ⟨some "application/json", true⟩ noteTurns).reports =
      (accountOf pausingSetting 0 noteRequest ⟨some "application/json", true⟩ noteTurns).reports := by
  refine eq_of_silent _ _ (List.all_eq_true.mp ?_) ?_ <;>
    simp only [accountOf, noteRequest_accepted] <;> decide +kernel

/-- The part of the first entry is opened while its code is suspended, or when it has ended; either
way it runs out of room in the same call. -/
theorem pauses_of_notes_leave_no_trace :
    (accountOf noteSetting 0 noteRequest ⟨some "application/json", true⟩ noteTurns).reports =
      (accountOf pausingSetting 0 noteRequest ⟨some "application/json", true⟩ noteTurns).reports ∧
    (run noteSetting 0 noteRequest ⟨some "application/json", true⟩
        (.scripted ⟨none, some 40, some 7, none, none, true⟩) ⟨"b"⟩).Alike
      (fun s t => s.desk.writer.outlet.transport = t.desk.writer.outlet.transport ∧
        s.summary = t.summary) (fun _ _ => True) (· = ·)
      (run pausingSetting 0 noteRequest ⟨some "application/json", true⟩
        (.scripted ⟨none, some 40, some 7, none, none, true⟩) ⟨"b"⟩) := by
  have hookless :
      (accountOf noteSetting 0 noteRequest ⟨some "application/json", true⟩
        noteTurns).workshop.cache.all (fun entry => entry.2.onClose.isNone) = true ∧
      (accountOf pausingSetting 0 noteRequest ⟨some "application/json", true⟩
        noteTurns).workshop.cache.all (fun entry => entry.2.onClose.isNone) = true := by
    simp only [accountOf, noteRequest_accepted]
    decide +kernel
  have ends (a : Account StreamId)
      (none : a.workshop.cache.all (fun entry => entry.2.onClose.isNone) = true) :
      a.closing.commands = [] ∧ a.closing.outcome = .ok () := by
    rw [Account.closing, Workshop.closeAll_of_hookless a.workshop fun entry member =>
      Option.isNone_iff_eq_none.mp (List.all_eq_true.mp none entry member)]
    exact ⟨rfl, rfl⟩
  obtain ⟨sent, ended⟩ := ends _ hookless.1
  obtain ⟨sentToo, endedToo⟩ := ends _ hookless.2
  refine ⟨noteTurns_silent, suspensions_leave_no_trace noteSetting pausingSetting 0 0 noteRequest
    ⟨some "application/json", true⟩ _ ⟨"b"⟩ (Peer.scripted_never_panics _ rfl) rfl rfl ?_ ?_ ?_ ?_⟩
  · intro turns may
    rw [eq_noteTurns may]
    exact noteTurns_silent
  · intro turns may
    rw [eq_noteTurns may]
    exact sent.trans sentToo.symm
  · intro turns may
    rw [eq_noteTurns may]
    exact ended.trans endedToo.symm
  · intro turns may p panicked
    rw [eq_noteTurns may] at panicked
    cases ended.symm.trans panicked

end Batch
end Multicall
