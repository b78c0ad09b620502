import Multicall.Proofs.Truncation
/-!
What lasts. Some things that are true of an outlet stay true whatever is sent through it, and while
they are, nothing panics. Two outlets of which such a thing holds are apart in the sense of a coupling
that is never together, so all that is built from outlets keeps it too.
-/
namespace Multicall

open Multicall.Action

/-- A property of outlets that every operation ends in. -/
structure Lasting (good : Outlet → Prop) : Prop where
  record : ∀ e o, good o → good { o with log := o.log.push e }
  send : ∀ block o, good o → (Outlet.send block).Ends o fun _ after => good after
  flush : ∀ o, good o → Outlet.flush.Ends o fun _ after => good after
  shutdown : ∀ o, good o → Outlet.shutdown.Ends o fun _ after => good after

namespace Lasting

variable {good : Outlet → Prop} {α : Type}

/-- Two outlets that have the property each for itself. -/
def coupling (lasting : Lasting good) : Coupling where
  together _ _ := False
  apart o p := good o ∧ good p
  broken _ _ := False.elim
  recordLeft _ _ _ := id
  recordRight _ _ _ := id
  recordLeftApart e o _ held := ⟨lasting.record e o held.1, held.2⟩
  recordRightApart e _ p held := ⟨held.1, lasting.record e p held.2⟩
  send block := alone (lasting.send block)
  flush := alone lasting.flush
  shutdown := alone lasting.shutdown
where
  alone {m : Action Outlet Unit} (ends : ∀ o, good o → m.Ends o fun _ after => good after) :
      Coupled (fun _ _ => False) (fun o p => good o ∧ good p) m m :=
    ⟨fun _ _ => False.elim,
      fun o _ held => (ends o held.1).weaken fun _ _ still => ⟨still, held.2⟩,
      fun _ p held => (ends p held.2).weaken fun _ _ still => ⟨held.1, still⟩⟩

theorem writer (lasting : Lasting good) {m : Action Writer α} (kept : lasting.coupling.Keeps m m)
    (w : Writer) (held : good w.outlet) : m.Ends w fun _ after => good after.outlet :=
  (kept.left w w ⟨held, held⟩).weaken fun _ _ => And.left

theorem desk (lasting : Lasting good) {m : Action Desk α} (kept : lasting.coupling.Serves m m)
    (d : Desk) (held : good d.writer.outlet) : m.Ends d fun _ after => good after.writer.outlet :=
  (kept.left d d ⟨held, held⟩).weaken fun _ _ => And.left

/-- Properties that last each for itself last together. -/
theorem and {other : Outlet → Prop} (first : Lasting good) (second : Lasting other) :
    Lasting fun o => good o ∧ other o where
  record e o held := ⟨first.record e o held.1, second.record e o held.2⟩
  send block o held := (first.send block o held.1).and (second.send block o held.2)
  flush o held := (first.flush o held.1).and (second.flush o held.2)
  shutdown o held := (first.shutdown o held.1).and (second.shutdown o held.2)

end Lasting

namespace Session

variable {ω α : Type} {good : Outlet → Prop}

/-- The session goes on with other desks only. -/
def OnlyDesk (s after : Session ω) : Prop :=
  after.workshop = s.workshop ∧ after.summary = s.summary ∧ after.exhausted = s.exhausted

def Has (good : Outlet → Prop) (s : Session ω) : Prop := good s.desk.writer.outlet

theorem atDesk_lasts (lasting : Lasting good) (m : Action Desk α)
    (kept : lasting.coupling.Serves m m) (s : Session ω) (held : s.Has good) :
    (atDesk m).Ends s fun _ after => after.Has good ∧ s.OnlyDesk after := by
  apply (atDesk_ends m s _ (lasting.desk kept s.desk held)).weaken
  rintro _ _ ⟨d, still, rfl⟩
  exact ⟨still, rfl, rfl, rfl⟩

theorem atWriter_lasts (lasting : Lasting good) (m : Action Writer α)
    (kept : lasting.coupling.Keeps m m) (s : Session ω) (held : s.Has good) :
    (atWriter m).Ends s fun _ after => after.Has good ∧ s.OnlyDesk after :=
  atDesk_lasts lasting _ (Coupling.serves_onWriter kept) s held

theorem follow_lasts (lasting : Lasting good) (c : Course (Workshop ω) α) (s : Session ω)
    (held : s.Has good) :
    (follow c).Comes s c.outcome fun after => after.Has good ∧ after.workshop = c.finalState ∧
      after.summary = s.summary ∧ after.exhausted = s.exhausted := by
  induction c generalizing s with
  | ended outcome w =>
    cases outcome with
    | ok a => exact ⟨{ s with workshop := w }, rfl, held, rfl, rfl, rfl⟩
    | error p => exact ⟨{ s with workshop := w }, rfl, held, rfl, rfl, rfl⟩
  | send c next ih => exact ih _ held
  | record e next ih => exact ih _ (lasting.record e _ held)
  | suspend w next ih =>
    have moved : (setWorkshop w).Ends s fun _ after => after = { s with workshop := w } :=
      ends_modify _ _ _ rfl
    apply moved.then_comes
    rintro _ _ rfl
    apply (atDesk_lasts lasting Desk.step Coupling.serves_step { s with workshop := w }
      held).then_comes
    rintro _ t ⟨still, -, counted, same⟩
    obtain ⟨after, ran, stillToo, reached, countedToo, sameToo⟩ := ih t still
    exact ⟨after, ran, stillToo, reached, countedToo.trans counted, sameToo.trans same⟩

theorem runAlongside_lasts (lasting : Lasting good) (code : BatchCode ω α) (s : Session ω) (a : α)
    (held : s.Has good) (ended : (code s.workshop).outcome = .ok a) :
    (runAlongside code).Ends s fun b after => b = a ∧ after.Has good ∧
      after.workshop = (code s.workshop).finalState ∧ after.exhausted = s.exhausted := by
  have followed := follow_lasts lasting (code s.workshop) s held
  rw [ended] at followed
  refine ends_get_bind _ _ _ (followed.ends.bind ?_)
  rintro _ middle ⟨rfl, still, reached, -, same⟩
  apply (atDesk_lasts lasting Desk.drain Coupling.serves_drain middle still).bind
  rintro _ after ⟨last, unmoved, -, sameToo⟩
  exact ends_pure _ _ _ ⟨rfl, last, unmoved.trans reached, sameToo.trans same⟩

/-- The result that is written is as it was told, so no more is asked of an outlet than to take it. The
modules are left where some number of pulls have brought them. -/
theorem emit_lasts (lasting : Lasting good) (debug : Bool) (patience : Nat) (id : String)
    (result : EntryResult ω) (s : Session ω) (held : s.Has good) :
    (emit debug patience id result).Ends s fun _ after => after.Has good ∧
      (∃ count ≤ (result.pulls patience s.workshop.modules).length,
        after.workshop = s.workshop.moved (result.after count s.workshop.modules)) ∧
      after.summary = s.summary ∧ after.exhausted = s.exhausted := by
  obtain ⟨count, bound, told, -⟩ := emit_told debug patience id result s
  obtain ⟨answer, after, ran, still, reached, counted, same⟩ := atWriter_lasts lasting _
    (Coupling.keeps_emitAnswer id (result.answer patience s.workshop.modules)) (s.leaving _ _) held
  exact ⟨answer, after, told.trans ran, still, ⟨count, bound, reached⟩, counted, same⟩

theorem takeTurn_lasts (lasting : Lasting good) (setting : Setting ω) (id : String) (body : Json)
    (s : Session ω) (held : s.Has good) :
    (takeTurn setting id body).Ends s fun _ after => after.Has good := by
  apply (runAlongside_lasts lasting _ s _ held
    (Batch.courseOf_outcome setting id body s.workshop)).bind
  rintro result middle ⟨-, held, -⟩
  apply (emit_lasts lasting setting.settings.debug setting.patience id result middle held).bind
  rintro ⟨_, _⟩ after ⟨held, -⟩
  exact ends_modify _ _ _ held

theorem takeFault_lasts (lasting : Lasting good) (f : BatchFault) (s : Session ω)
    (held : s.Has good) : (takeFault f).Ends s fun _ after => after.Has good ∧ s.OnlyDesk after := by
  cases f with
  | panicked message => exact atDesk_lasts lasting Desk.drain Coupling.serves_drain s held
  | tooManyEntries count limit =>
    apply (atDesk_lasts lasting _ (Coupling.serves_record _ _) s held).bind
    rintro _ noted ⟨held, unmoved, counted, same⟩
    apply (atDesk_lasts lasting Desk.drain Coupling.serves_drain noted held).weaken
    rintro _ after ⟨held, unmovedToo, countedToo, sameToo⟩
    exact ⟨held, unmovedToo.trans unmoved, countedToo.trans counted, sameToo.trans same⟩

theorem abort_lasts (lasting : Lasting good) (debug : Bool) (f : BatchFault) (s : Session ω)
    (held : s.Has good) :
    (abort debug f).Ends s fun _ after => after.Has good ∧ after.workshop = s.workshop ∧
      after.summary = { s.summary with aborted := true } ∧ after.exhausted = s.exhausted :=
  ends_modify_bind _ _ _ _
    (atWriter_lasts lasting _ (Coupling.keeps_emitFault (.refl debug (.ofFault f))) _ held)

theorem conclude_lasts (lasting : Lasting good) (s : Session ω) (held : s.Has good) :
    conclude.Comes s (Workshop.closeAll s.workshop).outcome fun after => after.Has good ∧
      after.workshop = (Workshop.closeAll s.workshop).finalState ∧ after.summary = s.summary ∧
      after.exhausted = s.exhausted := by
  have followed := follow_lasts lasting (Workshop.closeAll s.workshop) s held
  cases ended : (Workshop.closeAll s.workshop).outcome with
  | error p =>
    rw [ended] at followed
    exact followed.panics _
  | ok _ =>
    rw [ended] at followed
    apply followed.ends.then_comes
    rintro _ closed ⟨-, held, reached, counted, same⟩
    apply (atDesk_lasts lasting Desk.drain Coupling.serves_drain closed held).then_comes
    rintro _ drained ⟨held, unmoved, countedToo, sameToo⟩
    obtain ⟨_, after, ran, last, still, counts, flag⟩ :=
      atWriter_lasts lasting Writer.finish Coupling.keeps_finish drained held
    exact ⟨after, ran, last, still.trans (unmoved.trans reached),
      counts.trans (countedToo.trans counted), flag.trans (sameToo.trans same)⟩

end Session

def Outlet.Calm (o : Outlet) : Prop := o.transport.peer.NeverPanics

/-- A transport that never panics stays one. -/
theorem Outlet.calm_lasts : Lasting Outlet.Calm where
  record _ _ calm := calm
  send block o calm := by
    cases gone : o.broken with
    | false => exact (send_calm block o gone calm).weaken fun _ _ tried => tried.1
    | true => exact ⟨(), o, send_of_broken gone block, calm⟩
  flush o calm := by
    cases gone : o.broken with
    | false => exact (flush_calm o gone calm).weaken fun _ _ tried => tried.1
    | true => exact ⟨(), o, flush_of_broken gone, calm⟩
  shutdown o calm := (shutdown_calm o calm).weaken fun _ _ tried => tried.1

def Outlet.Gone (o : Outlet) : Prop := o.broken = true

/-- A transport that has failed is never asked again. -/
theorem Outlet.gone_lasts : Lasting Outlet.Gone where
  record _ _ gone := gone
  send block o gone := ⟨(), o, send_of_broken gone block, gone⟩
  flush o gone := ⟨(), o, flush_of_broken gone, gone⟩
  shutdown o gone := ⟨(), o, shutdown_of_broken gone, gone⟩

end Multicall
