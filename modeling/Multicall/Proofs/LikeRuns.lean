import Multicall.Proofs.Coupling
import Multicall.Proofs.LikeModules
import Multicall.Proofs.Pulls
/-!
Whole runs side by side. Where the desks are coupled and the code of every entry goes alike, two
runs of one request take the same turns: each entry is counted the same, a batch that is cut short
is cut short on both sides, and both end or both panic. What either side records plays no part.
-/
namespace Multicall

variable {ω υ α β : Type}

open Multicall.Action (alike_pure alike_get alike_modify alike_panic)

def Coupling.Desks (c : Coupling) (d e : Desk) : Prop := c.DesksTogether d e ∨ c.DesksApart d e

structure Session.Alike (c : Coupling) (workshops : Workshop ω → Workshop υ → Prop)
    (s : Session ω) (t : Session υ) : Prop where
  desk : c.Desks s.desk t.desk
  workshop : workshops s.workshop t.workshop
  summary : s.summary = t.summary

/-- Pulling one of two sequences alone leaves the workshops related. -/
def Producer.AloneIn (workshops : Workshop ω → Workshop υ → Prop) (producer : Producer ω)
    (other : Producer υ) : Prop :=
  ∀ index w v, workshops w v → workshops (w.moved (producer.next index w.modules)) v ∧
    workshops w (v.moved (other.next index v.modules))

def EntryResult.AloneIn (workshops : Workshop ω → Workshop υ → Prop) (result : EntryResult ω)
    (fellow : EntryResult υ) : Prop :=
  ∀ producer other, result = .ok (.sequence producer) → fellow = .ok (.sequence other) →
    producer.AloneIn workshops other

/-- Settings for which entries are processed alike and the handlers are given up alike. -/
structure Setting.Alike (workshops : Workshop ω → Workshop υ → Prop) (setting : Setting ω)
    (other : Setting υ) : Prop where
  settings : setting.settings = other.settings
  app : setting.app = other.app
  patience : setting.patience = other.patience
  process : ∀ id body, Activity.Alike workshops
    (EntryResult.Alike setting.settings.debug workshops) (Panic.Alike setting.settings.debug)
    (Entry.process setting.registry ⟨setting.settings, setting.app, ⟨true⟩⟩ id body)
    (Entry.process other.registry ⟨setting.settings, setting.app, ⟨true⟩⟩ id body)
  closeAll : Activity.Alike workshops (fun _ _ => True) (Panic.Alike setting.settings.debug)
    Workshop.closeAll Workshop.closeAll

theorem Setting.Alike.refl (setting : Setting ω) : setting.Alike (· = ·) setting where
  settings := rfl
  app := rfl
  patience := rfl
  process _ _ := .refl (EntryResult.Alike.refl _) (Panic.Alike.refl _) _
  closeAll := .refl (fun _ => trivial) (Panic.Alike.refl _) _

theorem Setting.Alike.of_registry {setting : Setting ω} {other : Setting υ} {worlds : ω → υ → Prop}
    (settings : setting.settings = other.settings) (app : setting.app = other.app)
    (patience : setting.patience = other.patience)
    (registry : setting.registry.Alike setting.settings.debug worlds
      ⟨setting.settings, setting.app, ⟨true⟩⟩ other.registry) :
    setting.Alike (Workshop.Alike setting.settings.debug worlds) other where
  settings := settings
  app := app
  patience := patience
  process := Entry.process_alike registry
  closeAll := by
    rw [Workshop.alike_eq]
    exact Workshop.closeAll_alike

namespace Session

variable {c : Coupling} {workshops : Workshop ω → Workshop υ → Prop} {debug : Bool}

abbrev Matches (c : Coupling) (workshops : Workshop ω → Workshop υ → Prop) (debug : Bool)
    (answers : α → β → Prop) (m : Action (Session ω) α) (n : Action (Session υ) β) : Prop :=
  Action.Alike (Session.Alike c workshops) answers (Panic.Alike debug) m n

theorem atDesk_matches {answers : α → β → Prop} {m : Action Desk α} {n : Action Desk β}
    (alike : Action.Alike c.Desks answers (· = ·) m n) :
    Matches c workshops debug answers (atDesk m) (atDesk n) :=
  (alike.within (fun _ _ related => related.desk)
    fun _ _ _ _ related desk => ⟨desk, related.workshop, related.summary⟩).weaken
      (fun _ _ same => same) fun p _ same => same ▸ Panic.Alike.refl debug p

theorem serves_matches {m n : Action Desk α} (coupled : c.Serves m n) :
    Matches c workshops debug (fun _ _ => True) (atDesk m) (atDesk n) :=
  atDesk_matches coupled.alike

theorem setWorkshop_matches {w : Workshop ω} {v : Workshop υ} (related : workshops w v) :
    Matches c workshops debug (fun _ _ => True) (setWorkshop w) (setWorkshop v) :=
  alike_modify fun _ _ alike => ⟨alike.desk, related, alike.summary⟩

theorem record_left (e : Event) {s : Session ω} {t : Session υ} (alike : Alike c workshops s t) :
    (atDesk (Desk.record e)).Ends s fun _ after => Alike c workshops after t := by
  refine ⟨(), _, rfl, ?_, alike.workshop, alike.summary⟩
  rcases alike.desk with ⟨w, ⟨o, still, rfl⟩, same⟩ | parted
  · exact .inl ⟨_, ⟨o, c.recordLeft e _ o still, rfl⟩, same⟩
  · exact .inr (c.recordLeftApart e _ _ parted)

theorem record_right (e : Event) {s : Session ω} {t : Session υ} (alike : Alike c workshops s t) :
    (atDesk (Desk.record e)).Ends t fun _ after => Alike c workshops s after := by
  refine ⟨(), _, rfl, ?_, alike.workshop, alike.summary⟩
  rcases alike.desk with ⟨w, ⟨o, still, rfl⟩, same⟩ | parted
  · refine .inl ⟨_, ⟨_, c.recordRight e _ o still, rfl⟩, ?_⟩
    simp only [same]
  · exact .inr (c.recordRightApart e _ _ parted)

theorem follow_matches {answers : α → β → Prop} {course : Course (Workshop ω) α}
    {other : Course (Workshop υ) β} (alike : course.Alike workshops answers (Panic.Alike debug) other) :
    Matches c workshops debug answers (follow course) (follow other) := by
  induction alike with
  | ended same related => exact (setWorkshop_matches related).bind fun _ _ _ => alike_pure same
  | panicked same related => exact (setWorkshop_matches related).bind fun _ _ _ => alike_panic same
  | send command _ ih => exact (serves_matches (Coupling.serves_enqueue command)).bind fun _ _ _ => ih
  | suspend related _ ih =>
    exact (setWorkshop_matches related).bind fun _ _ _ =>
      (serves_matches Coupling.serves_step).bind fun _ _ _ => ih
  | recordLeft e _ ih =>
    intro s t related
    obtain ⟨_, after, ran, related⟩ := record_left e related
    rw [follow, Action.bind_apply, ran]
    exact ih after t related
  | recordRight e _ ih =>
    intro s t related
    obtain ⟨_, after, ran, related⟩ := record_right e related
    rw [follow, Action.bind_apply, ran]
    exact ih s after related

theorem runAlongside_matches {answers : α → β → Prop} {code : BatchCode ω α} {other : BatchCode υ β}
    (alike : Activity.Alike workshops answers (Panic.Alike debug) code other) :
    Matches c workshops debug answers (runAlongside code) (runAlongside other) := by
  refine alike_get.bind fun s t related => ?_
  refine (follow_matches (alike _ _ related.workshop)).bind fun a b same => ?_
  exact (serves_matches Coupling.serves_drain).bind fun _ _ _ => alike_pure same

/-! What is written of results. -/

/-- Sessions whose outlets are together. -/
structure Together (c : Coupling) (workshops : Workshop ω → Workshop υ → Prop) (s : Session ω)
    (t : Session υ) : Prop where
  desk : c.DesksTogether s.desk t.desk
  workshop : workshops s.workshop t.workshop
  summary : s.summary = t.summary

/-- Sessions whose outlets have parted. -/
structure Apart (c : Coupling) (parted : Workshop ω → Workshop υ → Prop) (s : Session ω)
    (t : Session υ) : Prop where
  desk : c.DesksApart s.desk t.desk
  workshop : parted s.workshop t.workshop
  summary : s.summary = t.summary

section Maintained

variable {holds : Session ω → Prop}

theorem emitElements_maintains
    (writes : ∀ {β : Type} {m : Action Writer β}, c.Keeps m m → (atWriter m).Maintains holds)
    {producer : Producer ω}
    (pulls : ∀ index s, holds s → holds (s.pulled (producer.pull index s.workshop.modules)
      (producer.next index s.workshop.modules))) (id : String)
    (handle patience index written : Nat) :
    (emitElements producer id handle patience index written).Maintains holds := by
  have pulled (index : Nat) : (pull producer index).Maintains holds := fun s held =>
    ⟨_, _, pull_apply producer index s, pulls index s held⟩
  induction patience generalizing index written with
  | zero => exact (writes (Coupling.keeps_abandoned id)).bind fun _ => Action.maintains_pure _
  | succ patience ih =>
    refine (writes (Coupling.keeps_abandoned id)).bind fun gone => ?_
    cases gone with
    | true => exact Action.maintains_pure _
    | false =>
      refine (pulled index).bind fun came => ?_
      match came with
      | .error p =>
        exact (writes (Coupling.keeps_record _ _)).bind fun _ => Action.maintains_pure _
      | .ok none => exact Action.maintains_pure _
      | .ok (some element) =>
        exact (writes (Coupling.keeps_emitElement id handle index written
          (.same_public element))).bind fun written => ih (index + 1) written

/-- While a result is written, what writing keeps and what pulls keep stays true. -/
theorem emit_maintains
    (writes : ∀ {β : Type} {m : Action Writer β}, c.Keeps m m → (atWriter m).Maintains holds)
    {result : EntryResult ω}
    (pulls : ∀ producer, result = .ok (.sequence producer) → ∀ index s, holds s →
      holds (s.pulled (producer.pull index s.workshop.modules)
        (producer.next index s.workshop.modules))) (debug : Bool) (patience : Nat) (id : String) :
    (emit debug patience id result).Maintains holds := by
  match result with
  | .ok (.value json) =>
    exact (writes (Coupling.keeps_emitValue id (.same_public json))).bind fun _ =>
      Action.maintains_pure _
  | .error f =>
    exact (writes (Coupling.keeps_emitFailure id (.refl debug f))).bind fun _ =>
      Action.maintains_pure _
  | .ok (.sequence producer) =>
    refine Action.Maintains.bind ?_ fun _ => Action.maintains_pure _
    exact (writes (Coupling.keeps_openSequence id)).bind fun handle =>
      (emitElements_maintains writes (pulls producer rfl) id handle patience 0 0).bind fun _ =>
        (writes (Coupling.keeps_closeSequence handle)).bind fun _ => Action.maintains_pure _

end Maintained

section Written

variable {parted : Workshop ω → Workshop υ → Prop} {values : Json → Json → Prop}
  {s : Session ω} {t : Session υ}

theorem atWriter_coupled {m n : Action Writer α} (wider : ∀ w v, workshops w v → parted w v)
    (coupled : c.Keeps m n) :
    Action.Coupled (Together c workshops) (Apart c parted) (atWriter m) (atWriter n) := by
  rw [atWriter, atDesk, atWriter, atDesk]
  exact (Coupling.serves_onWriter coupled).within (fun _ _ still => still.desk)
    (fun _ _ _ _ still desk => ⟨desk, still.workshop, still.summary⟩)
    (fun _ _ _ _ still desk => ⟨desk, wider _ _ still.workshop, still.summary⟩)
    (fun _ _ apart => apart.desk) (fun _ _ _ apart desk => ⟨desk, apart.workshop, apart.summary⟩)
    fun _ _ _ apart desk => ⟨desk, apart.workshop, apart.summary⟩

/-- Where the outlets are together, two sequences that are alike are pulled alike. -/
theorem Together.pulled {producer : Producer ω} {other : Producer υ}
    (alike : producer.AlikeIn values workshops other) (index : Nat)
    (still : Together c workshops s t) :
    ResultAlike (fun _ _ => True) (ProducedAlike values)
        (producer.pull index s.workshop.modules).came (other.pull index t.workshop.modules).came ∧
      Together c workshops
        (s.pulled (producer.pull index s.workshop.modules) (producer.next index s.workshop.modules))
        (t.pulled (other.pull index t.workshop.modules)
          (other.next index t.workshop.modules)) := by
  obtain ⟨came, sent, moved⟩ := alike.pull index still.workshop
  refine ⟨came, ?_, moved, still.summary⟩
  obtain ⟨w, together, same⟩ := still.desk
  refine ⟨_, Coupling.together_hearing together _ (other.pull index t.workshop.modules).events, ?_⟩
  simp only [Session.pulled, leaving, writing, same, sent]

theorem emitElements_coupled {producer : Producer ω} {other : Producer υ}
    (wider : ∀ w v, workshops w v → parted w v)
    (shown : ∀ j k, values j k → j.withoutPrivate = k.withoutPrivate)
    (alike : producer.AlikeIn values workshops other) (alone : producer.AloneIn parted other)
    (id : String) (handle patience index written : Nat) :
    Action.Coupled (Together c workshops) (Apart c parted)
      (emitElements producer id handle patience index written)
      (emitElements other id handle patience index written) := by
  have left (patience index written : Nat) (s : Session ω) (t : Session υ)
      (apart : Apart c parted s t) :
      (emitElements producer id handle patience index written).Ends s fun _ after =>
        Apart c parted after t :=
    emitElements_maintains (fun kept s apart => (atWriter_coupled wider kept).left s t apart)
      (fun index s apart => ⟨Coupling.apart_hearing_left apart.desk _,
        (alone index _ _ apart.workshop).1, apart.summary⟩) id handle patience index written s apart
  have right (patience index written : Nat) (s : Session ω) (t : Session υ)
      (apart : Apart c parted s t) :
      (emitElements other id handle patience index written).Ends t fun _ after =>
        Apart c parted s after :=
    emitElements_maintains (fun kept t apart => (atWriter_coupled wider kept).right s t apart)
      (fun index t apart => ⟨Coupling.apart_hearing_right apart.desk _,
        (alone index _ _ apart.workshop).2, apart.summary⟩) id handle patience index written t apart
  refine ⟨?_, left patience index written, right patience index written⟩
  -- as long as the outlets are together, both sides are pulled in turn
  induction patience generalizing index written with
  | zero =>
    exact ((atWriter_coupled wider (Coupling.keeps_abandoned id)).bind fun _ =>
      Action.coupled_pure _).both
  | succ patience ih =>
    intro s t still
    have broken := Coupling.desks_broken still.desk
    cases gone : s.desk.writer.outlet.broken with
    | true =>
      rw [emitElements_of_gone producer gone, emitElements_of_gone other (broken ▸ gone)]
      exact .together ⟨Coupling.desks_hearing still.desk [_] [_], still.workshop, still.summary⟩
    | false =>
      rw [emitElements_succ producer gone, emitElements_succ other (broken ▸ gone)]
      obtain ⟨came, moved⟩ := still.pulled alike index
      generalize (producer.pull index s.workshop.modules).came = given at came ⊢
      generalize (other.pull index t.workshop.modules).came = fellow at came ⊢
      cases came with
      | error _ =>
        exact ((atWriter_coupled wider (Coupling.keeps_record _ _)).bind fun _ =>
          Action.coupled_pure _).both _ _ moved
      | ok produced =>
        cases produced with
        | none => exact .together moved
        | some same =>
          exact ((atWriter_coupled wider (Coupling.keeps_emitElement id handle index written
            (same.weaken shown))).bind fun written =>
              ⟨ih (index + 1) written, left _ _ _, right _ _ _⟩).both _ _ moved

/-- Results that are alike are written alike; only a sequence that is pulled on one side alone may
tell the workshops apart. -/
theorem emit_coupled {result : EntryResult ω} {fellow : EntryResult υ}
    (wider : ∀ w v, workshops w v → parted w v)
    (shown : ∀ j k, values j k → j.withoutPrivate = k.withoutPrivate)
    (alike : result.RelatedIn values debug workshops fellow) (alone : result.AloneIn parted fellow)
    (patience : Nat) (id : String) :
    Action.Coupled (Together c workshops) (Apart c parted) (emit debug patience id result)
      (emit debug patience id fellow) := by
  cases alike with
  | error same =>
    exact (atWriter_coupled wider (Coupling.keeps_emitFailure id same)).bind fun _ =>
      Action.coupled_pure _
  | ok same =>
    cases same with
    | value same =>
      exact (atWriter_coupled wider (Coupling.keeps_emitValue id (same.weaken shown))).bind fun _ =>
        Action.coupled_pure _
    | sequence same =>
      refine Action.Coupled.bind ?_ fun _ => Action.coupled_pure _
      exact (atWriter_coupled wider (Coupling.keeps_openSequence id)).bind fun handle =>
        (emitElements_coupled wider shown same (alone _ _ rfl rfl) id handle patience 0 0).bind
          fun _ => (atWriter_coupled wider (Coupling.keeps_closeSequence handle)).bind fun _ =>
            Action.coupled_pure _

/-- Results that are alike are counted alike, whatever becomes of their parts. -/
theorem emit_matches {result : EntryResult ω} {fellow : EntryResult υ}
    (shown : ∀ j k, values j k → j.withoutPrivate = k.withoutPrivate)
    (alike : result.RelatedIn values debug workshops fellow)
    (alone : c.Inseparable ∨ result.AloneIn workshops fellow) (patience : Nat) (id : String) :
    Matches c workshops debug (fun a b => a.1 = b.1) (emit debug patience id result)
      (emit debug patience id fellow) := by
  have coupled : ∃ parted : Workshop ω → Workshop υ → Prop, (∀ w v, workshops w v → parted w v) ∧
      result.AloneIn parted fellow ∧ ∀ s t, Session.Alike c workshops s t ↔
        Together c workshops s t ∨ Apart c parted s t := by
    rcases alone with never | alone
    · refine ⟨fun _ _ => True, fun _ _ _ => trivial, fun _ _ _ _ _ _ _ _ => ⟨trivial, trivial⟩,
        fun s t => ⟨fun related => ?_, ?_⟩⟩
      · exact .inl ⟨related.desk.resolve_right (never _ _), related.workshop, related.summary⟩
      · rintro (still | apart)
        · exact ⟨.inl still.desk, still.workshop, still.summary⟩
        · exact (never _ _ apart.desk).elim
    · refine ⟨workshops, fun _ _ same => same, alone, fun s t => ⟨fun related => ?_, ?_⟩⟩
      · exact related.desk.imp (⟨·, related.workshop, related.summary⟩)
          (⟨·, related.workshop, related.summary⟩)
      · rintro (still | apart)
        · exact ⟨.inl still.desk, still.workshop, still.summary⟩
        · exact ⟨.inr apart.desk, apart.workshop, apart.summary⟩
  obtain ⟨parted, wider, alone, either⟩ := coupled
  have written := (emit_coupled (c := c) wider shown alike alone patience id).alike.and_answers
    (emit_answers debug patience id result) (emit_answers debug patience id fellow)
    fun a b left right => left.trans (alike.emitted_eq.trans right.symm)
  exact fun s t related => (written s t ((either s t).mp related)).weaken
    (fun s t => (either s t).mpr) (fun _ _ same => same) fun p _ same => same ▸ Panic.Alike.refl debug p

end Written

theorem abort_matches {f g : BatchFault} (alike : (Failure.ofFault f).Alike debug (.ofFault g)) :
    Matches c workshops debug (fun _ _ => True) (abort debug f) (abort debug g) := by
  refine (alike_modify fun s t related => ?_).bind fun _ _ _ =>
    serves_matches (Coupling.serves_onWriter (Coupling.keeps_emitFault alike))
  exact ⟨related.desk, related.workshop, by rw [related.summary]⟩

theorem guarded_matches {m next : Action (Session ω) Unit} {n go : Action (Session υ) Unit}
    (alike : Matches c workshops debug (fun _ _ => True) m n)
    (rest : Matches c workshops debug (fun _ _ => True) next go) :
    Matches c workshops debug (fun _ _ => True) (guarded debug m next) (guarded debug n go) := by
  refine alike.attempt.bind fun _ _ came => ?_
  cases came with
  | ok _ => exact rest
  | error same => exact abort_matches (Failure.alike_ofFault same)

variable {setting : Setting ω} {other : Setting υ}

/-- A turn takes no more of a result than what is written of it and how it is counted. -/
theorem takeTurn_of_results {results : EntryResult ω → EntryResult υ → Prop} {id : String}
    {body : Json} (settings : setting.settings = other.settings)
    (patience : setting.patience = other.patience)
    (process : Activity.Alike workshops results (Panic.Alike setting.settings.debug)
      (Entry.process setting.registry ⟨setting.settings, setting.app, ⟨true⟩⟩ id body)
      (Entry.process other.registry ⟨other.settings, other.app, ⟨true⟩⟩ id body))
    (written : ∀ result fellow, results result fellow →
      Matches c workshops setting.settings.debug (fun a b => a.1 = b.1)
        (emit setting.settings.debug setting.patience id result)
        (emit setting.settings.debug setting.patience id fellow)) :
    Matches c workshops setting.settings.debug (fun _ _ => True) (takeTurn setting id body)
      (takeTurn other id body) := by
  rw [takeTurn, takeTurn, ← settings, ← patience]
  rw [← settings] at process
  refine (runAlongside_matches process).bind fun result fellow same => ?_
  refine (written result fellow same).bind fun emitted twin counted => ?_
  refine alike_modify fun s t related => ⟨related.desk, related.workshop, ?_⟩
  rw [related.summary, counted]

/-- Where the outlets never part, each sequence is pulled as often on both sides. -/
theorem takeTurn_matches (inseparable : c.Inseparable) (alike : setting.Alike workshops other)
    (id : String) (body : Json) :
    Matches c workshops setting.settings.debug (fun _ _ => True) (takeTurn setting id body)
      (takeTurn other id body) := by
  refine takeTurn_of_results alike.settings alike.patience ?_ fun _ _ same =>
    emit_matches (fun _ _ => congrArg Json.withoutPrivate) same (.inl inseparable) _ id
  rw [← alike.settings, ← alike.app]
  exact alike.process id body

theorem takeFault_matches (f : BatchFault) :
    Matches c workshops debug (fun _ _ => True) (takeFault f) (takeFault f) := by
  cases f with
  | tooManyEntries count limit =>
    exact (serves_matches (Coupling.serves_record _ _)).bind fun _ _ _ =>
      serves_matches Coupling.serves_drain
  | panicked message =>
    exact serves_matches Coupling.serves_drain

end Session

/-- Settings whose turns match whatever the entry, and whose handlers are given up alike. Entries
need not be processed alike: it is enough that what is written of their results is the same. -/
structure Setting.InStep (c : Coupling) (workshops : Workshop ω → Workshop υ → Prop)
    (setting : Setting ω) (other : Setting υ) : Prop where
  settings : setting.settings = other.settings
  turn : ∀ id body, Session.Matches c workshops setting.settings.debug (fun _ _ => True)
    (Session.takeTurn setting id body) (Session.takeTurn other id body)
  closeAll : Activity.Alike workshops (fun _ _ => True) (Panic.Alike setting.settings.debug)
    Workshop.closeAll Workshop.closeAll

theorem Setting.Alike.inStep {workshops : Workshop ω → Workshop υ → Prop} {setting : Setting ω}
    {other : Setting υ} (alike : setting.Alike workshops other) {c : Coupling}
    (inseparable : c.Inseparable) : setting.InStep c workshops other where
  settings := alike.settings
  turn := Session.takeTurn_matches inseparable alike
  closeAll := alike.closeAll

namespace Session

variable {c : Coupling} {workshops : Workshop ω → Workshop υ → Prop} {debug : Bool}
  {setting : Setting ω} {other : Setting υ}

/-- The turns of two runs. An agenda knows nothing of either side, so the induction is on what is
still to come of it. -/
theorem takeTurns_matches (inStep : setting.InStep c workshops other) (agenda : Agenda) :
    Matches c workshops setting.settings.debug (fun _ _ => True) (takeTurns setting agenda)
      (takeTurns other agenda) := by
  induction size : agenda.pending.length using Nat.strongRecOn generalizing agenda with
  | ind n ih =>
    rw [takeTurns_eq, takeTurns_eq, ← inStep.settings]
    cases turn : agenda.next with
    | none =>
      exact guarded_matches (serves_matches Coupling.serves_drain) (alike_pure trivial)
    | some next =>
      obtain ⟨taken, rest⟩ := next
      cases taken with
      | fault f =>
        exact guarded_matches (takeFault_matches f) (abort_matches (.refl _ _))
      | entry id body =>
        refine guarded_matches (inStep.turn id body) (ih _ ?_ rest rfl)
        rw [← size, Agenda.pending_next turn]
        exact Nat.lt_succ_self _

theorem finish_matches :
    Matches c workshops debug (fun _ _ => True) (atWriter Writer.finish) (atWriter Writer.finish) :=
  serves_matches (Coupling.serves_onWriter Coupling.keeps_finish)

theorem conclude_inStep (closeAll : Activity.Alike workshops (fun _ _ => True) (Panic.Alike debug)
    Workshop.closeAll Workshop.closeAll) :
    Matches c workshops debug (fun _ _ => True) conclude conclude := by
  refine alike_get.bind fun s t related => ?_
  refine (follow_matches (closeAll _ _ related.workshop)).bind fun _ _ _ => ?_
  exact (serves_matches Coupling.serves_drain).bind fun _ _ _ => finish_matches

theorem conclude_matches (alike : setting.Alike workshops other) :
    Matches c workshops setting.settings.debug (fun _ _ => True) conclude conclude :=
  conclude_inStep alike.closeAll

theorem refuse_matches (r : Rejection) :
    Matches c workshops debug (fun _ _ => True) (refuse debug r) (refuse debug r) := by
  refine (serves_matches (Coupling.serves_onWriter (Coupling.keeps_emitFault (.refl _ _)))).bind
    fun _ _ _ => ?_
  refine (alike_modify fun s t related => ?_).bind fun _ _ _ => finish_matches
  exact ⟨related.desk, related.workshop, by rw [related.summary]⟩

theorem respond_matches (inStep : setting.InStep c workshops other) (body : Octets)
    (info : RequestInfo) :
    Matches c workshops setting.settings.debug (fun _ _ => True) (respond setting body info)
      (respond other body info) := by
  rw [respond, respond, ← inStep.settings]
  cases Envelope.parse body info with
  | error r => exact refuse_matches r
  | ok envelope =>
    exact (takeTurns_matches inStep _).bind fun _ _ _ => conclude_inStep inStep.closeAll

end Session

namespace Batch

variable {c : Coupling} {workshops : Workshop ω → Workshop υ → Prop} {setting : Setting ω}
  {other : Setting υ} {world : ω} {twin : υ} {peer fellow : Peer}

/-- Runs whose transports are together before anything is sent. -/
theorem run_inStep (inStep : setting.InStep c workshops other)
    (worlds : workshops (.start setting.order world) (.start other.order twin))
    (transports : c.together ⟨.start peer, false, 0, #[]⟩ ⟨.start fellow, false, 0, #[]⟩)
    (body : Octets) (info : RequestInfo) (boundary : Boundary) :
    (run setting world body info peer boundary).Alike (Session.Alike c workshops) (fun _ _ => True)
      (Panic.Alike setting.settings.debug) (run other twin body info fellow boundary) := by
  refine Session.respond_matches inStep body info _ _
    ⟨.inl ⟨_, ⟨_, transports, rfl⟩, ?_⟩, worlds, rfl⟩
  rw [Session.start, Session.start, inStep.settings]
  rfl

theorem run_alike (inseparable : c.Inseparable) (alike : setting.Alike workshops other)
    (worlds : workshops (.start setting.order world) (.start other.order twin))
    (transports : c.together ⟨.start peer, false, 0, #[]⟩ ⟨.start fellow, false, 0, #[]⟩)
    (body : Octets) (info : RequestInfo) (boundary : Boundary) :
    (run setting world body info peer boundary).Alike (Session.Alike c workshops) (fun _ _ => True)
      (Panic.Alike setting.settings.debug) (run other twin body info fellow boundary) :=
  run_inStep (alike.inStep inseparable) worlds transports body info boundary

end Batch
end Multicall
