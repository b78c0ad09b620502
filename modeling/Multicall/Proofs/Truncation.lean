import Multicall.Proofs.UnseenPulls
import Multicall.Proofs.WholeResponse
/-!
Runs over a transport that fails. Such a transport may refuse a write, take nothing or too little of
it, run out of room, or fail to flush or to shut down; the first failure makes the writer swallow all
that follows. So what arrives is cut off at some octet and otherwise as over a sound transport,
whatever the modules make of a sequence that is pulled no more.
-/
namespace Multicall

open Multicall.Action

/-- A peer that may take as little as it likes or refuse, but never panics. -/
def Peer.NeverPanics (peer : Peer) : Prop :=
  ∀ call accepted offered p, peer.onWrite call accepted offered ≠ .panic p

theorem Peer.scripted_never_panics (s : Script) (calm : s.panicWrite = none) :
    (scripted s).NeverPanics := by
  intro call accepted offered p
  show s.onWrite call accepted offered ≠ .panic p
  rw [Script.onWrite, calm, if_neg (Option.some_ne_none call).symm]
  split
  · exact nofun
  · exact nofun

namespace Transport

/-- A block arrives whole, or the writing of it fails and a front piece has arrived. -/
theorem writeAll_calm (block : Octets) (t : Transport) (calm : t.peer.NeverPanics) :
    ∃ after, after.peer = t.peer ∧
      ((t.writeAll block = (after, .complete) ∧
        after.accepted.toList = t.accepted.toList ++ block) ∨
       (∃ reason taken, t.writeAll block = (after, .failed reason) ∧ taken <+: block ∧
        after.accepted.toList = t.accepted.toList ++ taken)) := by
  rcases writeAll_partway block t with
    ⟨after, complete, samePeer, arrived⟩ | ⟨left, last, after, delivery, -, partway, stops, ended⟩
  · exact ⟨after, samePeer, .inl ⟨complete, arrived⟩⟩
  · obtain ⟨samePeer, taken, split, arrived⟩ := partway.stop stops
    refine ⟨after, samePeer, .inr ?_⟩
    cases stops with
    | nothing | refused => exact ⟨_, taken, ended, ⟨left, split.symm⟩, arrived⟩
    | struck answer =>
      rw [partway.samePeer] at answer
      exact absurd answer (calm _ _ _ _)

theorem shutdown_peer (t : Transport) : t.shutdown.peer = t.peer := by
  unfold shutdown
  split <;> rfl

end Transport

namespace Outlet

/-- Where an attempt to send a block leads that may fail on the way: all of it has arrived, or a front
piece and the outlet is broken. -/
def Tried (block : Octets) (o after : Outlet) : Prop :=
  after.transport.peer.NeverPanics ∧
    (after.broken = false ∧ after.arrived = o.arrived ++ block ∨
     after.broken = true ∧ after.arrived <+: o.arrived ++ block)

/-- Where nothing was to arrive it makes no difference whether the attempt failed. -/
theorem tried_nothing {o after : Outlet} (calm : after.transport.peer.NeverPanics)
    (same : after.arrived = o.arrived) : o.Tried [] after := by
  refine ⟨calm, ?_⟩
  rw [List.append_nil, same]
  cases after.broken with
  | false => exact .inl ⟨rfl, rfl⟩
  | true => exact .inr ⟨rfl, List.prefix_rfl⟩

theorem send_calm (block : Octets) (o : Outlet) (whole : o.broken = false)
    (calm : o.transport.peer.NeverPanics) : (send block).Ends o fun _ => Tried block o := by
  obtain ⟨after, samePeer, ⟨complete, arrived⟩ | ⟨reason, taken, failed, front, arrived⟩⟩ :=
    Transport.writeAll_calm block o.transport calm
  · exact ⟨(), _, send_of_complete whole complete, samePeer ▸ calm, .inl ⟨whole, arrived⟩⟩
  · refine ⟨(), _, send_of_failed whole failed, samePeer ▸ calm, .inr ⟨rfl, ?_⟩⟩
    simp only [Outlet.arrived, arrived]
    exact (List.prefix_append_right_inj _).mpr front

theorem flush_calm (o : Outlet) (whole : o.broken = false) (calm : o.transport.peer.NeverPanics) :
    flush.Ends o fun _ => Tried [] o := by
  cases answer : o.transport.peer.onFlush (o.transport.flushes + 1) with
  | ok done =>
    exact ⟨(), _, flush_of_ok whole (Transport.flush_of_ok answer), tried_nothing calm rfl⟩
  | error reason =>
    exact ⟨(), _, flush_of_error whole (Transport.flush_of_error answer), tried_nothing calm rfl⟩

theorem shutdown_peer (o : Outlet) :
    shutdown.Ends o fun _ after => after.broken = o.broken ∧
      after.transport.peer = o.transport.peer ∧ after.arrived = o.arrived := by
  cases gone : o.broken with
  | true => exact ⟨(), o, shutdown_of_broken gone, gone, rfl, rfl⟩
  | false =>
    exact ⟨(), _, shutdown_of_whole gone, gone, Transport.shutdown_peer _,
      congrArg Array.toList (Transport.shutdown_accepted _)⟩

theorem shutdown_calm (o : Outlet) (calm : o.transport.peer.NeverPanics) :
    shutdown.Ends o fun _ => Tried [] o := by
  apply (shutdown_peer o).weaken
  rintro _ after ⟨-, samePeer, arrived⟩
  exact tried_nothing (samePeer ▸ calm) arrived

theorem shutdown_healthy (o : Outlet) (healthy : o.Healthy) :
    shutdown.Ends o fun _ after => after.Healthy ∧ after.arrived = o.arrived := by
  apply (shutdown_peer o).weaken
  rintro _ after ⟨whole, samePeer, arrived⟩
  exact ⟨⟨whole.trans healthy.whole, samePeer ▸ healthy.takesAll⟩, arrived⟩

/-- Nothing has failed, and the same has arrived as at a sound outlet. -/
structure Level (o p : Outlet) : Prop where
  whole : o.broken = false
  calm : o.transport.peer.NeverPanics
  healthy : p.Healthy
  same : o.arrived = p.arrived

/-- Something has failed, and what had arrived by then is a front piece. -/
structure Behind (o p : Outlet) : Prop where
  broken : o.broken = true
  healthy : p.Healthy
  front : o.arrived <+: p.arrived

/-- An action that broken outlets swallow, sound ones carry out and others try keeps two outlets level
or leaves the left one behind for good. -/
theorem coupled_of_tried {m : Action Outlet Unit} {block : Octets}
    (swallowed : ∀ o, o.broken = true → m o = .done () o)
    (delivered : ∀ p : Outlet, p.Healthy →
      m.Ends p fun _ after => after.Healthy ∧ after.arrived = p.arrived ++ block)
    (tried : ∀ o, o.broken = false → o.transport.peer.NeverPanics →
      m.Ends o fun _ => Tried block o) : Coupled Level Behind m m where
  both o p level := by
    obtain ⟨_, q, sent, sound, arrived⟩ := delivered p level.healthy
    obtain ⟨_, n, went, calm, ⟨whole, taken⟩ | ⟨gone, taken⟩⟩ := tried o level.whole level.calm
    · rw [sent, went]
      exact .together ⟨whole, calm, sound, by rw [taken, arrived, level.same]⟩
    · rw [sent, went]
      exact .apart ⟨gone, sound, by rwa [arrived, ← level.same]⟩
  left o _ behind := ⟨(), o, swallowed o behind.broken, behind⟩
  right o p behind := by
    apply (delivered p behind.healthy).weaken
    rintro _ q ⟨sound, arrived⟩
    exact ⟨behind.broken, sound, arrived ▸ behind.front.trans (List.prefix_append _ _)⟩

end Outlet

/-- A failing outlet on the left of a sound one. -/
def Coupling.truncating : Coupling where
  together := Outlet.Level
  apart := Outlet.Behind
  broken _ _ level := level.whole.trans level.healthy.whole.symm
  recordLeft _ _ _ level := ⟨level.whole, level.calm, level.healthy, level.same⟩
  recordRight _ _ _ level :=
    ⟨level.whole, level.calm, ⟨level.healthy.whole, level.healthy.takesAll⟩, level.same⟩
  recordLeftApart _ _ _ behind := ⟨behind.broken, behind.healthy, behind.front⟩
  recordRightApart _ _ _ behind :=
    ⟨behind.broken, ⟨behind.healthy.whole, behind.healthy.takesAll⟩, behind.front⟩
  send block := Outlet.coupled_of_tried (fun _ gone => Outlet.send_of_broken gone block)
    (Outlet.send_ends block) (Outlet.send_calm block)
  flush := Outlet.coupled_of_tried (fun _ gone => Outlet.flush_of_broken gone)
    (by simpa only [List.append_nil] using Outlet.flush_ends) Outlet.flush_calm
  shutdown := Outlet.coupled_of_tried (fun _ gone => Outlet.shutdown_of_broken gone)
    (by simpa only [List.append_nil] using Outlet.shutdown_healthy)
    fun o _ calm => Outlet.shutdown_calm o calm

/-! Two runs of one program, over outlets that may part. As long as these are together the runs go the
same way; what either goes on to do when they have parted is left open. -/

namespace Session

variable {ω α β : Type} {c : Coupling}

abbrev Parting (c : Coupling) (m : Action (Session ω) α) : Prop :=
  Forking (Together c (· = ·)) (fun s t => c.DesksApart s.desk t.desk) m m

theorem atDesk_coupled {m : Action Desk α} (coupled : c.Serves m m) :
    Coupled (Together c (· = ·)) (fun s t : Session ω => c.DesksApart s.desk t.desk) (atDesk m)
      (atDesk m) :=
  coupled.within (fun _ _ still => still.desk)
    (fun _ _ _ _ still desk => ⟨desk, still.workshop, still.summary⟩)
    (fun _ _ _ _ _ => id) (fun _ _ => id) (fun _ _ _ _ => id) fun _ _ _ _ => id

theorem atDesk_parting {m : Action Desk α} (coupled : c.Serves m m) :
    Parting c (atDesk m : Action (Session ω) α) :=
  (atDesk_coupled coupled).forking

theorem pure_parting (a : α) : Parting c (pure a : Action (Session ω) α) :=
  (coupled_pure a).forking

theorem modify_parting {f : Session ω → Session ω}
    (both : ∀ s t, Together c (· = ·) s t → Together c (· = ·) (f s) (f t))
    (desk : ∀ s, (f s).desk = s.desk) : Parting c (Action.modify f) :=
  (coupled_modify both (fun s t parted => by rwa [desk]) fun s t parted => by rwa [desk]).forking

/-- What is done next may depend on the workshop. -/
theorem workshop_parting {f : Workshop ω → Action (Session ω) α} (each : ∀ w, Parting c (f w)) :
    Parting c (Action.get >>= fun s => f s.workshop) where
  both s t still := by
    have met := (each s.workshop).both s t still
    show Forks _ _ (f s.workshop s) (f t.workshop t)
    rwa [← still.workshop]
  left s t parted := (each s.workshop).left s t parted
  right s t parted := (each t.workshop).right s t parted

theorem follow_parting (course : Course (Workshop ω) α) : Parting c (follow course) := by
  have moved (w : Workshop ω) : Parting c (setWorkshop w) :=
    modify_parting (fun _ _ still => ⟨still.desk, rfl, still.summary⟩) fun _ => rfl
  induction course with
  | ended outcome w =>
    cases outcome with
    | ok a => exact (moved w).bind fun _ => pure_parting a
    | error p => exact (moved w).bind fun _ => forking_panic p
  | send command _ ih => exact (atDesk_parting (Coupling.serves_enqueue command)).bind fun _ => ih
  | record e _ ih => exact (atDesk_parting (Coupling.serves_record e e)).bind fun _ => ih
  | suspend w _ ih =>
    exact (moved w).bind fun _ => (atDesk_parting Coupling.serves_step).bind fun _ => ih

theorem runAlongside_parting (code : BatchCode ω α) : Parting c (runAlongside code) :=
  workshop_parting fun w => (follow_parting (code w)).bind fun a =>
    (atDesk_parting Coupling.serves_drain).bind fun _ => pure_parting a

theorem emit_parting (debug : Bool) (patience : Nat) (id : String) (result : EntryResult ω) :
    Parting c (emit debug patience id result) where
  both s t still := by
    have coupled : Coupled (Together c (· = ·)) (Apart c fun _ _ => True)
        (emit debug patience id result) (emit debug patience id result) :=
      emit_coupled (fun _ _ _ => trivial) (fun _ _ => congrArg Json.withoutPrivate)
        (EntryResult.Alike.refl debug result) (fun _ _ _ _ _ _ _ _ => ⟨trivial, trivial⟩) patience id
    exact (coupled.both s t still).forks.imp fun _ _ apart => apart.desk
  left s t parted :=
    (emit_maintains (fun kept s parted => (atDesk_coupled (Coupling.serves_onWriter kept)).left s t
      parted) (fun _ _ _ _ apart => Coupling.apart_hearing_left apart _) debug patience id s
        parted).state
  right s t parted :=
    (emit_maintains (fun kept t parted => (atDesk_coupled (Coupling.serves_onWriter kept)).right s t
      parted) (fun _ _ _ _ apart => Coupling.apart_hearing_right apart _) debug patience id t
        parted).state

theorem takeTurn_parting (setting : Setting ω) (id : String) (body : Json) :
    Parting c (takeTurn setting id body) :=
  (runAlongside_parting _).bind fun result => (emit_parting _ _ id result).bind fun _ =>
    modify_parting (fun _ _ still => ⟨still.desk, still.workshop, by rw [still.summary]⟩) fun _ => rfl

end Session

namespace Batch

variable {ω : Type}

end Batch
end Multicall
