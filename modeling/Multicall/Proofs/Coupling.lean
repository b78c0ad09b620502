import Multicall.Proofs.Likeness
import Multicall.Response.Relay
/-!
Two writers side by side. A coupling says when two outlets are together, so that both ways to the
transport are in the same state as far as anything above can see, and when they are apart. Whatever
is built from outlets keeps it: two writers of the same parts, two relays of the same commands and
two encoders of results that are alike do the same until their outlets part, and nothing that they
do can bring outlets that are apart out of what is said of them.
-/
namespace Multicall

open Multicall.Action

/-- A way for two outlets to stand to each other. What is recorded on either side is no part of it. -/
structure Coupling where
  together : Outlet → Outlet → Prop
  apart : Outlet → Outlet → Prop
  broken : ∀ o p, together o p → o.broken = p.broken
  recordLeft : ∀ e o p, together o p → together { o with log := o.log.push e } p
  recordRight : ∀ e o p, together o p → together o { p with log := p.log.push e }
  recordLeftApart : ∀ e o p, apart o p → apart { o with log := o.log.push e } p
  recordRightApart : ∀ e o p, apart o p → apart o { p with log := p.log.push e }
  send : ∀ block, Coupled together apart (Outlet.send block) (Outlet.send block)
  flush : Coupled together apart Outlet.flush Outlet.flush
  shutdown : Coupled together apart Outlet.shutdown Outlet.shutdown

namespace Coupling

variable {α : Type} (c : Coupling)

theorem record_coupled (e f : Event) :
    Coupled c.together c.apart (Outlet.record e) (Outlet.record f) :=
  coupled_modify (fun o p still => c.recordRight f _ p (c.recordLeft e o p still))
    (c.recordLeftApart e) (c.recordRightApart f)

/-! Writers. -/

def Together (w v : Writer) : Prop := ∃ o, c.together w.outlet o ∧ v = { w with outlet := o }

def Apart (w v : Writer) : Prop := c.apart w.outlet v.outlet

abbrev Keeps (m n : Action Writer α) : Prop := Coupled c.Together c.Apart m n

variable {c}

theorem keeps_onOutlet {m n : Action Outlet α} (coupled : Coupled c.together c.apart m n) :
    c.Keeps (.within Writer.onOutlet m) (.within Writer.onOutlet n) := by
  refine coupled.within ?_ ?_ (fun _ _ _ _ _ => id) (fun _ _ => id) (fun _ _ _ _ => id)
    fun _ _ _ _ => id
  · rintro w _ ⟨o, still, rfl⟩
    exact still
  · rintro w _ o p ⟨_, -, rfl⟩ still
    exact ⟨p, still, rfl⟩

theorem keeps_record (e f : Event) : c.Keeps (Writer.record e) (Writer.record f) :=
  keeps_onOutlet (c.record_coupled e f)

theorem keeps_send (block : Octets) : c.Keeps (Writer.send block) (Writer.send block) :=
  keeps_onOutlet (c.send block)

theorem keeps_flush : c.Keeps Writer.flush Writer.flush := keeps_onOutlet c.flush

theorem keeps_modify {f : Writer → Writer} (outlet : ∀ w, (f w).outlet = w.outlet)
    (blind : ∀ w o, f { w with outlet := o } = { f w with outlet := o }) :
    c.Keeps (Action.modify f) (Action.modify f) :=
  coupled_modify
    (by
      rintro w _ ⟨o, still, rfl⟩
      exact ⟨o, by rwa [outlet], blind w o⟩)
    (fun w v parted => by rwa [Apart, outlet])
    (fun w v parted => by rwa [Apart, outlet])

/-- What is done next may depend on everything but the outlet. -/
theorem keeps_get_bind {f : Writer → Action Writer α} (each : ∀ w, c.Keeps (f w) (f w))
    (blind : ∀ w o, c.together w.outlet o → f { w with outlet := o } = f w) :
    c.Keeps (get >>= f) (get >>= f) :=
  coupled_get_bind
    (by
      rintro w _ ⟨o, still, rfl⟩
      rw [blind w o still]
      exact each w)
    (fun w => (each w).left w) (fun _ v parted => (each v).right _ v parted)

theorem keeps_release (chunkSize : Nat) (given : Bool) (parts : List Part) :
    c.Keeps (Writer.release chunkSize given parts) (Writer.release chunkSize given parts) := by
  have keeps_setParts (parts : List Part) :
      c.Keeps (Writer.setParts parts) (Writer.setParts parts) :=
    keeps_modify (fun _ => rfl) fun _ _ => rfl
  induction parts generalizing given with
  | nil => exact coupled_pure given
  | cons head rest ih =>
    rw [Writer.release]
    by_cases shut : head.closed = true
    · rw [if_pos shut]
      exact (keeps_setParts _).bind fun _ => (keeps_send _).bind fun _ => ih true
    · rw [if_neg shut]
      by_cases full : chunkSize ≤ head.buffer.size
      · rw [if_pos full]
        exact (keeps_setParts _).bind fun _ => (keeps_send _).bind fun _ => coupled_pure true
      · rw [if_neg full]
        exact coupled_pure given

theorem keeps_pump : c.Keeps Writer.pump Writer.pump := by
  refine keeps_get_bind (fun w => (keeps_release w.chunkSize false w.parts).bind fun given => ?_)
    fun _ _ _ => rfl
  cases given with
  | false => exact coupled_pure ()
  | true => exact keeps_flush

theorem keeps_openPart (mime : String) :
    c.Keeps (Writer.openPart mime) (Writer.openPart mime) := by
  refine keeps_get_bind (fun w => ?_) fun _ _ _ => rfl
  exact Coupled.bind (keeps_modify (fun _ => rfl) fun _ _ => rfl) fun _ =>
    keeps_pump.bind fun _ => coupled_pure _

theorem keeps_onPart (handle : Nat) (bytes : Octets) (close : Bool) (otherwise : Event) :
    c.Keeps (Writer.onPart handle bytes close otherwise)
      (Writer.onPart handle bytes close otherwise) := by
  rw [Writer.onPart_eq]
  refine keeps_get_bind (fun w => ?_) fun _ _ _ => rfl
  refine Coupled.bind (keeps_modify (fun _ => rfl) fun _ _ => rfl) fun _ => ?_
  split
  · exact keeps_pump
  · exact keeps_record _ _

theorem keeps_write (handle : Nat) (bytes : Octets) :
    c.Keeps (Writer.write handle bytes) (Writer.write handle bytes) := keeps_onPart _ _ _ _

theorem keeps_closePart (handle : Nat) :
    c.Keeps (Writer.closePart handle) (Writer.closePart handle) := keeps_onPart _ _ _ _

theorem keeps_finish : c.Keeps Writer.finish Writer.finish := by
  refine Coupled.bind (keeps_modify (fun _ => rfl) fun _ _ => rfl) fun _ =>
    keeps_pump.bind fun _ => ?_
  refine keeps_get_bind (fun w => ?_) fun _ _ _ => rfl
  exact (keeps_send _).bind fun _ => keeps_flush.bind fun _ => keeps_onOutlet c.shutdown

/-! Encoders. The events of two failures need not even be as many. -/

theorem together_hearing {w v : Writer} (still : c.Together w v) (events others : List Event) :
    c.Together (w.hearing events) (v.hearing others) := by
  induction events generalizing w with
  | nil =>
    induction others generalizing v with
    | nil => exact still
    | cons f rest ih =>
      obtain ⟨o, still, rfl⟩ := still
      exact ih ⟨_, c.recordRight f _ o still, rfl⟩
  | cons e rest ih =>
    obtain ⟨o, still, rfl⟩ := still
    exact ih ⟨o, c.recordLeft e _ o still, rfl⟩

theorem apart_hearing_left {w v : Writer} (apart : c.Apart w v) (events : List Event) :
    c.Apart (w.hearing events) v := by
  induction events generalizing w with
  | nil => exact apart
  | cons e rest ih => exact ih (c.recordLeftApart e _ _ apart)

theorem apart_hearing_right {w v : Writer} (apart : c.Apart w v) (events : List Event) :
    c.Apart w (v.hearing events) := by
  induction events generalizing v with
  | nil => exact apart
  | cons e rest ih => exact ih (c.recordRightApart e _ _ apart)

theorem keeps_recordAll (events others : List Event) :
    c.Keeps (Encoder.recordAll events) (Encoder.recordAll others) where
  both w v still := by
    rw [Writer.recordAll_apply, Writer.recordAll_apply]
    exact .together (together_hearing still events others)
  left w v apart := ⟨(), _, Writer.recordAll_apply events w, apart_hearing_left apart events⟩
  right w v apart := ⟨(), _, Writer.recordAll_apply others v, apart_hearing_right apart others⟩

theorem keeps_writePart (bytes : Octets) :
    c.Keeps (Encoder.writePart bytes) (Encoder.writePart bytes) :=
  (keeps_openPart _).bind fun handle => (keeps_write handle bytes).bind fun _ =>
    keeps_closePart handle

variable {debug : Bool}

theorem keeps_emitFault {f g : Failure} (alike : f.Alike debug g) :
    c.Keeps (Encoder.emitFault debug f) (Encoder.emitFault debug g) := by
  rw [Encoder.emitFault, Encoder.emitFault, alike.body_eq]
  exact (keeps_recordAll _ _).bind fun _ => keeps_writePart _

theorem keeps_emitFailure (id : String) {f g : Failure} (alike : f.Alike debug g) :
    c.Keeps (Encoder.emitFailure debug id f) (Encoder.emitFailure debug id g) := by
  rw [Encoder.emitFailure, Encoder.emitFailure, alike.body_eq]
  exact (keeps_recordAll _ _).bind fun _ => (keeps_writePart _).bind fun _ => coupled_pure _

theorem keeps_emitElement (id : String) (handle index written : Nat) {element other : Except String Json}
    (alike : ConversionAlike (fun j k => j.withoutPrivate = k.withoutPrivate) element other) :
    c.Keeps (Encoder.emitElement id handle index written element)
      (Encoder.emitElement id handle index written other) := by
  cases alike with
  | error _ => exact (keeps_record _ _).bind fun _ => coupled_pure _
  | ok same =>
    rw [Encoder.emitElement, Encoder.emitElement, same]
    split
    · exact (keeps_write _ _).bind fun _ => (keeps_write _ _).bind fun _ => coupled_pure _
    · exact (keeps_write _ _).bind fun _ => coupled_pure _

theorem keeps_emitValue (id : String) {json other : Except String Json}
    (alike : ConversionAlike (fun j k => j.withoutPrivate = k.withoutPrivate) json other) :
    c.Keeps (Encoder.emitValue debug id json) (Encoder.emitValue debug id other) := by
  cases alike with
  | error _ => exact keeps_emitFailure id (Failure.alike_internal _ _ fun _ => rfl)
  | ok same =>
    rw [Encoder.emitValue, Encoder.emitValue, same]
    exact (keeps_writePart _).bind fun _ => coupled_pure _

/-- Outlets that are together are broken together, so a sequence is given up on both sides. -/
theorem keeps_abandoned (id : String) :
    c.Keeps (Encoder.abandoned id) (Encoder.abandoned id) := by
  refine keeps_get_bind (fun w => ?_) fun w o still => ?_
  · split
    · exact (keeps_record _ _).bind fun _ => coupled_pure _
    · exact coupled_pure _
  · rw [c.broken _ _ still]

theorem keeps_openSequence (id : String) :
    c.Keeps (Encoder.openSequence id) (Encoder.openSequence id) :=
  (keeps_openPart _).bind fun _ => (keeps_write _ _).bind fun _ => coupled_pure _

theorem keeps_closeSequence (handle : Nat) :
    c.Keeps (Encoder.closeSequence handle) (Encoder.closeSequence handle) :=
  (keeps_write _ _).bind fun _ => keeps_closePart _

theorem keeps_emitPulls (id : String) (handle index written : Nat) (pulls : List Pull) :
    c.Keeps (Encoder.emitPulls id handle index written pulls)
      (Encoder.emitPulls id handle index written pulls) := by
  induction pulls generalizing index written with
  | nil =>
    rw [Encoder.emitPulls]
    refine (keeps_abandoned id).bind fun gone => ?_
    cases gone <;> exact coupled_pure _
  | cons pull rest ih =>
    rw [Encoder.emitPulls]
    refine (keeps_abandoned id).bind fun gone => ?_
    cases gone with
    | true => exact coupled_pure _
    | false =>
      refine (keeps_recordAll _ _).bind fun _ => ?_
      split
      · exact (keeps_record _ _).bind fun _ => coupled_pure _
      · exact coupled_pure _
      · exact (keeps_emitElement id handle index written (.same_public _)).bind fun _ => ih _ _

/-- A result that was told is written to both. -/
theorem keeps_emitAnswer (id : String) (result : Answer) :
    c.Keeps (Encoder.emitAnswer debug id result) (Encoder.emitAnswer debug id result) := by
  match result with
  | .ok (.value json) =>
    exact (keeps_emitValue id (.same_public json)).bind fun _ => coupled_pure _
  | .ok (.sequence pulls) =>
    exact (keeps_openSequence id).bind fun handle =>
      (keeps_emitPulls id handle 0 0 pulls).bind fun _ =>
        (keeps_closeSequence handle).bind fun _ => coupled_pure _
  | .error f => exact (keeps_emitFailure id (.refl debug f)).bind fun _ => coupled_pure _

/-! Desks. -/

/-- Desks that are together have the same commands to apply, and know the same streams. -/
def DesksTogether (c : Coupling) (d e : Desk) : Prop :=
  ∃ w, c.Together d.writer w ∧ e = { d with writer := w }

def DesksApart (c : Coupling) (d e : Desk) : Prop := c.Apart d.writer e.writer

abbrev Serves (c : Coupling) (m n : Action Desk α) : Prop :=
  Coupled c.DesksTogether c.DesksApart m n

theorem serves_onWriter {m n : Action Writer α} (coupled : c.Keeps m n) :
    c.Serves (.within Desk.onWriter m) (.within Desk.onWriter n) := by
  refine coupled.within ?_ ?_ (fun _ _ _ _ _ => id) (fun _ _ => id) (fun _ _ _ _ => id)
    fun _ _ _ _ => id
  · rintro d _ ⟨w, still, rfl⟩
    exact still
  · rintro d _ w v ⟨_, -, rfl⟩ still
    exact ⟨v, still, rfl⟩

theorem serves_modify (f : Relay → Relay) :
    c.Serves (Action.modify fun d => { d with relay := f d.relay })
      (Action.modify fun d => { d with relay := f d.relay }) := by
  refine coupled_modify ?_ (fun _ _ parted => parted) fun _ _ parted => parted
  rintro d _ ⟨w, still, rfl⟩
  exact ⟨w, still, rfl⟩

/-- What is done next may depend on the relay. -/
theorem serves_get_bind {f : Desk → Action Desk α} (each : ∀ d, c.Serves (f d) (f d))
    (blind : ∀ d w, f { d with writer := w } = f d) : c.Serves (get >>= f) (get >>= f) := by
  refine coupled_get_bind ?_ (fun d => (each d).left d) fun _ e => (each e).right _ e
  rintro d _ ⟨w, -, rfl⟩
  rw [blind d w]
  exact each d

theorem serves_record (e f : Event) : c.Serves (Desk.record e) (Desk.record f) :=
  serves_onWriter (keeps_record e f)

theorem serves_enqueue (command : PartCommand) :
    c.Serves (Desk.enqueue command) (Desk.enqueue command) :=
  serves_modify fun r => { r with queue := r.queue ++ [command] }

theorem serves_apply (command : PartCommand) :
    c.Serves (Desk.apply command) (Desk.apply command) := by
  have serves_setRelay (r : Relay) : c.Serves (Desk.setRelay r) (Desk.setRelay r) :=
    serves_modify fun _ => r
  refine serves_get_bind (fun d => ?_) fun _ _ => rfl
  cases command with
  | openPart stream mime =>
    exact (serves_onWriter (keeps_openPart mime)).bind fun handle => serves_setRelay _
  | write stream bytes =>
    dsimp only
    split
    · exact serves_onWriter (keeps_write _ bytes)
    · exact serves_record _ _
  | close stream =>
    dsimp only
    split
    · exact (serves_setRelay _).bind fun _ => serves_onWriter (keeps_closePart _)
    · exact serves_record _ _

theorem serves_step : c.Serves Desk.step Desk.step := by
  refine serves_get_bind (fun d => ?_) fun _ _ => rfl
  dsimp only
  split
  · exact coupled_pure none
  · exact Coupled.bind (serves_modify fun _ => _) fun _ =>
      (serves_apply _).bind fun _ => coupled_pure _

theorem serves_drainList (commands : List PartCommand) :
    c.Serves (Desk.drainList commands) (Desk.drainList commands) := by
  induction commands with
  | nil => exact coupled_pure ()
  | cons command rest ih =>
    exact (serves_modify fun r => { r with queue := rest }).bind fun _ =>
      (serves_apply command).bind fun _ => ih

theorem serves_drain : c.Serves Desk.drain Desk.drain :=
  serves_get_bind (fun d => serves_drainList d.relay.queue) fun _ _ => rfl

theorem desks_broken {d e : Desk} (still : c.DesksTogether d e) :
    d.writer.outlet.broken = e.writer.outlet.broken := by
  obtain ⟨_, ⟨o, together, rfl⟩, rfl⟩ := still
  exact c.broken _ _ together

theorem desks_hearing {d e : Desk} (still : c.DesksTogether d e) (events others : List Event) :
    c.DesksTogether { d with writer := d.writer.hearing events }
      { e with writer := e.writer.hearing others } := by
  obtain ⟨w, together, rfl⟩ := still
  exact ⟨_, together_hearing together events others, rfl⟩

/-- Outlets that never part. -/
def Inseparable (c : Coupling) : Prop := ∀ o p, ¬c.apart o p

/-! Equal transports. -/

/-- Outlets that have made the same calls and have arrived at the same; only what was recorded may
differ. They never part. -/
def unlogged : Coupling where
  together o p := ∃ log, p = { o with log := log }
  apart _ _ := False
  broken := by
    rintro o _ ⟨log, rfl⟩
    rfl
  recordLeft := by
    rintro e o _ ⟨log, rfl⟩
    exact ⟨log, rfl⟩
  recordRight := by
    rintro e o _ ⟨log, rfl⟩
    exact ⟨log.push e, rfl⟩
  recordLeftApart _ _ _ := id
  recordRightApart _ _ _ := id
  send block := by
    refine ⟨?_, fun _ _ => False.elim, fun _ _ => False.elim⟩
    rintro ⟨transport, broken, sent, log⟩ _ ⟨other, rfl⟩
    rw [Outlet.send, Outlet.send]
    by_cases silent : (broken || block.isEmpty) = true
    · rw [if_pos silent, if_pos silent]
      exact .together ⟨other, rfl⟩
    · rw [if_neg silent, if_neg silent]
      dsimp only
      split
      · exact .together ⟨_, rfl⟩
      · exact .together ⟨_, rfl⟩
      · exact .panicked ⟨_, rfl⟩
  flush := by
    refine ⟨?_, fun _ _ => False.elim, fun _ _ => False.elim⟩
    rintro ⟨transport, broken, sent, log⟩ _ ⟨other, rfl⟩
    rw [Outlet.flush, Outlet.flush]
    by_cases silent : broken = true
    · rw [if_pos silent, if_pos silent]
      exact .together ⟨other, rfl⟩
    · rw [if_neg silent, if_neg silent]
      dsimp only
      split
      · exact .together ⟨_, rfl⟩
      · exact .together ⟨_, rfl⟩
  shutdown := by
    refine coupled_modify ?_ (fun _ _ => False.elim) fun _ _ => False.elim
    rintro ⟨transport, broken, sent, log⟩ _ ⟨other, rfl⟩
    by_cases silent : broken = true
    · exact ⟨other, by simp only [silent, ↓reduceIte]⟩
    · exact ⟨other, by simp only [silent, Bool.false_eq_true, ↓reduceIte]⟩

theorem unlogged_inseparable : unlogged.Inseparable := fun _ _ => id

end Coupling
end Multicall
