import Multicall.Proofs.Turns
/-!
The size of a chunk. It is settled before anything is written: neither parts nor commands, nor anything
that an entry comes to, change it.
-/
namespace Multicall

open Multicall.Action

namespace Writer

theorem onOutlet_leaves {α : Type} (m : Action Outlet α) :
    (Action.within onOutlet m).Leaves chunkSize := leaves_within fun _ => rfl

theorem release_leaves (size : Nat) (given : Bool) (parts : List Part) :
    (release size given parts).Leaves chunkSize := by
  induction parts generalizing given with
  | nil => exact leaves_pure given
  | cons head rest ih =>
    have setParts_leaves (parts : List Part) : (setParts parts).Leaves chunkSize :=
      leaves_modify fun _ => rfl
    rw [release]
    split
    · exact (setParts_leaves _).bind fun _ => (onOutlet_leaves _).bind fun _ => ih true
    · split
      · exact (setParts_leaves _).bind fun _ => (onOutlet_leaves _).bind fun _ => leaves_pure _
      · exact leaves_pure given

theorem pump_leaves : pump.Leaves chunkSize := by
  refine leaves_get_bind fun w => (release_leaves _ _ _).bind fun given => ?_
  cases given with
  | false => exact leaves_pure ()
  | true => exact onOutlet_leaves _

theorem openPart_leaves (mime : String) : (openPart mime).Leaves chunkSize :=
  leaves_get_bind fun _ => Leaves.bind (leaves_modify fun _ => rfl) fun _ =>
    pump_leaves.bind fun _ => leaves_pure _

theorem onPart_leaves (handle : Nat) (bytes : Octets) (close : Bool) (otherwise : Event) :
    (onPart handle bytes close otherwise).Leaves chunkSize := by
  rw [Writer.onPart_eq]
  refine leaves_get_bind fun w => Leaves.bind (leaves_modify fun _ => rfl) fun _ => ?_
  split
  · exact pump_leaves
  · exact onOutlet_leaves _

end Writer

namespace Encoder

theorem recordAll_leaves (events : List Event) : (recordAll events).Leaves Writer.chunkSize := by
  induction events with
  | nil => exact leaves_pure ()
  | cons e rest ih => exact (Writer.onOutlet_leaves _).bind fun _ => ih

theorem writePart_leaves (bytes : Octets) : (writePart bytes).Leaves Writer.chunkSize :=
  (Writer.openPart_leaves _).bind fun _ => (Writer.onPart_leaves _ _ _ _).bind fun _ =>
    Writer.onPart_leaves _ _ _ _

theorem emitFailure_leaves (debug : Bool) (id : String) (f : Failure) :
    (emitFailure debug id f).Leaves Writer.chunkSize :=
  (recordAll_leaves _).bind fun _ => (writePart_leaves _).bind fun _ => leaves_pure _

theorem emitElement_leaves (id : String) (handle index written : Nat)
    (element : Except String Json) :
    (emitElement id handle index written element).Leaves Writer.chunkSize := by
  cases element with
  | error reason => exact (Writer.onOutlet_leaves _).bind fun _ => leaves_pure _
  | ok j =>
    rw [emitElement]
    split
    · exact (Writer.onPart_leaves _ _ _ _).bind fun _ =>
        (Writer.onPart_leaves _ _ _ _).bind fun _ => leaves_pure _
    · exact (Writer.onPart_leaves _ _ _ _).bind fun _ => leaves_pure _

theorem abandoned_leaves (id : String) : (abandoned id).Leaves Writer.chunkSize := by
  refine leaves_get_bind fun w => ?_
  split
  · exact (Writer.onOutlet_leaves _).bind fun _ => leaves_pure _
  · exact leaves_pure _

theorem emitPulls_leaves (id : String) (handle index written : Nat) (pulls : List Pull) :
    (emitPulls id handle index written pulls).Leaves Writer.chunkSize := by
  induction pulls generalizing index written with
  | nil =>
    rw [emitPulls]
    refine (abandoned_leaves id).bind fun gone => ?_
    cases gone <;> exact leaves_pure _
  | cons pull rest ih =>
    rw [emitPulls]
    refine (abandoned_leaves id).bind fun gone => ?_
    cases gone with
    | true => exact leaves_pure _
    | false =>
      refine (recordAll_leaves _).bind fun _ => ?_
      split
      · exact (Writer.onOutlet_leaves _).bind fun _ => leaves_pure _
      · exact leaves_pure _
      · exact (emitElement_leaves id handle index written _).bind fun _ => ih _ _

theorem emitAnswer_leaves (debug : Bool) (id : String) (result : Answer) :
    (emitAnswer debug id result).Leaves Writer.chunkSize := by
  match result with
  | .ok (.value (.ok j)) =>
    exact ((writePart_leaves _).bind fun _ => leaves_pure _).bind fun _ => leaves_pure _
  | .ok (.value (.error reason)) =>
    exact (emitFailure_leaves debug id _).bind fun _ => leaves_pure _
  | .ok (.sequence pulls) =>
    exact ((Writer.openPart_leaves _).bind fun _ => (Writer.onPart_leaves _ _ _ _).bind fun _ =>
      leaves_pure _).bind fun handle => (emitPulls_leaves id handle 0 0 pulls).bind fun _ =>
        ((Writer.onPart_leaves _ _ _ _).bind fun _ => Writer.onPart_leaves _ _ _ _).bind fun _ =>
          leaves_pure _
  | .error f => exact (emitFailure_leaves debug id f).bind fun _ => leaves_pure _

end Encoder

namespace Desk

def chunkSize (d : Desk) : Nat := d.writer.chunkSize

theorem onWriter_leaves {α : Type} {m : Action Writer α} (leaves : m.Leaves Writer.chunkSize) :
    (Action.within onWriter m).Leaves chunkSize := leaves_within fun d => leaves d.writer

theorem apply_leaves (c : PartCommand) : (apply c).Leaves chunkSize := by
  refine leaves_get_bind fun d => ?_
  cases c with
  | openPart stream mime =>
    exact (onWriter_leaves (Writer.openPart_leaves _)).bind fun _ => leaves_modify fun _ => rfl
  | write stream bytes =>
    dsimp only
    split
    · exact onWriter_leaves (Writer.onPart_leaves _ _ _ _)
    · exact onWriter_leaves (Writer.onOutlet_leaves _)
  | close stream =>
    dsimp only
    split
    · have forgotten (r : Relay) : (setRelay r).Leaves chunkSize := leaves_modify fun _ => rfl
      exact (forgotten _).bind fun _ => onWriter_leaves (Writer.onPart_leaves _ _ _ _)
    · exact onWriter_leaves (Writer.onOutlet_leaves _)

theorem step_leaves : step.Leaves chunkSize := by
  refine leaves_get_bind fun d => ?_
  dsimp only
  split
  · exact leaves_pure none
  · have taken (r : Relay) : (setRelay r).Leaves chunkSize := leaves_modify fun _ => rfl
    exact (taken _).bind fun _ => (apply_leaves _).bind fun _ => leaves_pure _

theorem drainList_leaves (commands : List PartCommand) :
    (drainList commands).Leaves chunkSize := by
  induction commands with
  | nil => exact leaves_pure ()
  | cons c rest ih =>
    have taken : (Action.modify fun d : Desk =>
        { d with relay := { d.relay with queue := rest } }).Leaves chunkSize :=
      leaves_modify fun _ => rfl
    exact taken.bind fun _ => (apply_leaves c).bind fun _ => ih

end Desk

namespace Session

variable {ω α : Type}

def chunkSize (s : Session ω) : Nat := s.desk.chunkSize

theorem atDesk_leaves {m : Action Desk α} (leaves : m.Leaves Desk.chunkSize) :
    (atDesk m : Action (Session ω) α).Leaves chunkSize := leaves_within fun s => leaves s.desk

theorem runAlongside_leaves (code : BatchCode ω α) : (runAlongside code).Leaves chunkSize :=
  leaves_get_bind fun _ =>
    (follow_leaves (fun _ => leaves_modify fun _ => rfl)
      (fun _ => atDesk_leaves (leaves_modify fun _ => rfl))
      (fun _ => atDesk_leaves (Desk.onWriter_leaves (Writer.onOutlet_leaves _)))
      (atDesk_leaves Desk.step_leaves) _).bind fun _ =>
    (atDesk_leaves (leaves_get_bind fun _ => Desk.drainList_leaves _)).bind fun _ => leaves_pure _

theorem emit_leaves (debug : Bool) (patience : Nat) (id : String) (result : EntryResult ω) :
    (emit debug patience id result).Leaves chunkSize := by
  intro s
  obtain ⟨count, -, same, -⟩ := emit_told debug patience id result s
  rw [same]
  exact atDesk_leaves (Desk.onWriter_leaves (Encoder.emitAnswer_leaves debug id _)) _

theorem takeTurn_leaves (setting : Setting ω) (id : String) (body : Json) :
    (takeTurn setting id body).Leaves chunkSize :=
  (runAlongside_leaves _).bind fun _ => (emit_leaves _ _ _ _).bind fun _ =>
    leaves_modify fun _ => rfl

end Session
end Multicall
