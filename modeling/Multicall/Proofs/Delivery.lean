import Multicall.Proofs.Completion
import Multicall.Response.Transport
import Multicall.Response.Writer
/-!
Delivery to a peer that takes everything. Such a peer may take a block in as many pieces as it
likes, yet every block arrives whole and in order, and no call on the way to it ends otherwise than
well. What is built on delivery relies on less, so that a panic on the way can be accounted for as
well.
-/
namespace Multicall

/-- A peer that takes something of whatever it is offered, and that never fails to flush. How it
answers a shutdown is left open. -/
structure Peer.TakesAll (peer : Peer) : Prop where
  takes : ∀ call accepted offered, 0 < offered →
    ∃ count, peer.onWrite call accepted offered = .accept (count + 1)
  flushes : ∀ call, peer.onFlush call = .ok ()

theorem Peer.accepting_takes_all : Peer.accepting.TakesAll where
  takes call accepted offered positive := ⟨offered - 1, by
    have whole : offered - 1 + 1 = offered := by omega
    rw [whole, Peer.accepting]⟩
  flushes call := rfl

namespace Transport

/-- How the writing of a block stops early, with so much of it left: the peer takes nothing, refuses or
panics. -/
inductive Stops (left : Octets) (last : Transport) : Transport → Delivery → Prop
  | nothing
      (answer : last.peer.onWrite (last.writes + 1) last.accepted.size left.length = .accept 0) :
      Stops left last (last.took []) (.failed writeZero)
  | refused {reason : String}
      (answer : last.peer.onWrite (last.writes + 1) last.accepted.size left.length =
        .refuse reason) : Stops left last last.refused (.failed reason)
  | struck {p : Panic}
      (answer : last.peer.onWrite (last.writes + 1) last.accepted.size left.length = .panic p) :
      Stops left last last.struck (.panicked p)

/-- What is kept by every call that takes something, of the octets that are left and of the transport,
holds until nothing is left, or until a call stops the writing. -/
theorem writeAll_rule (holds : Octets → Transport → Prop)
    (step : ∀ left t count, left ≠ [] → holds left t →
      t.peer.onWrite (t.writes + 1) t.accepted.size left.length = .accept (count + 1) →
      holds (left.drop (count + 1)) (t.took (left.take (count + 1))))
    (block : Octets) (t : Transport) (held : holds block t) :
    (∃ after, t.writeAll block = (after, .complete) ∧ holds [] after) ∨
      ∃ left last after delivery, left ≠ [] ∧ holds left last ∧ Stops left last after delivery ∧
        t.writeAll block = (after, delivery) := by
  -- a call may take any piece of the block, so the induction is on what is left of it
  induction size : block.length using Nat.strongRecOn generalizing block t with
  | ind n ih =>
    cases block with
    | nil => exact .inl ⟨t, by rw [writeAll, writeRest], held⟩
    | cons first rest =>
      have some : first :: rest ≠ [] := List.cons_ne_nil first rest
      rw [writeAll, writeRest]
      cases answer : t.peer.onWrite (t.writes + 1) t.accepted.size (first :: rest).length with
      | refuse reason =>
        rw [write_of_refuse answer]
        exact .inr ⟨_, t, _, _, some, held, .refused answer, rfl⟩
      | panic p =>
        rw [write_of_panic answer]
        exact .inr ⟨_, t, _, _, some, held, .struck answer, rfl⟩
      | accept count =>
        rw [write_of_accept answer]
        cases count with
        | zero => exact .inr ⟨_, t, _, _, some, held, .nothing answer, rfl⟩
        | succ count =>
          have left : (first :: rest).length - ((rest.take count).length + 1) =
              (rest.drop (rest.take count).length).length := by
            rw [List.length_drop, List.length_cons]
            omega
          have dropped : rest.drop (rest.take count).length = rest.drop count := by
            rw [List.length_take, List.drop_eq_drop_iff]
            omega
          simp only [List.take_succ_cons, List.length_cons] at left ⊢
          rw [left, dropped]
          exact ih _ (by rw [← size, List.length_cons, List.length_drop]; omega) (rest.drop count) _
            (step _ t count some held answer) rfl

/-- So much of a block is left; what is in front of that has been taken since the start. -/
structure Partway (block : Octets) (start : Transport) (left : Octets) (t : Transport) : Prop where
  samePeer : t.peer = start.peer
  taken : ∃ front, block = front ++ left ∧ t.accepted.toList = start.accepted.toList ++ front

section Partway

variable {block left : Octets} {start t : Transport}

theorem Partway.begin (block : Octets) (t : Transport) : t.Partway block block t :=
  ⟨rfl, [], rfl, (List.append_nil _).symm⟩

theorem Partway.step (partway : Partway block start left t) (count : Nat) :
    Partway block start (left.drop count) (t.took (left.take count)) := by
  obtain ⟨samePeer, front, split, arrived⟩ := partway
  refine ⟨samePeer, front ++ left.take count, ?_, ?_⟩
  · rw [split, List.append_assoc, List.take_append_drop]
  · rw [took_accepted, arrived, List.append_assoc]

theorem Partway.whole (partway : Partway block start [] t) :
    t.peer = start.peer ∧ t.accepted.toList = start.accepted.toList ++ block := by
  obtain ⟨samePeer, front, split, arrived⟩ := partway
  rw [List.append_nil] at split
  exact ⟨samePeer, split ▸ arrived⟩

/-- The call that stops the writing takes nothing. -/
theorem Partway.stop {after : Transport} {delivery : Delivery} (partway : Partway block start left t)
    (stops : Stops left t after delivery) : Partway block start left after := by
  cases stops with
  | nothing => exact (List.take_zero (l := left)) ▸ partway.step 0
  | refused | struck => exact ⟨partway.samePeer, partway.taken⟩

end Partway

/-- The block is taken whole, or a call stops the writing with some of it left. -/
theorem writeAll_partway (block : Octets) (t : Transport) :
    (∃ after, t.writeAll block = (after, .complete) ∧ after.peer = t.peer ∧
      after.accepted.toList = t.accepted.toList ++ block) ∨
    ∃ left last after delivery, left ≠ [] ∧ Partway block t left last ∧
      Stops left last after delivery ∧ t.writeAll block = (after, delivery) := by
  apply (writeAll_rule (Partway block t) (fun _ _ count _ partway _ => partway.step (count + 1))
    block t (.begin block t)).imp_left
  rintro ⟨after, complete, partway⟩
  exact ⟨after, complete, partway.whole⟩

/-- A whole block arrives, in as many calls as the peer makes of it. -/
theorem writeAll_delivers (block : Octets) (t : Transport) (takesAll : t.peer.TakesAll) :
    ∃ after, t.writeAll block = (after, .complete) ∧ after.peer = t.peer ∧
      after.accepted.toList = t.accepted.toList ++ block := by
  apply (writeAll_partway block t).resolve_right
  rintro ⟨left, last, after, _, some, partway, stops, -⟩
  obtain ⟨count, taken⟩ := takesAll.takes (last.writes + 1) last.accepted.size left.length
    (List.length_pos_iff.mpr some)
  rw [← partway.samePeer] at taken
  cases stops with
  | nothing answer | refused answer | struck answer => cases taken.symm.trans answer

/-- What every call leaves standing that offers all that is left of a block stands behind the whole
block. -/
theorem writeAll_keeps {holds : Transport → Prop}
    (write : ∀ t block, holds t → holds (t.write block.length block).1) (block : Octets)
    (t : Transport) (held : holds t) : holds (t.writeAll block).1 := by
  have step (left : Octets) (t : Transport) (count : Nat) (_ : left ≠ []) (held : holds t)
      (answer : t.peer.onWrite (t.writes + 1) t.accepted.size left.length = .accept (count + 1)) :
      holds (t.took (left.take (count + 1))) := by
    have once := write t left held
    rwa [write_of_accept answer] at once
  rcases writeAll_rule (fun _ => holds) step block t held with
    ⟨after, complete, still⟩ | ⟨left, last, after, _, -, still, stops, ended⟩
  · rwa [complete]
  · rw [ended]
    have once := write last left still
    cases stops with
    | nothing answer => rwa [write_of_accept answer] at once
    | refused answer => rwa [write_of_refuse answer] at once
    | struck answer => rwa [write_of_panic answer] at once

theorem shutdown_accepted (t : Transport) : t.shutdown.accepted = t.accepted := by
  unfold shutdown
  split <;> rfl

end Transport

namespace Outlet

/-- Nothing has failed so far, and nothing will. -/
structure Healthy (o : Outlet) : Prop where
  whole : o.broken = false
  takesAll : o.transport.peer.TakesAll

def arrived (o : Outlet) : Octets := o.transport.accepted.toList

/-- A block arrives whole and is counted, and nothing else at the outlet changes. -/
theorem send_delivers (block : Octets) (o : Outlet) (healthy : o.Healthy) :
    ∃ t, send block o = .done () { o with transport := t, sent := o.sent + block.length } ∧
      t.peer = o.transport.peer ∧ t.accepted.toList = o.arrived ++ block := by
  obtain ⟨after, complete, samePeer, arrived⟩ :=
    Transport.writeAll_delivers block o.transport healthy.takesAll
  exact ⟨after, send_of_complete healthy.whole complete, samePeer, arrived⟩

theorem send_ends (block : Octets) (o : Outlet) (healthy : o.Healthy) :
    (send block).Ends o fun _ after => after.Healthy ∧ after.arrived = o.arrived ++ block := by
  obtain ⟨t, ran, samePeer, arrived⟩ := send_delivers block o healthy
  exact ⟨(), _, ran, ⟨healthy.whole, samePeer ▸ healthy.takesAll⟩, arrived⟩

/-- A flush is noted behind the other calls, and nothing arrives by it. -/
theorem flush_delivers (o : Outlet) (healthy : o.Healthy) :
    ∃ t, flush o = .done () { o with transport := t } ∧ t.peer = o.transport.peer ∧
      t.accepted.toList = o.arrived ∧ t.calls.toList = o.transport.calls.toList ++ [.flushed] := by
  have flushed := Transport.flush_of_ok (healthy.takesAll.flushes (o.transport.flushes + 1))
  exact ⟨_, flush_of_ok healthy.whole flushed, rfl, rfl, Array.toList_push⟩

theorem flush_ends (o : Outlet) (healthy : o.Healthy) :
    flush.Ends o fun _ after => after.Healthy ∧ after.arrived = o.arrived := by
  obtain ⟨t, ran, samePeer, arrived, -⟩ := flush_delivers o healthy
  exact ⟨(), _, ran, ⟨healthy.whole, samePeer ▸ healthy.takesAll⟩, arrived⟩

section Keeps

variable {holds : Transport → Prop}

theorem send_keeps (write : ∀ t block, holds t → holds (t.write block.length block).1)
    (block : Octets) (o : Outlet) (held : holds o.transport) :
    holds (send block o).state.transport := by
  have written := Transport.writeAll_keeps write block o.transport held
  cases gone : o.broken with
  | true => rwa [send_of_broken gone]
  | false =>
    rw [send_of_whole gone]
    generalize o.transport.writeAll block = tried at written
    obtain ⟨t, delivery⟩ := tried
    cases delivery with
    | complete | failed _ | panicked _ => exact written

theorem flush_keeps (flushed : ∀ t, holds t → holds t.flush.1) (o : Outlet)
    (held : holds o.transport) : holds (flush o).state.transport := by
  have tried := flushed o.transport held
  cases gone : o.broken with
  | true => rwa [flush_of_broken gone]
  | false =>
    rw [flush_of_whole gone]
    generalize o.transport.flush = result at tried
    obtain ⟨t, answer⟩ := result
    cases answer with
    | ok _ | error _ => exact tried

theorem shutdown_keeps (shut : ∀ t, holds t → holds t.shutdown) (o : Outlet)
    (held : holds o.transport) : holds (shutdown o).state.transport := by
  cases gone : o.broken with
  | true => rwa [shutdown_of_broken gone]
  | false =>
    rw [shutdown_of_whole gone]
    exact shut o.transport held

end Keeps

theorem shutdown_ends (o : Outlet) :
    shutdown.Ends o fun _ after => after.arrived = o.arrived := by
  have still (t : Transport) (same : t.accepted = o.transport.accepted) :
      t.shutdown.accepted = o.transport.accepted := t.shutdown_accepted.trans same
  exact ⟨(), _, rfl, congrArg Array.toList (shutdown_keeps still o rfl)⟩

/-- A sound outlet at which these octets have arrived. -/
def holding (octets : Octets) : Outlet := ⟨⟨.accepting, 0, 0, octets.toArray, #[]⟩, false, 0, #[]⟩

theorem holding_healthy (octets : Octets) : (holding octets).Healthy :=
  ⟨rfl, Peer.accepting_takes_all⟩

end Outlet

/-- What is relied on while parts are written: as long as an outlet is sound it takes every block, or a
panic strikes while it takes one, and then the end of that block is lost. -/
structure Way where
  sound : Outlet → Prop
  struck : Outlet → Prop
  whole : ∀ o, sound o → o.broken = false
  record : ∀ e o, sound o → sound { o with log := o.log.push e }
  send : ∀ block o, sound o → (Outlet.send block).Goes o
    (fun _ after => sound after ∧ after.arrived = o.arrived ++ block)
    fun after => struck after ∧ ∃ taken lost, block = taken ++ lost ∧
      after.arrived = o.arrived ++ taken
  flush : ∀ o, sound o → Outlet.flush.Ends o fun _ after =>
    sound after ∧ after.arrived = o.arrived

/-- No panic ever strikes. -/
def Way.clear : Way where
  sound := Outlet.Healthy
  struck _ := False
  whole _ healthy := healthy.whole
  record _ _ healthy := ⟨healthy.whole, healthy.takesAll⟩
  send block o healthy := (Outlet.send_ends block o healthy).goes
  flush := Outlet.flush_ends

namespace Writer

open Multicall.Action

theorem onPart_eq (handle : Nat) (bytes : Octets) (close : Bool) (otherwise : Event) :
    onPart handle bytes close otherwise = get >>= fun w =>
      setParts (append handle bytes close w.parts).1 >>= fun _ =>
        if (append handle bytes close w.parts).2 then pump
        else record otherwise := by
  funext w
  obtain ⟨outlet, boundary, chunkSize, parts, nextHandle⟩ := w
  rw [onPart]
  cases appended : append handle bytes close parts with
  | mk parts found => cases found <;> simp [bind_apply, setParts, appended]

section Outlets

variable {α : Type} {good : Outlet → Prop}

theorem onOutlet_maintains {m : Action Outlet α} (maintains : m.Maintains good) :
    (Action.within onOutlet m).Maintains fun w => good w.outlet :=
  maintains.within (fun _ held => held) fun _ _ still => still

/-- What sending and flushing leave standing at the outlet stands behind a pump. -/
theorem pump_maintains (send : ∀ block, (Outlet.send block).Maintains good)
    (flush : Outlet.flush.Maintains good) : pump.Maintains fun w => good w.outlet := by
  have setParts (parts : List Part) : (setParts parts).Maintains fun w => good w.outlet :=
    maintains_modify fun _ held => held
  have release (chunkSize : Nat) (given : Bool) (parts : List Part) :
      (release chunkSize given parts).Maintains fun w => good w.outlet := by
    induction parts generalizing given with
    | nil => exact maintains_pure given
    | cons head rest ih =>
      rw [Writer.release]
      split
      · exact (setParts _).bind fun _ => (onOutlet_maintains (send _)).bind fun _ => ih true
      · split
        · exact (setParts _).bind fun _ => (onOutlet_maintains (send _)).bind fun _ =>
            maintains_pure true
        · exact maintains_pure given
  refine maintains_get_bind fun w => (release _ _ _).bind fun given => ?_
  cases given with
  | false => exact maintains_pure ()
  | true => exact onOutlet_maintains flush

theorem onPart_maintains (pump : pump.Maintains fun w => good w.outlet) (handle : Nat) (bytes : Octets)
    (close : Bool) {otherwise : Event} (record : (Outlet.record otherwise).Maintains good) :
    (onPart handle bytes close otherwise).Maintains fun w => good w.outlet := by
  rw [onPart_eq]
  refine maintains_get_bind fun w => Maintains.bind (maintains_modify fun _ held => held) fun _ => ?_
  split
  · exact pump
  · exact onOutlet_maintains record

theorem finish_maintains (send : ∀ block, (Outlet.send block).Maintains good)
    (flush : Outlet.flush.Maintains good) (shutdown : Outlet.shutdown.Maintains good) :
    finish.Maintains fun w => good w.outlet := by
  refine Maintains.bind (maintains_modify fun _ held => held) fun _ =>
    (pump_maintains send flush).bind fun _ => maintains_get_bind fun w => ?_
  exact (onOutlet_maintains (send _)).bind fun _ => (onOutlet_maintains flush).bind fun _ =>
    onOutlet_maintains shutdown

end Outlets

end Writer

end Multicall
