import Multicall.Proofs.Lasting
/-!
A transport that panics once. The write call with one number panics, and every other takes something
of what it is offered. Before that call it is a sound way to the peer, and behind it everything is
taken again; in between lies the rest of one block, which never arrives.
-/
namespace Multicall

open Multicall.Action

/-- A peer whose write call of a number panics; calls are counted from one on. From all others it takes
something, and it never fails to flush or to shut down. -/
structure Peer.PanicsOnce (n : Nat) (peer : Peer) : Prop where
  positive : 0 < n
  strikes : ∃ p, ∀ accepted offered, peer.onWrite n accepted offered = .panic p
  takes : ∀ call accepted offered, call ≠ n → 0 < offered →
    ∃ count, peer.onWrite call accepted offered = .accept (count + 1)
  flushes : ∀ call, peer.onFlush call = .ok ()
  shuts : peer.onShutdown = .ok ()

def Peer.tripping (n : Nat) : Peer := scripted ⟨none, none, none, none, some n, false⟩

theorem Peer.tripping_panics_once (n : Nat) (positive : 0 < n) : (tripping n).PanicsOnce n where
  positive := positive
  strikes := ⟨.text "transport fault", fun accepted offered => if_pos rfl⟩
  takes call accepted offered other some_offered := by
    have quiet : ¬ (some n = some call) := fun same => other (Option.some.inj same).symm
    refine ⟨offered - 1, ?_⟩
    show Script.onWrite _ call accepted offered = _
    rw [Script.onWrite, if_neg quiet]
    simp [Nat.sub_add_cancel some_offered]
  flushes _ := rfl
  shuts := rfl

/-- Which of its write calls a peer answers how, when something is offered. -/
theorem Peer.PanicsOnce.answers {n : Nat} {peer : Peer} (once : peer.PanicsOnce n)
    (call accepted : Nat) {offered : Nat} (some : 0 < offered) :
    (call = n ∧ ∃ p, peer.onWrite call accepted offered = .panic p) ∨
      (call ≠ n ∧ ∃ count, peer.onWrite call accepted offered = .accept (count + 1)) := by
  by_cases struck : call = n
  · obtain ⟨p, strikes⟩ := once.strikes
    exact .inl ⟨struck, p, struck ▸ strikes accepted offered⟩
  · exact .inr ⟨struck, once.takes call accepted offered struck some⟩

namespace Transport

/-- Writing a block to such a peer goes to the end of the block, unless the call that panics comes
first; then a front piece of it has arrived. -/
theorem writeAll_once {n : Nat} (block : Octets) (t : Transport) (once : t.peer.PanicsOnce n) :
    ∃ after taken left, block = taken ++ left ∧ after.peer = t.peer ∧
      after.accepted.toList = t.accepted.toList ++ taken ∧
      ((t.writeAll block = (after, .complete) ∧ left = [] ∧ (after.writes < n ↔ t.writes < n)) ∨
        ∃ p, t.writeAll block = (after, .panicked p) ∧ t.writes < n ∧ n ≤ after.writes) := by
  -- a call that takes something is not the one that panics
  have step (left : Octets) (u : Transport) (count : Nat) (some : left ≠ [])
      (held : Partway block t left u ∧ (u.writes < n ↔ t.writes < n))
      (answer : u.peer.onWrite (u.writes + 1) u.accepted.size left.length = .accept (count + 1)) :
      Partway block t (left.drop (count + 1)) (u.took (left.take (count + 1))) ∧
        (u.writes + 1 < n ↔ t.writes < n) := by
    obtain ⟨partway, early⟩ := held
    refine ⟨partway.step (count + 1), ?_⟩
    rw [partway.samePeer] at answer
    rcases once.answers (u.writes + 1) u.accepted.size (List.length_pos_iff.mpr some) with
      ⟨-, p, panics⟩ | ⟨other, -⟩
    · cases panics.symm.trans answer
    · omega
  rcases writeAll_rule (fun left u => Partway block t left u ∧ (u.writes < n ↔ t.writes < n)) step
    block t ⟨.begin block t, Iff.rfl⟩ with
    ⟨after, complete, partway, early⟩ | ⟨left, last, after, _, some, ⟨partway, early⟩, stops, ended⟩
  · obtain ⟨samePeer, arrived⟩ := partway.whole
    exact ⟨after, block, [], (List.append_nil _).symm, samePeer, arrived, .inl ⟨complete, rfl, early⟩⟩
  · obtain ⟨samePeer, taken, split, arrived⟩ := partway.stop stops
    refine ⟨after, taken, left, split, samePeer, arrived, .inr ?_⟩
    have answers := once.answers (last.writes + 1) last.accepted.size (List.length_pos_iff.mpr some)
    rw [← partway.samePeer] at answers
    rcases answers with ⟨here, p, panics⟩ | ⟨-, count, takes⟩
    · cases stops with
      | nothing answer | refused answer => cases panics.symm.trans answer
      | struck => exact ⟨_, ended, early.mp (by omega), Nat.le_of_eq here.symm⟩
    · cases stops with
      | nothing answer | refused answer | struck answer => cases takes.symm.trans answer

end Transport

namespace Outlet

variable {n : Nat}

/-- Nothing has failed, and one call panics at most. -/
structure Once (n : Nat) (o : Outlet) : Prop where
  whole : o.broken = false
  once : o.transport.peer.PanicsOnce n

/-- The call that panics is still to come. -/
def Wary (n : Nat) (o : Outlet) : Prop := o.Once n ∧ o.transport.writes < n

/-- The call that panics has been made. -/
def Spent (n : Nat) (o : Outlet) : Prop := o.Once n ∧ n ≤ o.transport.writes

theorem send_once (block : Octets) (o : Outlet) (once : o.Once n) :
    (send block).Goes o
      (fun _ after => after.Once n ∧ (after.transport.writes < n ↔ o.transport.writes < n) ∧
        after.arrived = o.arrived ++ block)
      fun after => after.Once n ∧ o.transport.writes < n ∧ n ≤ after.transport.writes ∧
        ∃ taken lost, block = taken ++ lost ∧ after.arrived = o.arrived ++ taken := by
  obtain ⟨after, taken, left, split, samePeer, arrived, ended⟩ :=
    Transport.writeAll_once block o.transport once.once
  rcases ended with ⟨complete, rfl, early⟩ | ⟨p, panicked, early, late⟩
  · rw [List.append_nil] at split
    exact .inl ⟨(), _, send_of_complete once.whole complete, ⟨once.whole, samePeer ▸ once.once⟩,
      early, split ▸ arrived⟩
  · exact .inr ⟨p, _, send_of_panicked once.whole panicked, ⟨once.whole, samePeer ▸ once.once⟩,
      early, late, taken, left, split, arrived⟩

theorem send_goes (block : Octets) (o : Outlet) (wary : o.Wary n) :
    (send block).Goes o (fun _ after => after.Wary n ∧ after.arrived = o.arrived ++ block)
      fun after => after.Spent n ∧ ∃ taken lost, block = taken ++ lost ∧
        after.arrived = o.arrived ++ taken := by
  refine (send_once block o wary.1).weaken ?_ ?_
  · rintro _ after ⟨once, early, arrived⟩
    exact ⟨⟨once, early.mpr wary.2⟩, arrived⟩
  · rintro after ⟨once, -, late, lost⟩
    exact ⟨⟨once, late⟩, lost⟩

theorem send_of_spent (block : Octets) (o : Outlet) (spent : o.Spent n) :
    (send block).Ends o fun _ after => after.Spent n ∧ after.arrived = o.arrived ++ block := by
  rcases send_once block o spent.1 with ⟨_, after, ran, once, early, arrived⟩ | ⟨p, t, -, -, early, -⟩
  · exact ⟨(), after, ran, ⟨once, Nat.le_of_not_lt fun less =>
      absurd (early.mp less) (Nat.not_lt.mpr spent.2)⟩, arrived⟩
  · exact absurd early (Nat.not_lt.mpr spent.2)

theorem flush_once (o : Outlet) (once : o.Once n) :
    flush.Ends o fun _ after => after.Once n ∧ after.transport.writes = o.transport.writes ∧
      after.arrived = o.arrived ∧
      after.transport.calls = o.transport.calls.push .flushed := by
  have flushed := Transport.flush_of_ok (once.once.flushes (o.transport.flushes + 1))
  exact ⟨(), _, flush_of_ok once.whole flushed, ⟨once.whole, once.once⟩, rfl, rfl, rfl⟩

theorem shutdown_once (o : Outlet) (once : o.Once n) :
    shutdown.Ends o fun _ after => after.Once n ∧ after.transport.writes = o.transport.writes ∧
      after.arrived = o.arrived ∧ after.transport.calls = o.transport.calls.push .shut := by
  refine ⟨(), _, shutdown_of_whole once.whole, ?_⟩
  rw [Transport.shutdown, once.once.shuts]
  exact ⟨⟨once.whole, once.once⟩, rfl, rfl, rfl⟩

theorem flush_of_spent (o : Outlet) (spent : o.Spent n) :
    flush.Ends o fun _ after => after.Spent n ∧ after.arrived = o.arrived :=
  (flush_once o spent.1).weaken fun _ _ flushed =>
    ⟨⟨flushed.1, flushed.2.1 ▸ spent.2⟩, flushed.2.2.1⟩

theorem shutdown_of_spent (o : Outlet) (spent : o.Spent n) :
    shutdown.Ends o fun _ after => after.Spent n ∧ after.arrived = o.arrived :=
  (shutdown_once o spent.1).weaken fun _ _ shut => ⟨⟨shut.1, shut.2.1 ▸ spent.2⟩, shut.2.2.1⟩

/-- Once the call has been made nothing can panic any more. -/
theorem spent_lasts : Lasting (Spent n) where
  record _ _ spent := ⟨⟨spent.1.whole, spent.1.once⟩, spent.2⟩
  send block o spent := (send_of_spent block o spent).weaken fun _ _ sent => sent.1
  flush o spent := (flush_of_spent o spent).weaken fun _ _ flushed => flushed.1
  shutdown o spent := (shutdown_of_spent o spent).weaken fun _ _ shut => shut.1

end Outlet

/-- The way to a peer that panics once. -/
def Way.once (n : Nat) : Way where
  sound := Outlet.Wary n
  struck := Outlet.Spent n
  whole _ wary := wary.1.whole
  record _ _ wary := ⟨⟨wary.1.whole, wary.1.once⟩, wary.2⟩
  send := Outlet.send_goes
  flush o wary := (Outlet.flush_once o wary.1).weaken fun _ _ flushed =>
    ⟨⟨flushed.1, flushed.2.1 ▸ wary.2⟩, flushed.2.2.1⟩

end Multicall
