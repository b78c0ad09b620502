import Multicall.Http.Exchange
import Multicall.Proofs.CallOrder
/-!
Runs over a pipe. A pipe takes what it has room for and never fails, so a run over one makes nothing but
writes that fit and flushes, and a shutdown at the end. Together the writes bring exactly what a run
into memory leaves there.
-/
namespace Multicall

open Multicall.Action

/-- What the writer of a pipe can rely on. How much the pipe takes of a write depends on how full it is
by then, and is left open; but it takes something of whatever it is offered, and never more than its
room. -/
structure Peer.IsPipe (room : Nat) (peer : Peer) : Prop where
  takes : ∀ call accepted offered, ∃ count ≤ room,
    peer.onWrite call accepted offered = .accept count ∧ (0 < offered → 0 < count)
  flushes : ∀ call, peer.onFlush call = .ok ()
  shuts : peer.onShutdown = .ok ()

theorem Peer.duplex_isPipe {room : Nat} (positive : 0 < room) (read : Nat → Nat) :
    (Peer.duplex room read).IsPipe room where
  takes call accepted offered := by
    refine ⟨min offered (room - min (accepted - read call) (room - 1)), ?_, rfl, ?_⟩ <;> omega
  flushes _ := rfl
  shuts := rfl

namespace Peer.IsPipe

variable {room : Nat} {peer : Peer} (pipe : peer.IsPipe room)
include pipe

theorem takes_all : peer.TakesAll where
  takes call accepted offered some := by
    obtain ⟨count, -, answer, positive⟩ := pipe.takes call accepted offered
    obtain ⟨less, rfl⟩ := Nat.exists_eq_add_one.mpr (positive some)
    exact ⟨less, answer⟩
  flushes := pipe.flushes

theorem never_panics : peer.NeverPanics := by
  intro call accepted offered p struck
  obtain ⟨count, -, answer, -⟩ := pipe.takes call accepted offered
  exact nomatch answer.symm.trans struck

end Peer.IsPipe

namespace TransportCall

/-- A call that a pipe of this room carries out before its shutdown. -/
def Fits (room : Nat) : TransportCall → Prop
  | .wrote count => count ≤ room
  | .flushed => True
  | _ => False

/-- Calls that bring so many octets into a pipe of this room. Nothing is called behind the shutdown. -/
inductive Brings (room : Nat) : List TransportCall → Nat → Prop
  | none : Brings room [] 0
  | shut : Brings room [.shut] 0
  | flushed {calls : List TransportCall} {total : Nat} (rest : Brings room calls total) :
      Brings room (.flushed :: calls) total
  | wrote {calls : List TransportCall} {count total : Nat} (fits : count ≤ room)
      (rest : Brings room calls total) : Brings room (.wrote count :: calls) (count + total)

section Brings

variable {room total : Nat} {calls : List TransportCall}

theorem Brings.at_end : Brings room [] total → total = 0
  | .none => rfl

theorem Brings.after_wrote {count : Nat} :
    Brings room (.wrote count :: calls) total →
      count ≤ room ∧ ∃ rest, total = count + rest ∧ Brings room calls rest
  | .wrote fits rest => ⟨fits, _, rfl, rest⟩

theorem Brings.after_flushed : Brings room (.flushed :: calls) total → Brings room calls total
  | .flushed rest => rest

theorem Brings.after_shut : Brings room (.shut :: calls) total → calls = [] ∧ total = 0
  | .shut => ⟨rfl, rfl⟩

end Brings

theorem Brings.behind {room total : Nat} {front calls : List TransportCall}
    (fits : ∀ call ∈ front, call.Fits room) (rest : Brings room calls total) :
    Brings room (front ++ calls) ((front.map taken).sum + total) := by
  induction front with
  | nil => simpa using rest
  | cons call front ih =>
    have more := ih fun other member => fits other (List.mem_cons_of_mem _ member)
    rw [List.cons_append, List.map_cons, List.sum_cons, Nat.add_assoc]
    cases call with
    | wrote count => exact .wrote (fits _ List.mem_cons_self) more
    | flushed =>
      rw [show taken .flushed = 0 from rfl, Nat.zero_add]
      exact .flushed more
    | writeFailed | flushFailed | shut | shutFailed => exact (fits _ List.mem_cons_self).elim

end TransportCall

open TransportCall

namespace Transport

/-- A pipe that has carried out every call so far, and what it took adds up. -/
structure Metered (room : Nat) (t : Transport) : Prop where
  pipe : t.peer.IsPipe room
  fits : ∀ call ∈ t.called, call.Fits room
  total : (t.called.map taken).sum = t.accepted.size

variable {room : Nat}

theorem Metered.more {t after : Transport} {call : TransportCall} (metered : t.Metered room)
    (peer : after.peer = t.peer) (noted : after.called = t.called ++ [call])
    (fits : call.Fits room) (size : after.accepted.size = t.accepted.size + call.taken) :
    after.Metered room where
  pipe := peer ▸ metered.pipe
  fits other member := by
    rw [noted] at member
    rcases List.mem_append.mp member with earlier | last
    · exact metered.fits other earlier
    · cases List.mem_singleton.mp last
      exact fits
  total := by
    rw [noted, List.map_append, List.sum_append, metered.total, size, List.map_singleton,
      List.sum_singleton]

theorem write_metered (t : Transport) (block : Octets) (metered : t.Metered room) :
    (t.write block.length block).1.Metered room := by
  obtain ⟨count, most, answer, -⟩ :=
    metered.pipe.takes (t.writes + 1) t.accepted.size block.length
  have fits : Fits room (.wrote (block.take count).length) := (List.length_take_le ..).trans most
  rw [write_of_accept answer]
  refine metered.more rfl Array.toList_push fits ?_
  rw [← Array.length_toList, took_accepted, List.length_append, Array.length_toList, taken]

theorem flush_metered (t : Transport) (metered : t.Metered room) : t.flush.1.Metered room := by
  rw [flush, metered.pipe.flushes]
  exact metered.more rfl Array.toList_push trivial rfl

end Transport

namespace Outlet

/-- The way into a pipe, before the shutdown. -/
structure Piped (room : Nat) (o : Outlet) : Prop where
  whole : o.broken = false
  metered : o.transport.Metered room

namespace Piped

variable {room : Nat} {o : Outlet}

theorem healthy (piped : o.Piped room) : o.Healthy := ⟨piped.whole, piped.metered.pipe.takes_all⟩

theorem send_ends (block : Octets) (piped : o.Piped room) :
    (send block).Ends o fun _ after => after.Piped room ∧ after.arrived = o.arrived ++ block := by
  obtain ⟨_, after, ran, healthy, arrived⟩ := Outlet.send_ends block o piped.healthy
  have metered := send_keeps Transport.write_metered block o piped.metered
  rw [ran] at metered
  exact ⟨_, after, ran, ⟨healthy.whole, metered⟩, arrived⟩

theorem flush_ends (piped : o.Piped room) :
    flush.Ends o fun _ after => after.Piped room ∧ after.arrived = o.arrived := by
  obtain ⟨_, after, ran, healthy, arrived⟩ := Outlet.flush_ends o piped.healthy
  have metered := flush_keeps Transport.flush_metered o piped.metered
  rw [ran] at metered
  exact ⟨_, after, ran, ⟨healthy.whole, metered⟩, arrived⟩

theorem shutdown_ends (piped : o.Piped room) :
    shutdown.Ends o fun _ after => after.arrived = o.arrived ∧
      after.transport.called = o.transport.called ++ [.shut] := by
  refine ⟨(), _, shutdown_of_whole piped.whole, ?_⟩
  rw [Transport.shutdown, piped.metered.pipe.shuts]
  exact ⟨rfl, Array.toList_push⟩

end Piped
end Outlet

namespace Writer

theorem piped_upkeep (room : Nat) : Upkeep fun _ w => w.outlet.Piped room where
  tell _ _ _ piped := ⟨piped.whole, piped.metered⟩
  note _ _ _ _ piped := ⟨piped.whole, piped.metered⟩
  opened _ _ _ _ piped := piped
  changed _ _ _ _ _ _ piped := piped
  pump _ := pump_maintains
    (fun block _ piped => (piped.send_ends block).weaken fun _ _ sent => sent.1)
    fun _ piped => piped.flush_ends.weaken fun _ _ flushed => flushed.1

/-- A settled writer whose outlet leads into a pipe. -/
def Streams (room : Nat) (b : Boundary) (w : Writer) : Prop := w.Settled b ∧ w.outlet.Piped room

theorem streams_upkeep (room : Nat) (b : Boundary) : Upkeep fun _ w => w.Streams room b :=
  (settled_upkeep b).and (piped_upkeep room)

theorem start_streams {room : Nat} {peer : Peer} (pipe : peer.IsPipe room) (b : Boundary)
    (chunkSize : Nat) : (Writer.start peer b chunkSize).Streams room b :=
  ⟨start_settled pipe.never_panics b chunkSize, rfl, pipe, nofun, rfl⟩

/-- The terminator is sent, flushed and followed by the shutdown. -/
theorem finish_streams {room : Nat} {b : Boundary} {w : Writer} (streams : w.Streams room b) :
    finish.Ends w fun _ after =>
      ∃ front, after.outlet.arrived = front ++ Octets.ofText b.terminator ∧
        Brings room after.outlet.transport.called after.outlet.arrived.length := by
  apply ends_modify_bind
  apply ((streams_upkeep room b).pump [] _ ⟨streams.1.closedAll, streams.2⟩).bind
  rintro _ pumped ⟨settled, piped⟩
  apply ends_get_bind
  rw [settled.boundary]
  have sent : (Writer.send (Octets.ofText b.terminator)).Ends pumped _ := (piped.send_ends _).within
  apply sent.bind
  rintro _ _ ⟨written, ⟨piped, arrived⟩, rfl⟩
  have flushed : Writer.flush.Ends { pumped with outlet := written } _ := piped.flush_ends.within
  apply flushed.bind
  rintro _ _ ⟨last, ⟨piped, same⟩, rfl⟩
  apply piped.shutdown_ends.within.weaken
  rintro _ _ ⟨o, ⟨still, shut⟩, rfl⟩
  refine ⟨pumped.outlet.arrived, ?_, ?_⟩
  · show o.arrived = _
    rw [still, same, arrived]
  · show Brings room o.transport.called o.arrived.length
    -- all calls but the last one fit, and what they took is what has arrived
    have brings := Brings.shut.behind piped.metered.fits
    rwa [piped.metered.total, ← shut, Nat.add_zero, ← Array.length_toList, ← Outlet.arrived,
      ← still] at brings

end Writer

namespace Batch

variable {ω : Type}

/-- The task returned, and the terminator is the last that it delivered. -/
def Completes (b : Boundary) (outcome : Outcome (Session ω) Unit) : Prop :=
  ∃ after, outcome = .done () after ∧
    ∃ front, after.delivered = front ++ Octets.ofText b.terminator

/-- What comes of a task that writes into a pipe: its calls bring all that arrives, and it completes the
response unless there is a fault. -/
structure Sends (room : Nat) (b : Boundary) (fault : Prop) (outcome : Outcome (Session ω) Unit) :
    Prop where
  brings : Brings room outcome.state.calls outcome.state.delivered.length
  completes : Completes b outcome ∨ fault

variable {room : Nat} {b : Boundary} {fault : Prop} {middle : Session ω}

theorem panicked_sends (p : Panic) (piped : middle.desk.writer.outlet.Piped room) (struck : fault) :
    Sends room b fault (.panicked p middle) where
  brings := by
    have brings := Brings.none.behind piped.metered.fits
    rwa [List.append_nil, piped.metered.total] at brings
  completes := .inr struck

theorem finish_sends (streams : middle.desk.writer.Streams room b) :
    Sends room b fault (Session.atWriter Writer.finish middle) := by
  obtain ⟨_, after, ran, w, ⟨front, arrived, brings⟩, rfl⟩ :=
    Session.atWriter_ends Writer.finish middle _ (Writer.finish_streams streams)
  rw [ran]
  exact ⟨brings, .inl ⟨_, rfl, front, arrived⟩⟩

variable {peer : Peer}

theorem run_sends (pipe : peer.IsPipe room) (setting : Setting ω) (world : ω) (body : Octets)
    (info : RequestInfo) (b : Boundary) :
    Sends room b (∃ p, (account setting world body info).closing.outcome = .error p)
      (run setting world body info peer b) := by
  obtain ⟨turns, -, -, middle, streams, -, -, ran⟩ := run_upkeep (Writer.streams_upkeep room b)
    setting world body info peer b (Writer.start_streams pipe b _)
  obtain ⟨after, came, -⟩ := run_comes setting world body info peer b pipe.takes_all
  rw [ran] at came ⊢
  cases ended : (accountOf setting world body info turns).closing.outcome with
  | ok _ => exact finish_sends streams
  | error p =>
    rw [ended] at came
    -- a pipe takes everything, so the hook panics where all turns are whole
    cases closed : (account setting world body info).closing.outcome with
    | ok _ =>
      rw [closed] at came
      cases came
    | error q => exact panicked_sends p streams.2 ⟨q, rfl⟩

theorem reject_sends (pipe : peer.IsPipe room) (setting : Setting ω) (world : ω) (r : Rejection)
    (b : Boundary) : Sends room b fault (reject setting world r peer b) := by
  obtain ⟨middle, streams, -, -, ran⟩ := reject_upkeep (Writer.streams_upkeep room b) setting world r
    peer b (Writer.start_streams pipe b _)
  rw [ran]
  exact finish_sends streams

end Batch

/-! The same octets arrive at every peer that takes all of them, in whatever pieces. -/

/-- Two outlets that are sound, at which the same has arrived. -/
structure Outlet.Even (o p : Outlet) : Prop where
  left : o.Healthy
  right : p.Healthy
  same : o.arrived = p.arrived

theorem Outlet.coupled_even {m : Action Outlet Unit} (block : Octets)
    (ends : ∀ o : Outlet, o.Healthy →
      m.Ends o fun _ after => after.Healthy ∧ after.arrived = o.arrived ++ block) :
    Coupled Even (fun _ _ => False) m m where
  both o p even := by
    obtain ⟨_, first, ran, sound, arrived⟩ := ends o even.left
    obtain ⟨_, second, went, soundToo, arrivedToo⟩ := ends p even.right
    rw [ran, went]
    exact .together ⟨sound, soundToo, by rw [arrived, arrivedToo, even.same]⟩
  left _ _ := False.elim
  right _ _ := False.elim

def Coupling.even : Coupling where
  together := Outlet.Even
  apart _ _ := False
  broken _ _ even := even.left.whole.trans even.right.whole.symm
  recordLeft _ _ _ even := ⟨⟨even.left.whole, even.left.takesAll⟩, even.right, even.same⟩
  recordRight _ _ _ even := ⟨even.left, ⟨even.right.whole, even.right.takesAll⟩, even.same⟩
  recordLeftApart _ _ _ := False.elim
  recordRightApart _ _ _ := False.elim
  send block := Outlet.coupled_even block (Outlet.send_ends block)
  flush := Outlet.coupled_even [] (by simpa only [List.append_nil] using Outlet.flush_ends)
  shutdown := Outlet.coupled_even [] (by simpa only [List.append_nil] using Outlet.shutdown_healthy)

namespace Http

variable {ω : Type} {room : Nat} {peer fellow : Peer} (setting : Setting ω) (world : ω)
  (server : Server) (boundary : Boundary) (r : Request)

/-- The task completes its response unless a close hook of the batch panics. -/
theorem task_sends (pipe : peer.IsPipe room) :
    Batch.Sends room boundary
      (r.body.length ≤ server.maxBodyBytes ∧ ∃ p, (Batch.account setting world r.body
        (r.headers.requestInfo server.assumeSecure)).closing.outcome = .error p)
      (task setting world server boundary r peer) := by
  rw [task, receive]
  by_cases long : server.maxBodyBytes < r.body.length
  · rw [if_pos long]
    exact Batch.reject_sends pipe setting world _ boundary
  · rw [if_neg long]
    have sends := Batch.run_sends pipe setting world r.body
      (r.headers.requestInfo server.assumeSecure) boundary
    exact ⟨sends.brings, sends.completes.imp_right (.intro (Nat.not_lt.mp long))⟩

/-- Nothing is cut short where every sequence comes to its end. -/
theorem task_exhausted (takesAll : peer.TakesAll)
    (finite : ∀ report ∈ (Batch.account setting world r.body
      (r.headers.requestInfo server.assumeSecure)).reports, report.result.isFinite = true) :
    (task setting world server boundary r peer).state.exhausted = false := by
  rw [task, receive]
  by_cases long : server.maxBodyBytes < r.body.length
  · rw [if_pos long]
    exact Session.refuse_leaves_exhausted _ _ (.start setting world peer boundary)
  · rw [if_neg long]
    obtain ⟨after, ran, -, -, -, whole⟩ := Batch.run_comes setting world r.body
      (r.headers.requestInfo server.assumeSecure) peer boundary takesAll
    dsimp only
    rw [ran, Outcome.state_of]
    exact whole finite

theorem task_even (left : peer.TakesAll) (right : fellow.TakesAll) :
    (task setting world server boundary r peer).Alike (fun s t => s.delivered = t.delivered)
      (fun _ _ => True) (fun _ _ => True) (task setting world server boundary r fellow) := by
  have transports : Coupling.even.together ⟨.start peer, false, 0, #[]⟩
      ⟨.start fellow, false, 0, #[]⟩ := ⟨⟨rfl, left⟩, ⟨rfl, right⟩, rfl⟩
  have alike : (task setting world server boundary r peer).Alike
      (Session.Alike Coupling.even (· = ·)) (fun _ _ => True) (Panic.Alike setting.settings.debug)
      (task setting world server boundary r fellow) := by
    rw [task, task]
    -- neither side can see how much of a write its peer takes at once
    cases receive server.maxBodyBytes r.body with
    | ok body =>
      exact Batch.run_alike (fun _ _ => id) (.refl setting) rfl transports body _ boundary
    | error rejection =>
      exact Session.refuse_matches rejection _ _ ⟨.inl ⟨_, ⟨_, transports, rfl⟩, rfl⟩, rfl, rfl⟩
  refine alike.weaken ?_ (fun _ _ same => same) fun _ _ _ => trivial
  rintro s t ⟨⟨w, ⟨o, even, rfl⟩, desk⟩ | ⟨⟨⟩⟩, -, -⟩
  rw [Session.delivered, Session.delivered, desk]
  exact even.same

end Http
end Multicall
