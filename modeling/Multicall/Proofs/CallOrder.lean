import Mathlib.Algebra.GroupWithZero.Nat
import Mathlib.Data.List.Chain
import Multicall.Proofs.Upkeep
/-!
In what order a transport is called. Writes come in rounds that a flush ends, so that what is sent
arrives; the terminator is a round of its own, and the shutdown follows its flush. A call that fails is
the last one but for the shutdown, wherever in a round it stands.
-/
namespace Multicall

open Multicall.Action

namespace TransportCall

/-- What a call asks of the transport. -/
inductive Kind
  | write
  | flush
  | shutdown
  deriving DecidableEq, Repr

def kind : TransportCall → Kind
  | .wrote _ | .writeFailed => .write
  | .flushed | .flushFailed => .flush
  | .shut | .shutFailed => .shutdown

/-- A write that takes nothing has failed like one that is refused. -/
def fails : TransportCall → Bool
  | .wrote count => count == 0
  | .writeFailed | .flushFailed | .shutFailed => true
  | .flushed | .shut => false

/-- How much was taken. -/
def taken : TransportCall → Nat
  | .wrote count => count
  | _ => 0

/-- Any number of rounds, each of one write or more and one flush. -/
inductive Rounds : List Kind → Prop
  | none : Rounds []
  | more {kinds : List Kind} (writes : Nat) (before : Rounds kinds) :
      Rounds (kinds ++ List.replicate (writes + 1) .write ++ [.flush])

/-- No two flushes next to each other. -/
def Apart (kinds : List Kind) : Prop := kinds.IsChain fun one next => one = .flush → next ≠ .flush

theorem Apart.snoc {kinds : List Kind} {last : Kind} (apart : Apart kinds)
    (differs : last = .flush → kinds.getLast? ≠ some .flush) : Apart (kinds ++ [last]) := by
  refine List.isChain_append.mpr ⟨apart, .singleton _, ?_⟩
  rintro one ends next first rfl
  cases Option.some.inj (first : some last = some next)
  exact fun same => differs same ends

/-- The kinds of calls of a whole response: rounds, of which the last one is followed by the
shutdown. -/
def IsResponse (kinds : List Kind) : Prop :=
  ∃ before writes, Rounds before ∧
    kinds = before ++ List.replicate (writes + 1) .write ++ [.flush, .shutdown]

/-- Calls that end a response: the writes of the last round take so many octets, and what comes of the
shutdown is left open. -/
def Finish (length : Nat) (calls : List TransportCall) : Prop :=
  ∃ before writes last, calls = before ++ writes ++ [.flushed, last] ∧ Rounds (before.map kind) ∧
    writes ≠ [] ∧ (∀ call ∈ writes, call.kind = .write) ∧ (writes.map taken).sum = length ∧
    last.kind = .shutdown

/-- Calls in the order of a response. If none of them fails before the shutdown, they are as `whole`
says; one that fails is the last, and no shutdown is asked for. -/
structure InOrder (whole : List TransportCall → Prop) (calls : List TransportCall) : Prop where
  sound : (∀ call ∈ calls, call.fails = true → call.kind = .shutdown) → whole calls
  cut : ∀ before failing after, calls = before ++ failing :: after → failing.fails = true →
    failing.kind ≠ .shutdown →
    after = [] ∧ (∃ rest, IsResponse (calls.map kind ++ rest)) ∧ .shutdown ∉ calls.map kind
  apart : Apart (calls.map kind)

/-- A write that takes something. -/
def Takes (call : TransportCall) : Prop := ∃ count, call = .wrote (count + 1)

/-- Calls none of which fails or is a shutdown; the flag says whether a flush is due. -/
inductive Smooth : Bool → List TransportCall → Prop
  | start : Smooth false []
  | wrote {due : Bool} {calls : List TransportCall} (count : Nat) (before : Smooth due calls) :
      Smooth true (calls ++ [.wrote (count + 1)])
  | flushed {calls : List TransportCall} (before : Smooth true calls) :
      Smooth false (calls ++ [.flushed])

/-- Calls of which only the last one has failed. -/
inductive Cut : List TransportCall → Prop
  | writing {due : Bool} {calls : List TransportCall} {failing : TransportCall}
      (before : Smooth due calls) (kind : failing.kind = .write) (fails : failing.fails = true) :
      Cut (calls ++ [failing])
  | flushing {calls : List TransportCall} (before : Smooth true calls) :
      Cut (calls ++ [.flushFailed])

variable {due : Bool} {calls : List TransportCall}

namespace Smooth

theorem sound (smooth : Smooth due calls) {call : TransportCall} (member : call ∈ calls) :
    call.fails = false ∧ call.kind ≠ .shutdown := by
  induction smooth with
  | start => exact nomatch member
  | wrote count before ih =>
    rcases List.mem_append.mp member with earlier | last
    · exact ih earlier
    · cases List.mem_singleton.mp last
      exact ⟨rfl, nofun⟩
  | flushed before ih =>
    rcases List.mem_append.mp member with earlier | last
    · exact ih earlier
    · cases List.mem_singleton.mp last
      exact ⟨rfl, nofun⟩

theorem no_shutdown (smooth : Smooth due calls) : Kind.shutdown ∉ calls.map kind := by
  intro member
  obtain ⟨call, among, same⟩ := List.mem_map.mp member
  exact (smooth.sound among).2 same

/-- Rounds, and the writes that a flush is due for. -/
theorem rounds (smooth : Smooth due calls) :
    ∃ before writes, Rounds before ∧ calls.map kind = before ++ List.replicate writes .write ∧
      (due = true → 0 < writes) ∧ (due = false → writes = 0) := by
  induction smooth with
  | start => exact ⟨[], 0, .none, rfl, nofun, fun _ => rfl⟩
  | wrote count before ih =>
    obtain ⟨rounds, writes, are, kinds, -⟩ := ih
    refine ⟨rounds, writes + 1, are, ?_, fun _ => by omega, nofun⟩
    rw [List.map_append, kinds, List.replicate_succ', List.append_assoc]
    rfl
  | flushed before ih =>
    obtain ⟨rounds, writes, are, kinds, some, -⟩ := ih
    obtain ⟨writes, rfl⟩ := Nat.exists_eq_add_one.mpr (some rfl)
    refine ⟨_, 0, .more writes are, ?_, nofun, fun _ => rfl⟩
    rw [List.map_append, kinds, List.replicate_zero, List.append_nil]
    rfl

theorem are_rounds (smooth : Smooth false calls) : Rounds (calls.map kind) := by
  obtain ⟨before, writes, are, kinds, -, none⟩ := smooth.rounds
  rwa [kinds, none rfl, List.replicate_zero, List.append_nil]

/-- Two flushes are never next to each other, since one is made only where it is due. -/
theorem apart (smooth : Smooth due calls) :
    Apart (calls.map kind) ∧ (due = true → (calls.map kind).getLast? ≠ some .flush) := by
  induction smooth with
  | start => exact ⟨.nil, nofun⟩
  | wrote count before ih =>
    rw [List.map_append]
    exact ⟨ih.1.snoc nofun, fun _ => by simp [kind]⟩
  | flushed before ih =>
    rw [List.map_append]
    exact ⟨ih.1.snoc fun _ => ih.2 rfl, nofun⟩

/-- More writes that all take something. -/
theorem writes (smooth : Smooth due calls) {writes : List TransportCall}
    (take : ∀ call ∈ writes, call.Takes) (some : writes ≠ []) : Smooth true (calls ++ writes) := by
  induction writes generalizing due calls with
  | nil => exact absurd rfl some
  | cons call rest ih =>
    obtain ⟨count, rfl⟩ := take call List.mem_cons_self
    have grown := smooth.wrote count
    rw [List.append_cons]
    cases rest with
    | nil => rwa [List.append_nil]
    | cons next rest =>
      exact ih grown (fun other member => take other (List.mem_cons_of_mem _ member))
        (List.cons_ne_nil _ _)

theorem inOrder (smooth : Smooth false calls) :
    InOrder (fun calls => Rounds (calls.map kind)) calls where
  sound _ := smooth.are_rounds
  cut before failing after same fails := by
    have member : failing ∈ calls := same ▸ List.mem_append_right _ List.mem_cons_self
    rw [(smooth.sound member).1] at fails
    cases fails
  apart := smooth.apart.1

end Smooth

/-- Behind sound calls, only the last one can have failed. -/
theorem last_of_sound {calls before after : List TransportCall} {last failing : TransportCall}
    (sound : ∀ call ∈ calls, call.fails = false) (same : calls ++ [last] = before ++ failing :: after)
    (fails : failing.fails = true) : after = [] := by
  rcases List.eq_nil_or_concat after with none | ⟨earlier, final, rfl⟩
  · exact none
  · rw [List.concat_eq_append, ← List.cons_append, ← List.append_assoc] at same
    have among : failing ∈ calls := by
      rw [(List.append_inj' same rfl).1]
      simp
    rw [sound failing among] at fails
    cases fails

namespace Cut

theorem not_sound (cut : Cut calls) :
    ¬ ∀ call ∈ calls, call.fails = true → call.kind = .shutdown := by
  intro sound
  cases cut with
  | writing before kind fails => exact nomatch kind.symm.trans (sound _ (by simp) fails)
  | flushing before => exact nomatch sound .flushFailed (by simp) rfl

/-- What was called is the beginning of a response. -/
theorem begins (cut : Cut calls) : ∃ rest, IsResponse (calls.map kind ++ rest) := by
  cases cut with
  | writing before kind fails =>
    obtain ⟨rounds, writes, are, kinds, -⟩ := before.rounds
    refine ⟨[.flush, .shutdown], rounds, writes, are, ?_⟩
    simp only [List.map_append, kinds, List.map_singleton, kind, List.replicate_succ',
      List.append_assoc]
  | flushing before =>
    obtain ⟨rounds, writes, are, kinds, some, -⟩ := before.rounds
    obtain ⟨writes, rfl⟩ := Nat.exists_eq_add_one.mpr (some rfl)
    refine ⟨[.shutdown], rounds, writes, are, ?_⟩
    rw [List.map_append, kinds, List.append_assoc]
    rfl

theorem inOrder (cut : Cut calls) (whole : List TransportCall → Prop) : InOrder whole calls where
  sound sound := absurd sound cut.not_sound
  cut before failing after same fails _ := by
    refine ⟨?_, cut.begins, ?_⟩
    · cases cut with
      | writing smooth => exact last_of_sound (fun call among => (smooth.sound among).1) same fails
      | flushing smooth => exact last_of_sound (fun call among => (smooth.sound among).1) same fails
    · cases cut with
      | writing smooth kind => simp [smooth.no_shutdown, kind]
      | flushing smooth => simp [smooth.no_shutdown, kind]
  apart := by
    cases cut with
    | writing smooth kind =>
      rw [List.map_append, List.map_singleton, kind]
      exact smooth.apart.1.snoc nofun
    | flushing smooth =>
      rw [List.map_append]
      exact smooth.apart.1.snoc fun _ => smooth.apart.2 rfl

end Cut

/-- A last round and the shutdown, behind calls that did not fail. -/
theorem finish_inOrder {writes : List TransportCall} {last : TransportCall} {length : Nat}
    (smooth : Smooth false calls) (take : ∀ call ∈ writes, call.Takes) (some : writes ≠ [])
    (total : (writes.map taken).sum = length) (shutdown : last.kind = .shutdown) :
    InOrder (Finish length) (calls ++ writes ++ [.flushed, last]) := by
  have flushed : Smooth false (calls ++ writes ++ [.flushed]) := (smooth.writes take some).flushed
  have split : calls ++ writes ++ [.flushed, last] = calls ++ writes ++ [.flushed] ++ [last] := by
    simp
  refine ⟨fun _ => ⟨calls, writes, last, rfl, smooth.are_rounds, some, ?_, total, shutdown⟩, ?_, ?_⟩
  · intro call member
    obtain ⟨count, rfl⟩ := take call member
    rfl
  · intro before failing after same fails other
    rw [split] at same
    have member : failing ∈ calls ++ writes ++ [.flushed] ++ [last] := same ▸ by simp
    rcases List.mem_append.mp member with earlier | isLast
    · rw [(flushed.sound earlier).1] at fails
      cases fails
    · cases List.mem_singleton.mp isLast
      exact absurd shutdown other
  · rw [split, List.map_append, List.map_singleton, shutdown]
    exact flushed.apart.1.snoc nofun

end TransportCall

namespace Transport

def called (t : Transport) : List TransportCall := t.calls.toList

/-- So much of a block is left; the calls since the start have taken what is in front of that. -/
structure Tallied (block : Octets) (start : Transport) (left : Octets) (t : Transport) : Prop where
  samePeer : t.peer = start.peer
  noted : ∃ writes, (∀ call ∈ writes, TransportCall.Takes call) ∧ t.called = start.called ++ writes ∧
    (writes.map TransportCall.taken).sum + left.length = block.length

theorem Tallied.step {block left : Octets} {start t : Transport} (tallied : Tallied block start left t)
    (some : left ≠ []) (count : Nat) :
    Tallied block start (left.drop (count + 1)) (t.took (left.take (count + 1))) := by
  obtain ⟨samePeer, writes, take, noted, total⟩ := tallied
  have positive := List.length_pos_iff.mpr some
  have took : (left.take (count + 1)).length = min count (left.length - 1) + 1 := by
    rw [List.length_take]
    omega
  refine ⟨samePeer, writes ++ [.wrote (left.take (count + 1)).length], ?_, ?_, ?_⟩
  · rw [List.forall_mem_append, List.forall_mem_singleton, took]
    exact ⟨take, _, rfl⟩
  · rw [← List.append_assoc, ← noted]
    exact Array.toList_push
  · simp only [List.map_append, List.sum_append, List.map_singleton, List.sum_singleton,
      TransportCall.taken, List.length_drop, took]
    omega

/-- A block is written in calls that take all of it, or one of them fails and is the last. -/
theorem writeAll_called (block : Octets) (t : Transport) (calm : t.peer.NeverPanics) :
    ∃ after writes, after.peer = t.peer ∧ (∀ call ∈ writes, TransportCall.Takes call) ∧
      ((t.writeAll block = (after, .complete) ∧ after.called = t.called ++ writes ∧
        (writes.map TransportCall.taken).sum = block.length) ∨
       (∃ reason failing, t.writeAll block = (after, .failed reason) ∧
        failing.kind = .write ∧ failing.fails = true ∧
        after.called = t.called ++ writes ++ [failing])) := by
  rcases writeAll_rule (Tallied block t) (fun _ _ count some tallied _ => tallied.step some count)
    block t ⟨rfl, [], nofun, by simp, by simp⟩ with
    ⟨after, complete, samePeer, writes, take, noted, total⟩ |
    ⟨left, last, after, _, -, ⟨samePeer, writes, take, noted, -⟩, stops, ended⟩
  · exact ⟨after, writes, samePeer, take, .inl ⟨complete, noted, total⟩⟩
  · refine ⟨after, writes, ?_⟩
    rw [← noted, ← samePeer]
    cases stops with
    | nothing => exact ⟨rfl, take, .inr ⟨_, .wrote 0, ended, rfl, rfl, Array.toList_push⟩⟩
    | refused => exact ⟨rfl, take, .inr ⟨_, .writeFailed, ended, rfl, rfl, Array.toList_push⟩⟩
    | struck answer =>
      rw [samePeer] at answer
      exact absurd answer (calm _ _ _ _)

end Transport

open TransportCall

namespace Outlet

/-- The transport has been called in order so far, and no shutdown was asked for. -/
structure Called (due : Bool) (o : Outlet) : Prop where
  calm : o.Calm
  whole : o.broken = false → Smooth due o.transport.called
  gone : o.broken = true → Cut o.transport.called

variable {due : Bool} {o : Outlet}

/-- Nothing is called any more once a call has failed, so nothing is due either. -/
theorem Called.spent (called : o.Called due) (gone : o.broken = true) (other : Bool) :
    o.Called other :=
  ⟨called.calm, fun whole => (nomatch gone.symm.trans whole), called.gone⟩

/-- A block that is not empty calls for a flush. -/
theorem send_called {block : Octets} (some : block ≠ []) (called : o.Called due) :
    (send block).Ends o fun _ after => after.Called true ∧ (after.broken = false →
      o.broken = false ∧ ∃ writes, writes ≠ [] ∧ (∀ call ∈ writes, call.Takes) ∧
        (writes.map taken).sum = block.length ∧
        after.transport.called = o.transport.called ++ writes) := by
  cases gone : o.broken with
  | true =>
    exact ⟨(), o, send_of_broken gone block, called.spent gone true,
      fun whole => nomatch gone.symm.trans whole⟩
  | false =>
    have smooth := called.whole gone
    obtain ⟨after, writes, samePeer, take, ended⟩ :=
      Transport.writeAll_called block o.transport called.calm
    have calm : after.peer.NeverPanics := samePeer ▸ called.calm
    rcases ended with ⟨complete, noted, total⟩ | ⟨reason, failing, failed, kind, fails, noted⟩
    · have wrote : writes ≠ [] := by
        rintro rfl
        exact some (List.eq_nil_of_length_eq_zero total.symm)
      refine ⟨(), _, send_of_complete gone complete,
        ⟨calm, fun _ => noted ▸ smooth.writes take wrote, fun broken => ?_⟩,
        fun _ => ⟨rfl, writes, wrote, take, total, noted⟩⟩
      exact nomatch gone.symm.trans broken
    · refine ⟨(), _, send_of_failed gone failed, ⟨calm, nofun, fun _ => ?_⟩, nofun⟩
      show Cut after.called
      rw [noted]
      by_cases none : writes = []
      · rw [none, List.append_nil]
        exact .writing smooth kind fails
      · exact .writing (smooth.writes take none) kind fails

/-- A flush that is due leaves nothing due. -/
theorem flush_called (called : o.Called true) :
    flush.Ends o fun _ after => after.Called false ∧ (after.broken = false →
      o.broken = false ∧ after.transport.called = o.transport.called ++ [.flushed]) := by
  cases gone : o.broken with
  | true =>
    exact ⟨(), o, flush_of_broken gone, called.spent gone false,
      fun whole => nomatch gone.symm.trans whole⟩
  | false =>
    have smooth := called.whole gone
    have noted (call : TransportCall) :
        (o.transport.flushedAs call).called = o.transport.called ++ [call] := Array.toList_push
    cases answer : o.transport.peer.onFlush (o.transport.flushes + 1) with
    | ok done =>
      refine ⟨(), _, flush_of_ok gone (Transport.flush_of_ok answer),
        ⟨called.calm, fun _ => noted _ ▸ smooth.flushed, fun broken => ?_⟩,
        fun _ => ⟨rfl, noted _⟩⟩
      exact nomatch gone.symm.trans broken
    | error reason =>
      exact ⟨(), _, flush_of_error gone (Transport.flush_of_error answer),
        ⟨called.calm, nofun, fun _ => noted _ ▸ .flushing smooth⟩, nofun⟩

theorem shutdown_called (o : Outlet) :
    shutdown.Ends o fun _ after => after.broken = o.broken ∧
      if o.broken then after = o else
        ∃ last : TransportCall, last.kind = .shutdown ∧
          after.transport.called = o.transport.called ++ [last] := by
  cases gone : o.broken with
  | true => exact ⟨(), o, shutdown_of_broken gone, gone, rfl⟩
  | false =>
    refine ⟨(), _, shutdown_of_whole gone, gone, ?_⟩
    rw [if_neg Bool.false_ne_true, Transport.shutdown]
    split
    · exact ⟨.shut, rfl, Array.toList_push⟩
    · exact ⟨.shutFailed, rfl, Array.toList_push⟩

end Outlet

namespace Writer

variable {b : Boundary}

/-- What ends a part is never nothing, so the buffer of a closed part is not empty. -/
def Filled (parts : List Part) : Prop :=
  ∀ part ∈ parts, part.closed = true → part.buffer.toList ≠ []

/-- Between its operations a writer has nothing that a flush is due for. -/
structure Settled (b : Boundary) (w : Writer) : Prop where
  boundary : w.boundary = b
  called : w.outlet.Called false
  chunk : 0 < w.chunkSize
  filled : Filled w.parts

/-- Whatever is released is not empty, and a flush is due if anything was. -/
theorem release_called (parts : List Part) (given : Bool) (w : Writer)
    (called : w.outlet.Called given) (chunk : 0 < w.chunkSize) (filled : Filled w.parts)
    (front : w.parts = parts) :
    (release w.chunkSize given parts).Ends w fun answer after =>
      after.outlet.Called answer ∧ after.chunkSize = w.chunkSize ∧
        after.boundary = w.boundary ∧ Filled after.parts := by
  induction parts generalizing given w with
  | nil => exact ends_pure _ _ _ ⟨called, rfl, rfl, filled⟩
  | cons head rest ih =>
    have restFilled : Filled rest := fun part member =>
      filled part (front ▸ List.mem_cons_of_mem _ member)
    rw [release]
    by_cases shut : head.closed = true
    · rw [if_pos shut]
      have some := filled head (front ▸ List.mem_cons_self) shut
      apply ends_modify_bind
      apply (Outlet.send_called some called).within.bind
      rintro _ _ ⟨o, ⟨called, -⟩, rfl⟩
      exact ih true { w with outlet := o, parts := rest } called chunk restFilled rfl
    · rw [if_neg shut]
      by_cases full : w.chunkSize ≤ head.buffer.size
      · rw [if_pos full]
        have some : head.buffer.toList ≠ [] := by
          rw [← List.length_pos_iff, Array.length_toList]
          omega
        apply ends_modify_bind
        apply (Outlet.send_called some called).within.bind
        rintro _ _ ⟨o, ⟨called, -⟩, rfl⟩
        refine ends_pure _ _ _ ⟨called, rfl, rfl, ?_⟩
        rintro part (_ | ⟨_, member⟩) closed
        · exact absurd closed shut
        · exact restFilled part member closed
      · rw [if_neg full]
        exact ends_pure _ _ _ ⟨called, rfl, rfl, filled⟩

theorem pump_settled (w : Writer) (settled : w.Settled b) :
    pump.Ends w fun _ after => after.Settled b := by
  refine ends_get_bind _ _ _ ((release_called w.parts false w settled.called settled.chunk
    settled.filled rfl).bind ?_)
  rintro given released ⟨called, same, boundary, filled⟩
  have chunk : 0 < released.chunkSize := same ▸ settled.chunk
  cases given with
  | false => exact ends_pure _ _ _ ⟨boundary.trans settled.boundary, called, chunk, filled⟩
  | true =>
    have flushed : Writer.flush.Ends released _ := (Outlet.flush_called called).within
    apply flushed.weaken
    rintro _ _ ⟨o, ⟨called, -⟩, rfl⟩
    exact ⟨boundary.trans settled.boundary, called, chunk, filled⟩

theorem append_filled (handle : Nat) (bytes : Octets) (close : Bool)
    (some : close = true → bytes ≠ []) (parts : List Part) (filled : Filled parts) :
    Filled (append handle bytes close parts).1 := by
  induction parts with
  | nil => exact filled
  | cons head rest ih =>
    obtain ⟨own, buffer, closed⟩ := head
    have restFilled : Filled rest := fun part member => filled part (List.mem_cons_of_mem _ member)
    rw [append]
    split
    · rintro part (_ | ⟨_, member⟩) shut
      · simpa using fun _ => some shut
      · exact restFilled part member shut
    · rintro part (_ | ⟨_, member⟩) shut
      · exact filled _ List.mem_cons_self shut
      · exact ih restFilled part member shut

theorem Settled.logged {w : Writer} (settled : w.Settled b) (e : Event) :
    (w.logging e).Settled b where
  boundary := settled.boundary
  called := ⟨settled.called.calm, settled.called.whole, settled.called.gone⟩
  chunk := settled.chunk
  filled := settled.filled

theorem settled_upkeep (b : Boundary) : Upkeep fun _ w => w.Settled b where
  tell e _ _ settled := settled.logged e
  note e _ _ _ settled := settled.logged e
  opened _ w part still settled := by
    refine ⟨settled.boundary, settled.called, settled.chunk, fun other member shut => ?_⟩
    rcases List.mem_append.mp member with old | new
    · exact settled.filled other old shut
    · cases List.mem_singleton.mp new
      exact nomatch still.symm.trans shut
  changed _ w handle bytes close some settled := ⟨settled.boundary, settled.called, settled.chunk,
    append_filled handle bytes close some w.parts settled.filled⟩
  pump _ := pump_settled

theorem start_settled {peer : Peer} (calm : peer.NeverPanics) (b : Boundary) (chunkSize : Nat) :
    (Writer.start peer b chunkSize).Settled b where
  boundary := rfl
  called := ⟨calm, fun _ => .start, nofun⟩
  chunk := by
    show 0 < max 1 chunkSize
    omega
  filled := nofun

theorem Settled.inOrder {w : Writer} (settled : w.Settled b) :
    InOrder (fun calls => Rounds (calls.map kind)) w.outlet.transport.called := by
  cases gone : w.outlet.broken with
  | false => exact (settled.called.whole gone).inOrder
  | true => exact (settled.called.gone gone).inOrder _

theorem Settled.closedAll {w : Writer} (settled : w.Settled b) :
    Settled b { w with parts := w.parts.map closed } := by
  refine ⟨settled.boundary, settled.called, settled.chunk, fun part member shut => ?_⟩
  obtain ⟨before, among, rfl⟩ := List.mem_map.mp member
  rw [closed] at shut ⊢
  split
  · next already => exact settled.filled before among already
  · simp [lineEnd]

/-- The end of a response: the terminator makes a round of its own, and the shutdown is asked for
behind its flush. -/
theorem finish_called {w : Writer} (settled : w.Settled b) :
    finish.Ends w fun _ after =>
      InOrder (Finish (Octets.ofText b.terminator).length) after.outlet.transport.called := by
  have some : Octets.ofText b.terminator ≠ [] := by
    rw [Boundary.terminator, Octets.ofText, String.toList_append, Octets.ofChars_append]
    exact List.append_ne_nil_of_right_ne_nil _ (by decide)
  apply ends_modify_bind
  apply (pump_settled _ settled.closedAll).bind
  rintro _ pumped settled
  apply ends_get_bind
  rw [settled.boundary]
  have sent : (Writer.send (Octets.ofText b.terminator)).Ends pumped _ :=
    (Outlet.send_called some settled.called).within
  apply sent.bind
  rintro _ _ ⟨written, ⟨called, wrote⟩, rfl⟩
  have flushed : Writer.flush.Ends { pumped with outlet := written } _ :=
    (Outlet.flush_called called).within
  apply flushed.bind
  rintro _ _ ⟨last, ⟨called, noted⟩, rfl⟩
  apply (Outlet.shutdown_called last).within.weaken
  rintro _ _ ⟨o, ⟨same, shut⟩, rfl⟩
  show InOrder _ o.transport.called
  -- a transport that has failed is asked for nothing more, so its calls end where they were
  cases gone : last.broken with
  | true =>
    rw [gone, if_pos rfl] at shut
    exact shut ▸ (called.gone gone).inOrder _
  | false =>
    rw [gone, if_neg Bool.false_ne_true] at shut
    obtain ⟨final, shutdown, asked⟩ := shut
    obtain ⟨whole, flushed⟩ := noted gone
    obtain ⟨sound, writes, nonempty, take, total, more⟩ := wrote whole
    have split : o.transport.called = pumped.outlet.transport.called ++ writes ++
        [.flushed, final] := by
      rw [asked, flushed, more]
      simp
    exact split ▸ finish_inOrder (settled.called.whole sound) take nonempty total shutdown

/-- What is asked of a writer until it is finished. -/
inductive Operation
  | openPart (mime : String)
  | write (handle : Nat) (bytes : Octets)
  | closePart (handle : Nat)

def perform : Operation → Action Writer Unit
  | .openPart mime => openPart mime >>= fun _ => pure ()
  | .write handle bytes => write handle bytes
  | .closePart handle => closePart handle

def performAll : List Operation → Action Writer Unit
  | [] => return ()
  | operation :: rest => do
      perform operation
      performAll rest

theorem perform_upkeep {holds : List Event → Writer → Prop} (upkeep : Upkeep holds)
    (operation : Operation) : (perform operation).Maintains (holds []) := by
  cases operation with
  | openPart mime => exact (@Upkeep.openPart _ [] upkeep mime).bind fun _ => maintains_pure ()
  | write handle bytes => exact @Upkeep.write _ [] upkeep handle bytes
  | closePart handle => exact @Upkeep.closePart _ [] upkeep handle

/-- What the writing of parts keeps up stands behind any series of operations. -/
theorem performAll_upkeep {holds : List Event → Writer → Prop} (upkeep : Upkeep holds)
    (operations : List Operation) : (performAll operations).Maintains (holds []) := by
  induction operations with
  | nil => exact maintains_pure ()
  | cons operation rest ih => exact (perform_upkeep upkeep operation).bind fun _ => ih

theorem performAll_settled (operations : List Operation) :
    (performAll operations).Maintains fun w => w.Settled b :=
  performAll_upkeep (settled_upkeep b) operations

end Writer

def Session.calls {ω : Type} (s : Session ω) : List TransportCall :=
  s.desk.writer.outlet.transport.called

namespace Batch

variable {ω : Type}

/-- The calls of a run and of a refusal, over any transport that never panics. They are rounds of
writes that a flush ends; the last round writes the terminator, and the shutdown follows it. Where a
call fails it is the last, the beginning of such a response ends with it, and neither write nor flush nor
shutdown is tried again; and two flushes are never next to each other. If a close hook panics, the calls
up to then are whole rounds, or end in the one that failed. The same is true behind any series of
writer operations: as long as the transport is there, nothing that was sent waits for a flush. -/
theorem transport_called_in_order {peer : Peer} (calm : peer.NeverPanics) (setting : Setting ω)
    (world : ω) (body : Octets) (info : RequestInfo) (boundary : Boundary) :
    (∃ turns, MayTake setting world body info turns ∧
      match (accountOf setting world body info turns).closing.outcome with
      | .ok _ => ∃ after, run setting world body info peer boundary = .done () after ∧
          InOrder (Finish (Octets.ofText boundary.terminator).length) after.calls
      | .error p => ∃ after, run setting world body info peer boundary = .panicked p after ∧
          InOrder (fun calls => Rounds (calls.map kind)) after.calls) ∧
    (∀ r, ∃ after, reject setting world r peer boundary = .done () after ∧
      InOrder (Finish (Octets.ofText boundary.terminator).length) after.calls) ∧
    ∀ chunkSize operations,
      (Writer.performAll operations).Ends (Writer.start peer boundary chunkSize) fun _ after =>
        InOrder (fun calls => Rounds (calls.map kind)) after.outlet.transport.called ∧
        (after.outlet.broken = false → Rounds (after.outlet.transport.called.map kind)) := by
  have begun (chunkSize : Nat) := Writer.start_settled calm boundary chunkSize
  have finished (middle : Session ω) (settled : middle.desk.writer.Settled boundary) :
      ∃ after, Session.atWriter Writer.finish middle = .done () after ∧
        InOrder (Finish (Octets.ofText boundary.terminator).length) after.calls := by
    obtain ⟨_, _, ran, w, inOrder, rfl⟩ :=
      Session.atWriter_ends Writer.finish middle _ (Writer.finish_called settled)
    exact ⟨_, ran, inOrder⟩
  refine ⟨?_, fun r => ?_, fun chunkSize operations => ?_⟩
  · obtain ⟨turns, may, -, middle, settled, -, -, ran⟩ := run_upkeep (Writer.settled_upkeep boundary)
      setting world body info peer boundary (begun _)
    refine ⟨turns, may, ?_⟩
    rw [ran]
    cases (accountOf setting world body info turns).closing.outcome with
    | ok _ => exact finished middle settled
    | error p => exact ⟨middle, rfl, settled.inOrder⟩
  · obtain ⟨middle, settled, -, -, ran⟩ := reject_upkeep (Writer.settled_upkeep boundary) setting
      world r peer boundary (begun _)
    rw [ran]
    exact finished middle settled
  · apply (Writer.performAll_settled operations _ (begun chunkSize)).weaken
    exact fun _ after settled =>
      ⟨settled.inOrder, fun whole => (settled.called.whole whole).are_rounds⟩

/-- A peer that takes twenty octets at a time and fails at the second flush. A run over it ends, and a
part that is written in three steps meets the failure when it closes. -/
theorem calls_end_at_failed_flush :
    (Peer.scripted ⟨none, none, some 20, some 2, none, false⟩).NeverPanics ∧
    (∃ after, run noteSetting 0 noteRequest ⟨some "application/json", true⟩
        (.scripted ⟨none, none, some 20, some 2, none, false⟩) ⟨"b"⟩ = .done () after ∧
      InOrder (Finish 7) after.calls) ∧
    ∃ after, Writer.performAll [.openPart "t", .write 0 [1, 2], .closePart 0]
        (.start (.scripted ⟨none, none, some 20, some 2, none, false⟩) ⟨"b"⟩ 4) = .done () after ∧
      InOrder (fun calls => Rounds (calls.map kind)) after.outlet.transport.called ∧
      after.outlet.transport.called =
        [.wrote 20, .wrote 4, .flushed, .wrote 4, .flushFailed] := by
  have calm := Peer.scripted_never_panics ⟨none, none, some 20, some 2, none, false⟩ rfl
  have length : (Octets.ofText (Boundary.terminator ⟨"b"⟩)).length = 7 := by decide
  obtain ⟨⟨turns, may, ran⟩, -, operations⟩ := transport_called_in_order calm noteSetting 0 noteRequest
    ⟨some "application/json", true⟩ ⟨"b"⟩
  rw [length, eq_noteTurns may, noteTurns_quiet] at ran
  obtain ⟨_, after, came, inOrder, -⟩ :=
    operations 4 [.openPart "t", .write 0 [1, 2], .closePart 0]
  have traced : (Writer.performAll [.openPart "t", .write 0 [1, 2], .closePart 0]
      (.start (.scripted ⟨none, none, some 20, some 2, none, false⟩) ⟨"b"⟩
        4)).state.outlet.transport.called =
      [.wrote 20, .wrote 4, .flushed, .wrote 4, .flushFailed] := by cbv
  rw [came] at traced
  exact ⟨calm, ran, after, came, inOrder, traced⟩

end Batch
end Multicall
