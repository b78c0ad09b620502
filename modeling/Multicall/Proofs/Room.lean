import Multicall.Proofs.Lasting
/-!
Endless sequences and the room at the far end. A peer that takes only so many octets in all is felt
only by what is sent to it. A sequence whose part is alone in the queue sends a chunk now and then, so
it runs into the end of the room and is given up; one whose part waits behind a part that is open and
holds less than a chunk sends nothing, and nothing ever stops it.
-/
namespace Multicall

open Multicall.Action

/-- The peer takes no more than so many octets in all. -/
def Peer.CapsAt (capacity : Nat) (peer : Peer) : Prop :=
  ∀ call accepted offered count, peer.onWrite call accepted offered = .accept count →
    accepted ≤ capacity → accepted + min count offered ≤ capacity

theorem Peer.scripted_caps (s : Script) (capacity : Nat) (limited : s.capacity = some capacity) :
    (scripted s).CapsAt capacity := by
  intro call accepted offered count answer room
  change s.onWrite call accepted offered = .accept count at answer
  rw [Script.onWrite, limited] at answer
  split at answer
  · cases answer
  · split at answer
    · cases answer
    · simp only [Option.map_some, Option.getD_some, Verdict.accept.injEq] at answer
      omega

namespace Transport

def Capped (capacity : Nat) (t : Transport) : Prop :=
  t.peer.CapsAt capacity ∧ t.accepted.size ≤ capacity

theorem write_capped (capacity : Nat) (t : Transport) (capped : t.Capped capacity)
    (block : Octets) : (t.write block.length block).1.Capped capacity := by
  obtain ⟨caps, room⟩ := capped
  cases answer : t.peer.onWrite (t.writes + 1) t.accepted.size block.length with
  | accept count =>
    have fits := caps _ _ _ _ answer room
    rw [write_of_accept answer]
    refine ⟨caps, ?_⟩
    rwa [← Array.length_toList, took_accepted, List.length_append, List.length_take,
      Array.length_toList]
  | refuse reason =>
    rw [write_of_refuse answer]
    exact ⟨caps, room⟩
  | panic p =>
    rw [write_of_panic answer]
    exact ⟨caps, room⟩

theorem flush_capped (capacity : Nat) (t : Transport) (capped : t.Capped capacity) :
    t.flush.1.Capped capacity := by
  unfold flush
  split <;> exact capped

theorem shutdown_capped (capacity : Nat) (t : Transport) (capped : t.Capped capacity) :
    t.shutdown.Capped capacity := by
  unfold shutdown
  split <;> exact capped

end Transport

namespace Outlet

/-- The transport never panics and has taken no more than there is room for. -/
structure Limited (capacity : Nat) (o : Outlet) : Prop where
  calm : o.Calm
  capped : o.transport.Capped capacity

theorem limited_lasts (capacity : Nat) : Lasting (Limited capacity) where
  record _ _ limited := ⟨limited.calm, limited.capped⟩
  send block o limited := by
    obtain ⟨_, after, ran, calm⟩ := calm_lasts.send block o limited.calm
    have sent := send_keeps (fun t block capped => Transport.write_capped capacity t capped block)
      block o limited.capped
    rw [ran] at sent
    exact ⟨_, after, ran, calm, sent⟩
  flush o limited := by
    obtain ⟨_, after, ran, calm⟩ := calm_lasts.flush o limited.calm
    have flushed := flush_keeps (Transport.flush_capped capacity) o limited.capped
    rw [ran] at flushed
    exact ⟨_, after, ran, calm, flushed⟩
  shutdown o limited := by
    obtain ⟨_, after, ran, calm⟩ := calm_lasts.shutdown o limited.calm
    have shut := shutdown_keeps (Transport.shutdown_capped capacity) o limited.capped
    rw [ran] at shut
    exact ⟨_, after, ran, calm, shut⟩

theorem Limited.arrived_le {capacity : Nat} {o : Outlet} (limited : o.Limited capacity) :
    o.arrived.length ≤ capacity := by
  rw [arrived, Array.length_toList]
  exact limited.capped.2

/-- Broken, or as much further as was to arrive. -/
def Moved (capacity : Nat) (block : Octets) (o after : Outlet) : Prop :=
  after.Limited capacity ∧ (after.Gone ∨ after.broken = false ∧ after.arrived = o.arrived ++ block)

theorem send_moves (capacity : Nat) (block : Octets) (o : Outlet) (limited : o.Limited capacity) :
    (send block).Ends o fun _ => Moved capacity block o := by
  obtain ⟨_, after, ran, kept⟩ := (limited_lasts capacity).send block o limited
  refine ⟨_, after, ran, kept, ?_⟩
  cases gone : o.broken with
  | true =>
    cases ran.symm.trans (send_of_broken gone block)
    exact .inl gone
  | false =>
    obtain ⟨_, same, again, -, ended⟩ := send_calm block o gone limited.calm
    cases ran.symm.trans again
    exact ended.symm.imp And.left id

theorem flush_moves (capacity : Nat) (o : Outlet) (limited : o.Limited capacity) :
    flush.Ends o fun _ => Moved capacity [] o := by
  obtain ⟨_, after, ran, kept⟩ := (limited_lasts capacity).flush o limited
  refine ⟨_, after, ran, kept, ?_⟩
  cases gone : o.broken with
  | true =>
    cases ran.symm.trans (flush_of_broken gone)
    exact .inl gone
  | false =>
    obtain ⟨_, same, again, -, ended⟩ := flush_calm o gone limited.calm
    cases ran.symm.trans again
    exact ended.symm.imp And.left id

end Outlet

namespace Writer

variable {capacity chunk handle m : Nat} {w : Writer}

/-- Broken, or an open part is alone in the queue with less than a chunk, and at least `m` octets have
arrived or wait in it. -/
def Stage (capacity chunk handle m : Nat) (w : Writer) : Prop :=
  w.outlet.Limited capacity ∧ (w.outlet.Gone ∨ w.chunkSize = chunk ∧ ∃ buffer,
    w.parts = [⟨handle, buffer, false⟩] ∧ buffer.size < chunk ∧
      m ≤ w.outlet.arrived.length + buffer.size)

/-- What has arrived and what waits is never more than the room and a chunk. -/
theorem Stage.bounded (stage : w.Stage capacity chunk handle m) (whole : w.outlet.broken = false) :
    m < capacity + chunk := by
  obtain ⟨limited, gone | ⟨-, buffer, -, small, most⟩⟩ := stage
  · rw [Outlet.Gone, whole] at gone
    cases gone
  · have room := limited.arrived_le
    omega

/-- What is done to a writer that has failed leaves it so. -/
theorem gone_ends {α : Type} {n : Action Writer α} (kept : ∀ c : Coupling, c.Keeps n n)
    (limited : w.outlet.Limited capacity) (gone : w.outlet.Gone) :
    n.Ends w fun _ after => after.outlet.Limited capacity ∧ after.outlet.Gone :=
  ((Outlet.limited_lasts capacity).and Outlet.gone_lasts).writer (kept _) w ⟨limited, gone⟩

theorem Stage.of_gone (held : w.outlet.Limited capacity ∧ w.outlet.Gone) :
    w.Stage capacity chunk handle m := ⟨held.1, .inl held.2⟩

theorem Stage.fewer {n : Nat} (stage : w.Stage capacity chunk handle m) (fewer : n ≤ m) :
    w.Stage capacity chunk handle n := by
  obtain ⟨limited, gone | ⟨same, buffer, alone, small, most⟩⟩ := stage
  · exact .of_gone ⟨limited, gone⟩
  · exact ⟨limited, .inr ⟨same, buffer, alone, small, Nat.le_trans fewer most⟩⟩

/-- Parts that are closed leave the queue, and the last one is alone in it. -/
theorem release_stage (capacity handle : Nat) (given : Bool) (early : List Part)
    (shut : ∀ p ∈ early, p.closed = true)
    (buffer : Array UInt8) (w : Writer) (limited : w.outlet.Limited capacity)
    (positive : 0 < w.chunkSize) (own : w.parts = early ++ [⟨handle, buffer, false⟩]) :
    (release w.chunkSize given w.parts).Ends w fun _ after =>
      after.Stage capacity w.chunkSize handle (w.outlet.arrived.length + buffer.size) := by
  rw [own]
  -- induction on the closed parts in front: each is sent whole, or the transport is gone for good
  induction early generalizing given w with
  | nil =>
    rw [List.nil_append, release, if_neg Bool.false_ne_true]
    by_cases full : w.chunkSize ≤ buffer.size
    · rw [if_pos full]
      apply ends_modify_bind
      apply (Outlet.send_moves capacity buffer.toList w.outlet limited).within.bind
      rintro _ _ ⟨outlet, ⟨kept, ended⟩, rfl⟩
      refine ends_pure _ _ _ ⟨kept, ended.imp id fun sent => ?_⟩
      refine ⟨rfl, #[], rfl, positive, ?_⟩
      show _ ≤ outlet.arrived.length + _
      simp [sent.2]
    · rw [if_neg full]
      exact ends_pure _ _ _ ⟨limited, .inr ⟨rfl, buffer, own, by omega, Nat.le_refl _⟩⟩
  | cons head rest ih =>
    rw [List.cons_append, release, if_pos (shut head List.mem_cons_self)]
    apply ends_modify_bind
    apply (Outlet.send_moves capacity head.buffer.toList w.outlet limited).within.bind
    rintro _ _ ⟨outlet, ⟨kept, gone | ⟨whole, more⟩⟩, rfl⟩
    · exact (gone_ends (fun c => Coupling.keeps_release _ _ _) kept gone).weaken
        fun _ _ => Stage.of_gone
    · apply (ih true (fun p member => shut p (List.mem_cons_of_mem head member)) { w with
        parts := rest ++ [⟨handle, buffer, false⟩], outlet := outlet } kept positive rfl).weaken
      intro _ after stage
      refine stage.fewer ?_
      show _ ≤ outlet.arrived.length + _
      rw [more, List.length_append]
      omega

theorem pump_stage (capacity handle : Nat) (early : List Part) (shut : ∀ p ∈ early, p.closed = true)
    (buffer : Array UInt8) (w : Writer) (limited : w.outlet.Limited capacity)
    (positive : 0 < w.chunkSize) (own : w.parts = early ++ [⟨handle, buffer, false⟩]) :
    pump.Ends w fun _ after =>
      after.Stage capacity w.chunkSize handle (w.outlet.arrived.length + buffer.size) := by
  apply ends_get_bind
  apply (release_stage capacity handle false early shut buffer w limited positive own).bind
  intro given middle stage
  cases given with
  | false => exact ends_pure _ _ _ stage
  | true =>
    obtain ⟨limited, gone | ⟨same, last, alone, small, most⟩⟩ := stage
    · exact (gone_ends (fun c => Coupling.keeps_flush) limited gone).weaken fun _ _ => Stage.of_gone
    · show flush.Ends middle _
      apply (Outlet.flush_moves capacity middle.outlet limited).within.weaken
      rintro _ _ ⟨outlet, ⟨kept, ended⟩, rfl⟩
      refine ⟨kept, ended.imp id fun ⟨_, more⟩ => ⟨same, last, alone, small, ?_⟩⟩
      show _ ≤ outlet.arrived.length + _
      rwa [more, List.append_nil]

/-- Where all parts before it are closed, a new part is the first to be sent. -/
theorem openPart_stage (mime : String) (w : Writer) (limited : w.outlet.Limited capacity)
    (positive : 0 < w.chunkSize) (shut : ∀ p ∈ w.parts, p.closed = true) :
    (openPart mime).Ends w fun handle after => after.Stage capacity w.chunkSize handle 0 := by
  apply ends_get_bind
  apply ends_modify_bind
  refine Ends.bind (pump_stage capacity w.nextHandle w.parts shut _ _ limited positive rfl)
    fun _ after stage => ?_
  exact ends_pure _ _ _ (stage.fewer (Nat.zero_le _))

/-- What is written to the part that is alone in the queue arrives or waits in it. -/
theorem write_stage (bytes : Octets) (positive : 0 < chunk)
    (stage : w.Stage capacity chunk handle m) :
    (write handle bytes).Ends w fun _ after =>
      after.Stage capacity chunk handle (m + bytes.length) := by
  obtain ⟨limited, gone | ⟨rfl, buffer, alone, small, most⟩⟩ := stage
  · exact (gone_ends (fun c => Coupling.keeps_write _ _) limited gone).weaken
      fun _ _ => Stage.of_gone
  · have found : append handle bytes false w.parts =
        ([⟨handle, buffer ++ bytes, false⟩], true) := by
      rw [alone, append, beq_self_eq_true, Bool.not_false, Bool.and_self, if_pos rfl]
    obtain ⟨a, after, pumped, stage⟩ := pump_stage capacity handle [] (by simp)
      (buffer ++ bytes) { w with parts := [⟨handle, buffer ++ bytes, false⟩] } limited positive rfl
    refine ⟨a, after, ?_, stage.fewer ?_⟩
    · simp only [write, onPart, found]
      exact pumped
    · have size : (buffer ++ bytes).size = buffer.size + bytes.length := by
        rw [← Array.length_toList]
        simp
      show m + bytes.length ≤ w.outlet.arrived.length + (buffer ++ bytes).size
      omega

end Writer

/-- Every pull gives an element, and every element has a JSON form. -/
def Pull.AllEncodable (pulls : List Pull) : Prop :=
  ∀ pull ∈ pulls, ∃ j, pull.came = .ok (some (.ok j))

/-- What a pull records leaves all of a writer as it was but its log. -/
theorem Writer.hearing_eq (events : List Event) (w : Writer) :
    ∃ log, w.hearing events = { w with outlet := { w.outlet with log := log } } := by
  induction events generalizing w with
  | nil => exact ⟨w.outlet.log, rfl⟩
  | cons e rest ih =>
    obtain ⟨log, heard⟩ := ih (w.logging e)
    exact ⟨log, heard⟩

namespace Encoder

variable {capacity chunk handle m : Nat} {w : Writer}

theorem stage_hearing (events : List Event) (stage : w.Stage capacity chunk handle m) :
    (w.hearing events).Stage capacity chunk handle m := by
  obtain ⟨log, heard⟩ := Writer.hearing_eq events w
  rw [heard]
  exact ⟨⟨stage.1.calm, stage.1.capped⟩, stage.2⟩

/-- Each element but the first moves at least a comma on. -/
theorem emitElement_stage (id : String) (j : Json) (index written : Nat) (positive : 0 < chunk)
    (stage : w.Stage capacity chunk handle m) :
    (emitElement id handle index written (.ok j)).Ends w fun count after =>
      count = written + 1 ∧ after.Stage capacity chunk handle (m + min 1 written) := by
  rw [emitElement]
  by_cases later : 0 < written
  · rw [if_pos later]
    apply (Writer.write_stage (Octets.ofText ",") positive stage).bind
    intro _ separated stage
    apply (Writer.write_stage j.withoutPrivate.octets positive stage).bind
    intro _ after stage
    have comma : (Octets.ofText ",").length = 1 := rfl
    exact ends_pure _ _ _ ⟨rfl, stage.fewer (by omega)⟩
  · rw [if_neg later]
    apply (Writer.write_stage j.withoutPrivate.octets positive stage).bind
    intro _ after stage
    exact ends_pure _ _ _ ⟨rfl, stage.fewer (by omega)⟩

/-- A sequence whose part is alone in the queue is given up: it is never pulled more often than there
is room, and then a chunk. -/
theorem emitPulls_stops (id : String) (pulls : List Pull) (encodable : Pull.AllEncodable pulls)
    (positive : 0 < chunk) (index written : Nat)
    (enough : capacity + chunk + 1 ≤ pulls.length + m + min 1 written)
    (stage : w.Stage capacity chunk handle m) :
    (emitPulls id handle index written pulls).Ends w fun cut after =>
      cut = false ∧ after.outlet.Limited capacity ∧ after.outlet.Gone := by
  -- the measure is what has arrived or waits; it cannot pass the room and a chunk
  induction pulls generalizing index written w m with
  | nil =>
    have gone : w.outlet.Gone := by
      cases whole : w.outlet.broken with
      | true => exact whole
      | false =>
        have bound := stage.bounded whole
        rw [List.length_nil] at enough
        omega
    exact ⟨_, _, emitPulls_of_gone gone .., rfl, ⟨stage.1.calm, stage.1.capped⟩, gone⟩
  | cons pull rest ih =>
    cases whole : w.outlet.broken with
    | true => exact ⟨_, _, emitPulls_of_gone whole .., rfl, ⟨stage.1.calm, stage.1.capped⟩, whole⟩
    | false =>
      obtain ⟨⟨j, value⟩, others⟩ := List.forall_mem_cons.mp encodable
      rw [Ends, emitPulls_cons whole, value]
      apply (emitElement_stage id j index written positive (stage_hearing pull.events stage)).bind
      rintro _ after ⟨rfl, further⟩
      rw [List.length_cons] at enough
      exact ih others (index + 1) (written + 1) (by omega) further

/-- The end of a sequence part that is written to nobody. -/
theorem ending_of_gone (cut : Bool) (limited : w.outlet.Limited capacity) (gone : w.outlet.Gone) :
    (closeSequence handle >>= fun _ => (pure (.success, cut) : Action Writer (Emitted × Bool))).Ends
      w fun answer after =>
        answer.2 = cut ∧ after.outlet.Limited capacity ∧ after.outlet.Gone := by
  apply (Writer.gone_ends (fun c => Coupling.keeps_closeSequence handle) limited gone).bind
  intro _ after held
  exact ends_pure _ _ _ ⟨rfl, held⟩

/-- A writer that has failed gives every sequence up before its first element. -/
theorem emitAnswer_of_gone (debug : Bool) (id : String) (answer : Answer)
    (limited : w.outlet.Limited capacity) (gone : w.outlet.Gone) :
    (emitAnswer debug id answer).Ends w fun answer after =>
      answer.2 = false ∧ after.outlet.Limited capacity ∧ after.outlet.Gone := by
  match answer with
  | .ok (.value json) =>
    exact (Writer.gone_ends (fun c => Coupling.keeps_emitValue id (.same_public json)) limited
      gone).bind fun _ _ held => ends_pure _ _ _ ⟨rfl, held⟩
  | .error f =>
    exact (Writer.gone_ends (fun c => Coupling.keeps_emitFailure id (.refl debug f)) limited
      gone).bind fun _ _ held => ends_pure _ _ _ ⟨rfl, held⟩
  | .ok (.sequence pulls) =>
    apply (Writer.gone_ends (fun c => Coupling.keeps_openSequence id) limited gone).bind
    rintro handle headed ⟨limited, gone⟩
    have given_up : (emitPulls id handle 0 0 pulls).Ends headed fun cut after =>
        cut = false ∧ after.outlet.Limited capacity ∧ after.outlet.Gone :=
      ⟨_, _, emitPulls_of_gone gone .., rfl, ⟨limited.calm, limited.capped⟩, gone⟩
    apply given_up.bind
    rintro _ left ⟨rfl, limited, gone⟩
    exact ending_of_gone false limited gone

/-- Where every part before it is closed, a sequence part comes to the front of the queue, so the
sequence is given up when there is no more room. -/
theorem emitAnswer_stops (debug : Bool) (id : String) (pulls : List Pull)
    (encodable : Pull.AllEncodable pulls) (w : Writer) (limited : w.outlet.Limited capacity)
    (positive : 0 < w.chunkSize) (enough : capacity + w.chunkSize + 1 ≤ pulls.length)
    (shut : ∀ p ∈ w.parts, p.closed = true) :
    (emitAnswer debug id (.ok (.sequence pulls))).Ends w fun answer after =>
      answer.2 = false ∧ after.outlet.Limited capacity ∧ after.outlet.Gone := by
  have opened : (openSequence id).Ends w fun handle after =>
      after.Stage capacity w.chunkSize handle (sequenceHead id).length := by
    apply (Writer.openPart_stage jsonMime w limited positive shut).bind
    intro handle begun stage
    apply (Writer.write_stage (sequenceHead id) positive stage).bind
    intro _ headed stage
    exact ends_pure _ _ _ (stage.fewer (by omega))
  apply opened.bind
  intro handle headed stage
  apply (emitPulls_stops id pulls encodable positive 0 0 (by omega) stage).bind
  rintro _ stopped ⟨rfl, limited, gone⟩
  exact ending_of_gone false limited gone

end Encoder

namespace Writer

variable {handle : Nat} {w : Writer}

/-- Another part stands in front, open and with less than a chunk, so nothing can be sent. -/
structure Blocked (handle : Nat) (w : Writer) : Prop where
  whole : w.outlet.broken = false
  front : ∃ head rest, w.parts = head :: rest ∧ head.closed = false ∧
    head.buffer.size < w.chunkSize ∧ head.handle ≠ handle

/-- Blocked as before, with nothing sent. -/
def StillBlocked (handle : Nat) (w after : Writer) : Prop :=
  after.Blocked handle ∧ after.outlet.transport = w.outlet.transport

theorem record_blocked (e : Event) (blocked : w.Blocked handle) :
    (record e).Ends w fun _ => w.StillBlocked handle :=
  ⟨(), _, rfl, ⟨blocked.whole, blocked.front⟩, rfl⟩

theorem pump_blocked (blocked : w.Blocked handle) :
    pump.Ends w fun _ after => after = w := by
  obtain ⟨head, rest, parts, isOpen, small, -⟩ := blocked.front
  apply ends_get_bind
  rw [parts, release, if_neg (ne_true_of_eq_false isOpen), if_neg (by omega)]
  exact ends_pure _ _ _ rfl

theorem onPart_blocked (bytes : Octets) (close : Bool) (otherwise : Event)
    (blocked : w.Blocked handle) :
    (onPart handle bytes close otherwise).Ends w fun _ => w.StillBlocked handle := by
  obtain ⟨⟨own, buffer, shut⟩, rest, parts, isOpen, small, other⟩ := blocked.front
  have elsewhere : (own == handle) = false := beq_eq_false_iff_ne.mpr other
  have passed : append handle bytes close w.parts =
      (⟨own, buffer, shut⟩ :: (append handle bytes close rest).1,
        (append handle bytes close rest).2) := by
    rw [parts, append, elsewhere, Bool.false_and, if_neg Bool.false_ne_true]
  have moved : Blocked handle { w with
      parts := ⟨own, buffer, shut⟩ :: (append handle bytes close rest).1 } :=
    ⟨blocked.whole, _, _, rfl, isOpen, small, other⟩
  rw [Writer.onPart_eq]
  apply ends_get_bind
  rw [passed]
  apply ends_modify_bind
  cases (append handle bytes close rest).2 with
  | true =>
    apply (pump_blocked moved).weaken
    rintro _ _ rfl
    exact ⟨moved, rfl⟩
  | false => exact record_blocked otherwise moved

/-- A part that is opened in an empty queue blocks the next one, unless its head fills a chunk. -/
theorem openPart_blocks (mime : String) (whole : w.outlet.broken = false) (empty : w.parts = [])
    (small : (Octets.ofText (w.boundary.preamble mime)).length < w.chunkSize) :
    (openPart mime).Ends w fun _ after => after.Blocked after.nextHandle := by
  have opened : Blocked (w.nextHandle + 1) { w with
      parts := w.parts ++
        [⟨w.nextHandle, (Octets.ofText (w.boundary.preamble mime)).toArray, false⟩]
      nextHandle := w.nextHandle + 1 } :=
    ⟨whole, _, [], congrArg (· ++ [_]) empty, rfl, by simpa using small, by simp⟩
  apply ends_get_bind
  apply ends_modify_bind
  apply (pump_blocked opened).bind
  rintro _ _ rfl
  exact ends_pure _ _ _ opened

theorem openPart_blocked (mime : String) (blocked : w.Blocked w.nextHandle) :
    (openPart mime).Ends w fun handle after => w.StillBlocked handle after := by
  obtain ⟨head, rest, parts, isOpen, small, other⟩ := blocked.front
  have opened : Blocked w.nextHandle { w with
      parts := w.parts ++
        [⟨w.nextHandle, (Octets.ofText (w.boundary.preamble mime)).toArray, false⟩]
      nextHandle := w.nextHandle + 1 } :=
    ⟨blocked.whole, head, rest ++ [_], congrArg (· ++ [_]) parts, isOpen, small, other⟩
  apply ends_get_bind
  apply ends_modify_bind
  apply (pump_blocked opened).bind
  rintro _ _ rfl
  exact ends_pure _ _ _ ⟨opened, rfl⟩

end Writer

namespace Encoder

variable {handle : Nat} {w : Writer}

/-- Behind an open part every element is pulled that may be: no failure is noticed, because nothing is
sent. -/
theorem emitPulls_spins (id : String) (pulls : List Pull) (encodable : Pull.AllEncodable pulls)
    (index written : Nat) (blocked : w.Blocked handle) :
    (emitPulls id handle index written pulls).Ends w fun cut after =>
      cut = true ∧ w.StillBlocked handle after := by
  -- every element lengthens the queue, but nothing of it is sent while a part in front is open
  induction pulls generalizing index written w with
  | nil => exact ⟨_, _, emitPulls_nil blocked.whole .., rfl, blocked, rfl⟩
  | cons pull rest ih =>
    obtain ⟨⟨j, value⟩, others⟩ := List.forall_mem_cons.mp encodable
    rw [Ends, emitPulls_cons blocked.whole, value]
    obtain ⟨log, heard⟩ := Writer.hearing_eq pull.events w
    have still : w.StillBlocked handle (w.hearing pull.events) := by
      rw [heard]
      exact ⟨⟨blocked.whole, blocked.front⟩, rfl⟩
    have pulled : (emitElement id handle index written (.ok j)).Ends (w.hearing pull.events)
        fun count after => count = written + 1 ∧ w.StillBlocked handle after := by
      have last {v : Writer} (still : w.StillBlocked handle v) :
          (Writer.write handle j.withoutPrivate.octets >>=
            fun _ => (pure (written + 1) : Action Writer Nat)).Ends v
            fun count after => count = written + 1 ∧ w.StillBlocked handle after :=
        (Writer.onPart_blocked _ _ _ still.1).bind fun _ _ ⟨blocked, same⟩ =>
          ends_pure _ _ _ ⟨rfl, blocked, same.trans still.2⟩
      rw [emitElement]
      split
      · apply (Writer.onPart_blocked (Octets.ofText ",") false _ still.1).bind
        rintro _ separated ⟨blocked, same⟩
        exact last ⟨blocked, same.trans still.2⟩
      · exact last still
    apply pulled.bind
    rintro _ middle ⟨rfl, blocked, same⟩
    apply (ih others (index + 1) (written + 1) blocked).weaken
    rintro cut after ⟨outlasted, still, unsent⟩
    exact ⟨outlasted, still, unsent.trans same⟩

/-- A sequence that is written behind an open part outlasts every patience, over every transport. -/
theorem emitAnswer_spins (debug : Bool) (id : String) (pulls : List Pull)
    (encodable : Pull.AllEncodable pulls) (blocked : w.Blocked w.nextHandle) :
    (emitAnswer debug id (.ok (.sequence pulls))).Ends w fun answer after =>
      answer.2 = true ∧ after.outlet.transport = w.outlet.transport := by
  have opened : (openSequence id).Ends w fun handle => w.StillBlocked handle := by
    apply (Writer.openPart_blocked jsonMime blocked).bind
    rintro handle opened ⟨blocked, first⟩
    apply (Writer.onPart_blocked (sequenceHead id) false _ blocked).bind
    rintro _ headed ⟨blocked, second⟩
    exact ends_pure _ _ _ ⟨blocked, second.trans first⟩
  have closed (handle : Nat) {v : Writer} (blocked : v.Blocked handle) :
      (closeSequence handle).Ends v fun _ after =>
        after.outlet.transport = v.outlet.transport := by
    apply (Writer.onPart_blocked sequenceEnd false _ blocked).bind
    rintro _ ended ⟨blocked, first⟩
    apply (Writer.onPart_blocked Writer.lineEnd true _ blocked).weaken
    rintro _ after ⟨-, second⟩
    exact second.trans first
  apply opened.bind
  rintro handle headed ⟨blocked, first⟩
  apply (emitPulls_spins id pulls encodable 0 0 blocked).bind
  rintro _ spun ⟨rfl, blocked, second⟩
  apply (closed handle blocked).bind
  intro _ after third
  exact ends_pure _ _ _ ⟨rfl, third.trans (second.trans first)⟩

end Encoder
end Multicall
