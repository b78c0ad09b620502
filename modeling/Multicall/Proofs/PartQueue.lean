import Multicall.Proofs.CallOrder
import Multicall.Proofs.ChunkSize
/-!
The queue of parts between two operations. Whatever a writer is asked for, in whatever order and on
whatever handles, its sheets can be told from the operations alone: a part is opened behind all
others, and what is asked of a handle reaches the open part that has it or nothing. One operation
disturbs the queue in one place, and the pump behind it brings the queue back to where nothing more
can be sent; so it is there after every series of operations.
-/
namespace Multicall

open Multicall.Action

namespace Outlet

/-- Behind all that has arrived there is a flush. -/
def Flushed (o : Outlet) : Prop :=
  o.arrived ≠ [] → o.transport.called.getLast? = some .flushed

/-- The octets that were sent are those that have arrived. -/
def Counted (o : Outlet) : Prop := o.Healthy ∧ o.sent = o.arrived.length

theorem send_counted (block : Octets) (o : Outlet) (counted : o.Counted) :
    (send block).Ends o fun _ after => after.Counted ∧ after.arrived = o.arrived ++ block := by
  obtain ⟨healthy, count⟩ := counted
  obtain ⟨t, ran, samePeer, arrived⟩ := send_delivers block o healthy
  refine ⟨(), _, ran, ⟨⟨healthy.whole, samePeer ▸ healthy.takesAll⟩, ?_⟩, arrived⟩
  show o.sent + block.length = t.accepted.toList.length
  rw [arrived, List.length_append, count]

theorem flush_counted (o : Outlet) (counted : o.Counted) :
    flush.Ends o fun _ after => after.Counted ∧ after.arrived = o.arrived := by
  obtain ⟨healthy, count⟩ := counted
  obtain ⟨t, ran, samePeer, arrived, -⟩ := flush_delivers o healthy
  refine ⟨(), _, ran, ⟨⟨healthy.whole, samePeer ▸ healthy.takesAll⟩, ?_⟩, arrived⟩
  show o.sent = t.accepted.toList.length
  rw [arrived, count]

theorem flush_flushed (o : Outlet) (healthy : o.Healthy) :
    flush.Ends o fun _ after => after.Healthy ∧ after.Flushed := by
  obtain ⟨t, ran, samePeer, -, noted⟩ := flush_delivers o healthy
  refine ⟨(), _, ran, ⟨healthy.whole, samePeer ▸ healthy.takesAll⟩, fun _ => ?_⟩
  show t.calls.toList.getLast? = some .flushed
  rw [noted, List.getLast?_concat]

end Outlet

/-- No panic ever strikes, and the octets are counted. -/
def Way.counting : Way where
  sound := Outlet.Counted
  struck _ := False
  whole _ counted := counted.1.whole
  record _ _ counted := ⟨⟨counted.1.whole, counted.1.takesAll⟩, counted.2⟩
  send block o counted := (Outlet.send_counted block o counted).goes
  flush := Outlet.flush_counted

namespace Sheet

/-- Only an open sheet takes what is written to it. -/
def written (bytes : Octets) (s : Sheet) : Sheet := if s.closed then s else s.add bytes

theorem written_of_closed {s : Sheet} (shut : s.closed = true) (bytes : Octets) :
    s.written bytes = s := by
  rw [written, if_pos shut]

theorem written_of_open {s : Sheet} (isOpen : s.closed = false) (bytes : Octets) :
    s.written bytes = s.add bytes := by
  rw [written, isOpen, if_neg Bool.false_ne_true]

theorem ended_of_closed {s : Sheet} (shut : s.closed = true) : s.ended = s := by
  rw [ended, ← shut]

end Sheet

namespace Writer

/-- What an operation does to the sheets. -/
def Operation.change (sheets : List Sheet) : Operation → List Sheet
  | .openPart mime => sheets ++ [⟨mime, [], none, false⟩]
  | .write handle bytes => sheets.modify handle (Sheet.written bytes)
  | .closePart handle => sheets.modify handle Sheet.ended

/-- The sheets that operations make, the first of them first. -/
def sheetsOf (operations : List Operation) : List Sheet := operations.foldl Operation.change []

section Reached

variable {sheets : List Sheet} {handle : Nat}

/-- A handle reaches an open sheet, or none. -/
theorem open_or_shut (sheets : List Sheet) (handle : Nat) :
    (∃ sheet, sheets[handle]? = some sheet ∧ sheet.closed = false) ∨
      ∀ sheet, sheets[handle]? = some sheet → sheet.closed = true := by
  cases found : sheets[handle]? with
  | none => exact .inr nofun
  | some sheet =>
      cases shut : sheet.closed with
      | false => exact .inl ⟨sheet, rfl, shut⟩
      | true =>
          right
          intro other same
          rwa [← Option.some.inj same]

theorem modify_of_found {sheet : Sheet} (found : sheets[handle]? = some sheet)
    (f : Sheet → Sheet) : sheets.modify handle f = sheets.set handle (f sheet) := by
  rw [List.modify_eq_set_getElem?, found]
  rfl

theorem modify_of_shut (shut : ∀ sheet, sheets[handle]? = some sheet → sheet.closed = true)
    {f : Sheet → Sheet} (fixed : ∀ sheet, sheet.closed = true → f sheet = sheet) :
    sheets.modify handle f = sheets := by
  cases found : sheets[handle]? with
  | none =>
      rw [List.modify_eq_set_getElem?, found]
      rfl
  | some sheet =>
      rw [modify_of_found found, fixed sheet (shut sheet found)]
      obtain ⟨inside, same⟩ := List.getElem?_eq_some_iff.mp found
      rw [← same, List.set_getElem_self inside]

end Reached

/-! What can be said of a pump beyond the sheets. -/

/-- Where nothing was released, nothing has happened at the outlet. -/
theorem release_unless_given (size : Nat) (parts : List Part) (given : Bool) (w : Writer)
    (healthy : w.outlet.Healthy) :
    (release size given parts).Ends w fun answer after => after.outlet.Healthy ∧
      (answer = false → given = false ∧ after.outlet = w.outlet) := by
  induction parts generalizing given w with
  | nil => exact ends_pure _ _ _ ⟨healthy, fun none => ⟨none, rfl⟩⟩
  | cons head rest ih =>
      rw [release]
      by_cases shut : head.closed = true
      · rw [if_pos shut]
        apply ends_modify_bind
        apply (Outlet.send_ends head.buffer.toList w.outlet healthy).within.bind
        rintro _ _ ⟨o, ⟨still, -⟩, rfl⟩
        apply (ih true _ still).weaken
        intro answer after ended
        refine ⟨ended.1, fun none => ?_⟩
        cases (ended.2 none).1
      · rw [if_neg shut]
        by_cases full : size ≤ head.buffer.size
        · rw [if_pos full]
          apply ends_modify_bind
          apply (Outlet.send_ends head.buffer.toList w.outlet healthy).within.bind
          rintro _ _ ⟨o, ⟨still, -⟩, rfl⟩
          refine ends_pure _ _ _ ⟨still, fun none => ?_⟩
          cases none
        · rw [if_neg full]
          exact ends_pure _ _ _ ⟨healthy, fun none => ⟨none, rfl⟩⟩

theorem pump_flushes (w : Writer) (healthy : w.outlet.Healthy) (flushed : w.outlet.Flushed) :
    pump.Ends w fun _ after => after.outlet.Healthy ∧ after.outlet.Flushed := by
  apply ends_get_bind
  apply (release_unless_given w.chunkSize w.parts false w healthy).bind
  intro given middle released
  cases given with
  | false =>
      have same := (released.2 rfl).2
      exact ends_pure _ _ _ ⟨released.1, same ▸ flushed⟩
  | true =>
      have last : Writer.flush.Ends middle _ := (Outlet.flush_flushed _ released.1).within
      apply last.weaken
      rintro _ _ ⟨o, flushed, rfl⟩
      exact flushed

/-- Nothing that was sent waits for a flush, and the size of a chunk is as it was settled. -/
structure Flushes (size : Nat) (w : Writer) : Prop where
  healthy : w.outlet.Healthy
  flushed : w.outlet.Flushed
  size : w.chunkSize = size

theorem flushes_upkeep (size : Nat) : Upkeep fun _ w => w.Flushes size where
  tell _ _ _ flushes := ⟨⟨flushes.healthy.whole, flushes.healthy.takesAll⟩, flushes.flushed,
    flushes.size⟩
  note _ _ _ _ flushes := ⟨⟨flushes.healthy.whole, flushes.healthy.takesAll⟩, flushes.flushed,
    flushes.size⟩
  opened _ _ _ _ flushes := ⟨flushes.healthy, flushes.flushed, flushes.size⟩
  changed _ _ _ _ _ _ flushes := ⟨flushes.healthy, flushes.flushed, flushes.size⟩
  pump _ w flushes := by
    obtain ⟨_, after, ran, healthy, flushed⟩ := pump_flushes w flushes.healthy flushes.flushed
    exact ⟨(), after, ran, healthy, flushed, (pump_leaves.of_done ran).trans flushes.size⟩

variable {way : Way} {b : Boundary} {w : Writer} {sheets : List Sheet}

/-! What the parts that wait have of the sheets. -/

theorem awaits_text {handle : Nat} {sent : Octets} {parts : List Part}
    (awaits : Awaits b handle sent parts sheets) :
    sent ++ parts.flatMap (fun part => part.buffer.toList) = sheets.flatMap (Sheet.octets b) := by
  induction parts generalizing handle sent sheets with
  | nil =>
      obtain ⟨rfl, rfl⟩ := awaits
      rfl
  | cons head rest ih =>
      cases sheets with
      | nil => exact awaits.elim
      | cons sheet later =>
          obtain ⟨-, -, text, others⟩ := awaits
          have behind := ih others
          rw [List.nil_append] at behind
          rw [List.flatMap_cons, List.flatMap_cons, text, behind, List.append_assoc]

theorem awaits_handles {handle : Nat} {sent : Octets} {parts : List Part}
    (awaits : Awaits b handle sent parts sheets) :
    parts.map Part.handle = List.range' handle parts.length := by
  induction parts generalizing handle sent sheets with
  | nil => rfl
  | cons head rest ih =>
      cases sheets with
      | nil => exact awaits.elim
      | cons sheet later =>
          obtain ⟨own, -, -, others⟩ := awaits
          rw [List.map_cons, List.length_cons, List.range'_succ, own, ih others]

/-- A part is closed as the sheet that its handle stands for. -/
theorem awaits_sheet {handle : Nat} {sent : Octets} {parts : List Part}
    (awaits : Awaits b handle sent parts sheets) {part : Part} (member : part ∈ parts) :
    ∃ index sheet, part.handle = handle + index ∧ sheets[index]? = some sheet ∧
      part.closed = sheet.closed := by
  induction parts generalizing handle sent sheets with
  | nil => cases member
  | cons head rest ih =>
      cases sheets with
      | nil => exact awaits.elim
      | cons first later =>
          obtain ⟨own, same, -, others⟩ := awaits
          rcases List.mem_cons.mp member with rfl | behind
          · exact ⟨0, first, own, rfl, same⟩
          · obtain ⟨index, sheet, place, found, agrees⟩ := ih others behind
            exact ⟨index + 1, sheet, by omega, found, agrees⟩

theorem append_missed {handle : Nat} {parts : List Part}
    (shut : ∀ part ∈ parts, part.handle = handle → part.closed = true) (bytes : Octets)
    (close : Bool) : append handle bytes close parts = (parts, false) := by
  induction parts with
  | nil => rfl
  | cons head rest ih =>
      obtain ⟨own, buffer, closed⟩ := head
      have elsewhere : (own == handle && !closed) = false := by
        by_cases same : own = handle
        · have own := shut _ List.mem_cons_self same
          simp [show closed = true from own]
        · simp [same]
      have behind := ih fun part member => shut part (List.mem_cons_of_mem _ member)
      rw [append, elsewhere, if_neg Bool.false_ne_true, behind]

namespace Keeps

variable (keeps : w.Keeps b sheets)
include keeps

theorem text : w.outlet.arrived ++ w.parts.flatMap (fun part => part.buffer.toList) =
    sheets.flatMap (Sheet.octets b) := by
  obtain ⟨gone, waiting, sent, split, -, arrived, awaits⟩ := keeps.order
  rw [split, List.flatMap_append, ← awaits_text awaits, arrived, List.append_assoc]

theorem handles_increase : (w.parts.map Part.handle).Pairwise (· < ·) := by
  obtain ⟨gone, waiting, sent, -, -, -, awaits⟩ := keeps.order
  rw [awaits_handles awaits]
  exact List.pairwise_lt_range'

/-- A handle whose sheet is closed, or that stands for none, finds no open part. -/
theorem missed {handle : Nat}
    (shut : ∀ sheet, sheets[handle]? = some sheet → sheet.closed = true) (bytes : Octets)
    (close : Bool) : append handle bytes close w.parts = (w.parts, false) := by
  apply append_missed
  intro part member same
  obtain ⟨gone, waiting, sent, split, -, -, awaits⟩ := keeps.order
  obtain ⟨index, sheet, place, found, agrees⟩ := awaits_sheet awaits member
  rw [agrees]
  apply shut sheet
  rw [split, ← same, place, List.getElem?_append_right (Nat.le_add_right _ _),
    Nat.add_sub_cancel_left, found]

/-- Where nothing more can be sent, closed sheets with only closed ones in front have arrived. -/
theorem closed_front_arrived (idle : w.Idle) {n : Nat}
    (shut : ∀ sheet ∈ sheets.take n, sheet.closed = true) :
    (sheets.take n).flatMap (Sheet.octets b) <+: w.outlet.arrived := by
  obtain ⟨gone, waiting, sent, rfl, closed, arrived, awaits⟩ := keeps.order
  have front : (gone ++ waiting).take n <+: gone := by
    cases waiting with
    | nil =>
        rw [List.append_nil]
        exact List.take_prefix n gone
    | cons sheet later =>
        -- the part in front is open, so its sheet is none of these
        have still : sheet.closed = false := by
          cases parts : w.parts with
          | nil =>
              rw [parts] at awaits
              exact nomatch awaits.1
          | cons head rest =>
              rw [parts] at awaits
              exact awaits.2.1.symm.trans (idle head rest parts).1
        have before : n ≤ gone.length := by
          apply Nat.le_of_not_lt
          intro beyond
          have among : sheet ∈ (gone ++ sheet :: later).take n := by
            rw [List.take_append, List.take_cons (Nat.sub_pos_of_lt beyond)]
            exact List.mem_append_right _ List.mem_cons_self
          rw [shut sheet among] at still
          cases still
        rw [List.take_append_of_le_length before]
        exact List.take_prefix n gone
  obtain ⟨others, whole⟩ := front
  rw [arrived]
  nth_rewrite 2 [← whole]
  rw [List.flatMap_append, List.append_assoc]
  exact List.prefix_append _ _

end Keeps

/-- Without an open part for it, a command only leaves a note in the log. -/
theorem onPart_of_missed {handle : Nat} {bytes : Octets} {close : Bool}
    (missed : append handle bytes close w.parts = (w.parts, false)) (otherwise : Event) :
    onPart handle bytes close otherwise w = .done () (w.logging otherwise) := by
  obtain ⟨outlet, boundary, chunkSize, parts, nextHandle⟩ := w
  simp only at missed
  simp only [onPart, missed]
  rfl

/-! One operation, and from it all of them. -/

/-- What a command for a handle makes of the sheets: those that are closed do not change. -/
theorem onPart_changes {handle : Nat} {bytes : Octets} {close : Bool} (otherwise : Event)
    (floats : w.Floats way b sheets) {f : Sheet → Sheet}
    (shut : ∀ sheet, sheet.closed = true → f sheet = sheet)
    (still : ∀ sheet, sheet.closed = false →
      (f sheet).octets b = sheet.octets b ++ bytes ∧ (f sheet).closed = close) :
    (onPart handle bytes close otherwise).Goes w
      (fun _ after => after.Floats way b (sheets.modify handle f) ∧ (w.Idle → after.Idle))
      (Struck way b · (sheets.modify handle f)) := by
  rcases open_or_shut sheets handle with ⟨sheet, found, isOpen⟩ | closed
  · obtain ⟨text, same⟩ := still sheet isOpen
    rw [modify_of_found found]
    apply (onPart_goes handle bytes close otherwise floats sheet _ found isOpen text same).weaken
    · exact fun _ after ⟨floats, idle⟩ => ⟨floats, fun _ => idle⟩
    · exact fun _ => id
  · rw [modify_of_shut closed shut]
    have logged := onPart_of_missed (w := w) (floats.keeps.missed closed bytes close) otherwise
    exact .inl ⟨(), _, logged, ⟨way.record otherwise _ floats.sound, floats.keeps⟩, fun idle => idle⟩

/-- An operation makes of the sheets what it says, and leaves nothing that can be sent if there was
nothing before. -/
theorem perform_goes (operation : Operation) (floats : w.Floats way b sheets) :
    (perform operation).Goes w
      (fun _ after => after.Floats way b (operation.change sheets) ∧ (w.Idle → after.Idle))
      (Struck way b · (operation.change sheets)) := by
  cases operation with
  | openPart mime =>
      apply (openPart_idles mime none floats).bind
      intro handle after opened
      exact goes_pure _ _ ⟨opened.2.1, fun _ => opened.2.2⟩
  | write handle bytes =>
      apply onPart_changes _ floats
      · exact fun sheet closed => Sheet.written_of_closed closed bytes
      · intro sheet isOpen
        rw [Sheet.written_of_open isOpen]
        exact ⟨Sheet.octets_add b bytes sheet isOpen, isOpen⟩
  | closePart handle =>
      apply onPart_changes _ floats
      · exact fun sheet closed => Sheet.ended_of_closed closed
      · exact fun sheet isOpen => ⟨Sheet.octets_of_closing b sheet _ isOpen rfl rfl rfl, rfl⟩

/-- Where no panic can strike, all operations are carried out one after the other. -/
theorem performAll_ends (calm : ∀ o, ¬ way.struck o) (operations : List Operation)
    (floats : w.Floats way b sheets) :
    (performAll operations).Ends w fun _ after =>
      after.Floats way b (operations.foldl Operation.change sheets) ∧ (w.Idle → after.Idle) := by
  induction operations generalizing w sheets with
  | nil => exact ends_pure _ _ _ ⟨floats, id⟩
  | cons operation rest ih =>
      have first := Goes.ends ((perform_goes operation floats).weaken (fun _ _ => id)
        fun _ struck => calm _ struck.struck)
      apply first.bind
      intro _ middle once
      apply (ih once.1).weaken
      exact fun _ after others => ⟨others.1, fun idle => others.2 (once.2 idle)⟩

theorem start_floats {peer : Peer} (takesAll : peer.TakesAll) (b : Boundary) (chunkSize : Nat) :
    (start peer b chunkSize).Floats .counting b [] where
  sound := ⟨⟨rfl, takesAll⟩, rfl⟩
  keeps := (start_keeps peer b chunkSize takesAll).of_outlet _ (Outlet.holding_healthy _) rfl

theorem start_flushes {peer : Peer} (takesAll : peer.TakesAll) (b : Boundary) (chunkSize : Nat) :
    (start peer b chunkSize).Flushes (max 1 chunkSize) where
  healthy := ⟨rfl, takesAll⟩
  flushed some := absurd rfl some
  size := rfl

theorem Floats.counted (floats : w.Floats .counting b sheets) : w.Keeps b sheets :=
  floats.keeps.of_outlet w.outlet floats.sound.1 rfl

/-- Over a peer that takes everything, any series of operations ends, and by then: what has arrived
and what waits in the queue are together the text of the sheets, in opening order; all octets that
were sent have arrived and been flushed; the part in front of the queue is open and holds less than a
chunk; the handles in the queue increase; and closed sheets with only closed ones in front have
arrived whole. The next part to be opened has the next handle, and a command for a part that is
closed or was never opened does nothing but leave a note in the log. -/
theorem queue_is_tidy_between_operations {peer : Peer} (takesAll : peer.TakesAll) (b : Boundary)
    (chunkSize : Nat) (operations : List Operation) :
    (performAll operations).Ends (start peer b chunkSize) fun _ w =>
      w.outlet.arrived ++ w.parts.flatMap (fun part => part.buffer.toList) =
        (sheetsOf operations).flatMap (Sheet.octets b) ∧
      w.outlet.sent = w.outlet.arrived.length ∧
      (w.outlet.arrived ≠ [] → w.outlet.transport.called.getLast? = some .flushed) ∧
      (∀ head rest, w.parts = head :: rest →
        head.closed = false ∧ head.buffer.size < max 1 chunkSize) ∧
      (w.parts.map Part.handle).Pairwise (· < ·) ∧
      (∀ n, (∀ sheet ∈ (sheetsOf operations).take n, sheet.closed = true) →
        ((sheetsOf operations).take n).flatMap (Sheet.octets b) <+: w.outlet.arrived) ∧
      (∀ mime, ∃ after, openPart mime w = .done (sheetsOf operations).length after) ∧
      ∀ handle, (∀ sheet, (sheetsOf operations)[handle]? = some sheet → sheet.closed = true) →
        (∀ bytes, write handle bytes w = .done () (w.logging .writeToUnopenedPart)) ∧
        closePart handle w = .done () (w.logging .closeOfUnopenedPart) := by
  have reached := performAll_ends (fun _ => id) operations (start_floats takesAll b chunkSize)
  have flushing := performAll_upkeep (flushes_upkeep _) operations _
    (start_flushes takesAll b chunkSize)
  apply (reached.and flushing).weaken
  rintro _ w ⟨⟨floats, settles⟩, flushes⟩
  have idle : w.Idle := settles nofun
  have keeps : w.Keeps b (sheetsOf operations) := floats.counted
  constructor
  · exact keeps.text
  constructor
  · exact floats.sound.2
  constructor
  · exact flushes.flushed
  constructor
  · intro head rest parts
    exact flushes.size ▸ idle head rest parts
  constructor
  · exact keeps.handles_increase
  constructor
  · intro n shut
    exact keeps.closed_front_arrived idle shut
  constructor
  · intro mime
    have opened := Goes.ends ((openPart_goes mime none floats).weaken (fun _ _ => id)
      fun _ struck => struck.struck)
    obtain ⟨_, after, ran, rfl, -⟩ := opened
    exact ⟨after, ran⟩
  · intro handle shut
    constructor
    · intro bytes
      exact onPart_of_missed (keeps.missed shut bytes false) _
    · exact onPart_of_missed (keeps.missed shut lineEnd true) _

/-- The second of three parts closes first and is written to again, and a fourth part is never opened.
Once the first part closes, both have arrived, and only the third waits. -/
def crossing : List Operation :=
  [.openPart "t", .openPart "u", .write 1 [1, 2], .closePart 1, .write 1 [3], .write 3 [4],
    .openPart "v", .write 0 [5], .closePart 0, .closePart 0]

theorem crossing_arrives_in_order :
    Peer.accepting.TakesAll ∧
    ∃ after, performAll crossing (start .accepting ⟨"b"⟩ 100) = .done () after ∧
      Octets.ofText (Boundary.preamble ⟨"b"⟩ "t") ++ [5, 13, 10] ++
        (Octets.ofText (Boundary.preamble ⟨"b"⟩ "u") ++ [1, 2, 13, 10]) <+: after.outlet.arrived ∧
      after.outlet.transport.called.getLast? = some .flushed ∧ after.parts.map Part.handle = [2] := by
  obtain ⟨_, after, ran, -, -, flushed, -, -, front, -⟩ :=
    queue_is_tidy_between_operations Peer.accepting_takes_all ⟨"b"⟩ 100 crossing
  have whole : Octets.ofText (Boundary.preamble ⟨"b"⟩ "t") ++ [5, 13, 10] ++
      (Octets.ofText (Boundary.preamble ⟨"b"⟩ "u") ++ [1, 2, 13, 10]) <+: after.outlet.arrived :=
    front 2 (by decide)
  have some : after.outlet.arrived ≠ [] := by
    intro none
    rw [none, List.prefix_nil] at whole
    simp at whole
  have queue : (performAll crossing (start .accepting ⟨"b"⟩ 100)).state.parts.map Part.handle =
      [2] := by cbv
  rw [ran] at queue
  exact ⟨Peer.accepting_takes_all, after, ran, whole, flushed some, queue⟩

end Writer
end Multicall
