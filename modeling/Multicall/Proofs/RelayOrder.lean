import Multicall.Proofs.WriterOrder
import Multicall.Response.Relay
/-!
Part commands and the sheets they make. A command opens a sheet behind all others, or reaches those
sheets its stream can still write to, and nothing else. A desk carries out exactly this: whenever it
applies a command, early or late, its writer keeps the sheets that the commands so far make, so how
many of them still wait in the queue makes no difference once the queue is empty.
-/
namespace Multicall

namespace Sheet

/-- What a command makes of a sheet. A stream that is opened again leaves its earlier sheet. -/
def after (c : PartCommand) (s : Sheet) : Sheet :=
  match c with
  | .openPart stream _ => if s.owner = some stream then { s with owner := none } else s
  | .write stream bytes => if s.owner = some stream then s.add bytes else s
  | .close stream => if s.owner = some stream then ⟨s.mime, s.body, none, true⟩ else s

def begun : PartCommand → List Sheet
  | .openPart stream mime => [⟨mime, [], some stream, false⟩]
  | _ => []

def next (sheets : List Sheet) (c : PartCommand) : List Sheet := sheets.map (after c) ++ begun c

/-- The sheets after commands, the first of them first. -/
def carryOut (commands : List PartCommand) (sheets : List Sheet) : List Sheet :=
  commands.foldl next sheets

/-- Where a change takes the sheets of one stream away from it, all other owners stay. -/
theorem owner_of_taking (f : Sheet → Sheet) (stream : StreamId)
    (taken : ∀ s : Sheet, s.owner = some stream → (f s).owner = none)
    (others : ∀ s : Sheet, s.owner ≠ some stream → f s = s) (s : Sheet) (other : StreamId) :
    (f s).owner = some other ↔ other ≠ stream ∧ s.owner = some other := by
  by_cases owned : s.owner = some stream
  · rw [taken s owned, owned]
    constructor
    · intro absent
      cases absent
    · rintro ⟨differs, same⟩
      exact absurd (Option.some.inj same).symm differs
  · rw [others s owned]
    exact ⟨fun same => ⟨fun taken => owned (taken ▸ same), same⟩, And.right⟩

theorem owner_after_write (stream : StreamId) (bytes : Octets) (s : Sheet) :
    (s.after (.write stream bytes)).owner = s.owner := by
  simp only [after]
  split <;> rfl

theorem closed_after_write (stream : StreamId) (bytes : Octets) (s : Sheet) :
    (s.after (.write stream bytes)).closed = s.closed := by
  simp only [after]
  split <;> rfl

theorem exists_map_owner (f : Sheet → Sheet) (sheets : List Sheet) (place : Nat)
    (stream : StreamId) :
    (∃ s, (sheets.map f)[place]? = some s ∧ s.owner = some stream) ↔
      ∃ s, sheets[place]? = some s ∧ (f s).owner = some stream := by
  constructor
  · rintro ⟨_, found, owned⟩
    rw [List.getElem?_map, Option.map_eq_some_iff] at found
    obtain ⟨s, there, rfl⟩ := found
    exact ⟨s, there, owned⟩
  · rintro ⟨s, there, owned⟩
    exact ⟨f s, by rw [List.getElem?_map, there, Option.map_some], owned⟩

theorem exists_append_owner (sheets : List Sheet) (last : Sheet) (place : Nat)
    (stream : StreamId) :
    (∃ s, (sheets ++ [last])[place]? = some s ∧ s.owner = some stream) ↔
      (∃ s, sheets[place]? = some s ∧ s.owner = some stream) ∨
        place = sheets.length ∧ last.owner = some stream := by
  rcases Nat.lt_trichotomy place sheets.length with before | rfl | behind
  · rw [List.getElem?_append_left before]
    exact ⟨Or.inl, fun either => either.resolve_right fun at' => by omega⟩
  · simp
  · have nothing : sheets[place]? = none := List.getElem?_eq_none (by omega)
    have beyond : (sheets ++ [last])[place]? = none := List.getElem?_eq_none (by simp; omega)
    simp only [nothing, beyond, reduceCtorEq, false_and, exists_false, false_or, false_iff]
    omega

theorem carryOut_append (first second : List PartCommand) (sheets : List Sheet) :
    carryOut (first ++ second) sheets = carryOut second (carryOut first sheets) :=
  List.foldl_append

end Sheet

namespace Relay

theorem handle?_assign (stream other : StreamId) (handle : Nat) (r : Relay) :
    (r.assign stream handle).handle? other =
      if other = stream then some handle else r.handle? other := by
  by_cases same : other = stream
  · subst same
    simp [handle?, assign]
  · simp [handle?, assign, List.lookup_cons, same, beq_eq_false_iff_ne.mpr same]

theorem handle?_forget (stream other : StreamId) (r : Relay) :
    (r.forget stream).handle? other = if other = stream then none else r.handle? other := by
  obtain ⟨queue, handles⟩ := r
  simp only [handle?, forget]
  induction handles with
  | nil => simp
  | cons entry rest ih =>
    obtain ⟨own, handle⟩ := entry
    by_cases forgotten : own = stream
    · subst forgotten
      rw [List.filter_cons_of_neg (by simp), ih]
      by_cases same : other = own
      · rw [if_pos same, if_pos same]
      · rw [if_neg same, if_neg same, List.lookup_cons, beq_eq_false_iff_ne.mpr same]
    · rw [List.filter_cons_of_pos (by simpa using forgotten), List.lookup_cons, List.lookup_cons, ih]
      by_cases same : other = own
      · subst same
        simp [forgotten]
      · rw [beq_eq_false_iff_ne.mpr same]

end Relay

namespace Writer

/-- Who can write to a sheet is no concern of the writer. -/
theorem awaits_map (b : Boundary) (f : Sheet → Sheet)
    (sameText : ∀ s, (f s).octets b = s.octets b) (sameClosed : ∀ s, (f s).closed = s.closed)
    (parts : List Part) (sheets : List Sheet) (handle : Nat) (sent : Octets)
    (awaits : Awaits b handle sent parts sheets) :
    Awaits b handle sent parts (sheets.map f) := by
  induction parts generalizing sheets handle sent with
  | nil =>
    obtain ⟨rfl, rfl⟩ := awaits
    exact ⟨rfl, rfl⟩
  | cons part rest ih =>
    cases sheets with
    | nil => exact awaits.elim
    | cons sheet later =>
      obtain ⟨own, same, text, others⟩ := awaits
      exact ⟨own, same.trans (sameClosed sheet).symm, (sameText sheet).trans text,
        ih later (handle + 1) [] others⟩

theorem Keeps.map {b : Boundary} {w : Writer} {sheets : List Sheet} (keeps : w.Keeps b sheets)
    (f : Sheet → Sheet) (sameText : ∀ s, (f s).octets b = s.octets b)
    (sameClosed : ∀ s, (f s).closed = s.closed) : w.Keeps b (sheets.map f) := by
  obtain ⟨gone, waiting, sent, split, closed, arrived, awaits⟩ := keeps.order
  refine ⟨keeps.healthy, keeps.boundary, keeps.chunk, by simp [keeps.next],
    gone.map f, waiting.map f, sent, by rw [split, List.map_append], ?_, ?_, ?_⟩
  · intro s member
    obtain ⟨earlier, among, rfl⟩ := List.mem_map.mp member
    rw [sameClosed, closed earlier among]
  · rw [arrived, List.flatMap_map]
    simp only [sameText]
  · rw [List.length_map]
    exact awaits_map b f sameText sameClosed _ _ _ _ awaits

end Writer

namespace Desk

open Multicall.Action

/-- The writer keeps the sheets, and the relay knows for each open stream which sheet is its own. -/
structure Shows (b : Boundary) (d : Desk) (sheets : List Sheet) : Prop where
  keeps : d.writer.Keeps b sheets
  owners : ∀ stream handle, d.relay.handle? stream = some handle ↔
    ∃ s, sheets[handle]? = some s ∧ s.owner = some stream
  ownedOpen : ∀ s ∈ sheets, s.owner ≠ none → s.closed = false

/-- A command reaches one sheet at most, the one its stream owns. -/
theorem Shows.map_eq_set {b : Boundary} {d : Desk} {sheets : List Sheet} (shown : d.Shows b sheets)
    (stream : StreamId) (handle : Nat) (s : Sheet) (f : Sheet → Sheet)
    (found : sheets[handle]? = some s) (owned : s.owner = some stream)
    (others : ∀ t : Sheet, t.owner ≠ some stream → f t = t) :
    sheets.map f = sheets.set handle (f s) := by
  apply List.ext_getElem?
  intro place
  rw [List.getElem?_map, List.getElem?_set]
  by_cases here : handle = place
  · subst here
    have inside : handle < sheets.length := (List.getElem?_eq_some_iff.mp found).1
    rw [if_pos rfl, if_pos inside, found, Option.map_some]
  · rw [if_neg here]
    cases there : sheets[place]? with
    | none => rfl
    | some t =>
      -- a second sheet of the stream would give it a second handle
      have foreign : t.owner ≠ some stream := by
        intro also
        have first := (shown.owners stream handle).mpr ⟨s, found, owned⟩
        have second := (shown.owners stream place).mpr ⟨t, there, also⟩
        rw [first, Option.some.injEq] at second
        exact here second
      rw [Option.map_some, others t foreign]

theorem Shows.map_eq_self {b : Boundary} {d : Desk} {sheets : List Sheet} (shown : d.Shows b sheets)
    (stream : StreamId) (f : Sheet → Sheet) (unknown : d.relay.handle? stream = none)
    (others : ∀ t : Sheet, t.owner ≠ some stream → f t = t) : sheets.map f = sheets := by
  have foreign : ∀ t ∈ sheets, f t = id t := by
    intro t member
    refine others t fun owned => ?_
    obtain ⟨place, found⟩ := List.mem_iff_getElem?.mp member
    have known := (shown.owners stream place).mpr ⟨t, found, owned⟩
    rw [unknown] at known
    cases known
  rw [List.map_congr_left foreign, List.map_id]

theorem Shows.taken {b : Boundary} {d : Desk} {sheets : List Sheet} (shown : d.Shows b sheets)
    (stream : StreamId) (f : Sheet → Sheet)
    (taken : ∀ s : Sheet, s.owner = some stream → (f s).owner = none)
    (others : ∀ s : Sheet, s.owner ≠ some stream → f s = s) :
    (∀ other handle, (if other = stream then none else d.relay.handle? other) = some handle ↔
      ∃ s, (sheets.map f)[handle]? = some s ∧ s.owner = some other) ∧
    ∀ s ∈ sheets.map f, s.owner ≠ none → s.closed = false := by
  constructor
  · intro other handle
    rw [Sheet.exists_map_owner]
    simp only [Sheet.owner_of_taking f stream taken others]
    by_cases same : other = stream
    · simp [same]
    · simpa [same] using shown.owners other handle
  · intro s member owned
    obtain ⟨t, among, rfl⟩ := List.mem_map.mp member
    by_cases own : t.owner = some stream
    · exact absurd (taken t own) owned
    · rw [others t own] at owned ⊢
      exact shown.ownedOpen t among owned

/-! What a command makes of the sheets, and what the relay has to know after it. -/

theorem Shows.open_keeps {b : Boundary} {d : Desk} {sheets : List Sheet} (shown : d.Shows b sheets)
    (stream : StreamId) (mime : MediaType) :
    d.writer.Keeps b (sheets.map (·.after (.openPart stream mime))) := by
  apply shown.keeps.map
  · intro s
    simp only [Sheet.after]
    split <;> rfl
  · intro s
    simp only [Sheet.after]
    split <;> rfl

theorem Shows.opened {b : Boundary} {d : Desk} {sheets : List Sheet} (shown : d.Shows b sheets)
    (stream : StreamId) (mime : MediaType) {w : Writer}
    (kept : w.Keeps b (Sheet.next sheets (.openPart stream mime))) :
    Shows b ⟨w, d.relay.assign stream sheets.length⟩ (Sheet.next sheets (.openPart stream mime)) := by
  obtain ⟨owners, ownedOpen⟩ := shown.taken stream (·.after (.openPart stream mime))
    (fun s owned => by simp [Sheet.after, owned]) fun s foreign => if_neg foreign
  refine ⟨kept, fun other handle => ?_, fun s member owned => ?_⟩
  · rw [Relay.handle?_assign, Sheet.next, Sheet.begun, Sheet.exists_append_owner, ← owners]
    by_cases same : other = stream
    · simp [same, eq_comm]
    · simp [same, Ne.symm same]
  · rcases List.mem_append.mp member with earlier | last
    · exact ownedOpen s earlier owned
    · rw [List.mem_singleton.mp last]

theorem Shows.write_unknown {b : Boundary} {d : Desk} {sheets : List Sheet}
    (shown : d.Shows b sheets) (stream : StreamId) (bytes : Octets)
    (unknown : d.relay.handle? stream = none) :
    Sheet.next sheets (.write stream bytes) = sheets :=
  (List.append_nil _).trans (shown.map_eq_self stream _ unknown fun _ foreign => if_neg foreign)

theorem Shows.write_found {b : Boundary} {d : Desk} {sheets : List Sheet} (shown : d.Shows b sheets)
    (stream : StreamId) (bytes : Octets) {handle : Nat}
    (known : d.relay.handle? stream = some handle) :
    ∃ s, sheets[handle]? = some s ∧ s.closed = false ∧
      Sheet.next sheets (.write stream bytes) = sheets.set handle (s.add bytes) := by
  obtain ⟨s, found, owned⟩ := (shown.owners stream handle).mp known
  have written : s.after (.write stream bytes) = s.add bytes := if_pos owned
  refine ⟨s, found, shown.ownedOpen s (List.mem_of_getElem? found) (by simp [owned]), ?_⟩
  exact written ▸ (List.append_nil _).trans
    (shown.map_eq_set stream handle s _ found owned fun _ foreign => if_neg foreign)

theorem Shows.written {b : Boundary} {d : Desk} {sheets : List Sheet} (shown : d.Shows b sheets)
    (stream : StreamId) (bytes : Octets) {w : Writer}
    (kept : w.Keeps b (Sheet.next sheets (.write stream bytes))) :
    Shows b ⟨w, d.relay⟩ (Sheet.next sheets (.write stream bytes)) := by
  have noneBegun : Sheet.next sheets (.write stream bytes) =
      sheets.map (·.after (.write stream bytes)) := List.append_nil _
  refine ⟨kept, fun other place => ?_, fun t member stillOwned => ?_⟩
  · rw [noneBegun, Sheet.exists_map_owner]
    simp only [Sheet.owner_after_write]
    exact shown.owners other place
  · rw [noneBegun] at member
    obtain ⟨t, among, rfl⟩ := List.mem_map.mp member
    rw [Sheet.owner_after_write] at stillOwned
    rw [Sheet.closed_after_write]
    exact shown.ownedOpen t among stillOwned

theorem Shows.close_unknown {b : Boundary} {d : Desk} {sheets : List Sheet}
    (shown : d.Shows b sheets) (stream : StreamId) (unknown : d.relay.handle? stream = none) :
    Sheet.next sheets (.close stream) = sheets :=
  (List.append_nil _).trans (shown.map_eq_self stream _ unknown fun _ foreign => if_neg foreign)

theorem Shows.close_found {b : Boundary} {d : Desk} {sheets : List Sheet} (shown : d.Shows b sheets)
    (stream : StreamId) {handle : Nat} (known : d.relay.handle? stream = some handle) :
    ∃ s, sheets[handle]? = some s ∧ s.closed = false ∧
      Sheet.next sheets (.close stream) = sheets.set handle ⟨s.mime, s.body, none, true⟩ := by
  obtain ⟨s, found, owned⟩ := (shown.owners stream handle).mp known
  have ended : s.after (.close stream) = ⟨s.mime, s.body, none, true⟩ := if_pos owned
  refine ⟨s, found, shown.ownedOpen s (List.mem_of_getElem? found) (by simp [owned]), ?_⟩
  exact ended ▸ (List.append_nil _).trans
    (shown.map_eq_set stream handle s _ found owned fun _ foreign => if_neg foreign)

theorem Shows.shut {b : Boundary} {d : Desk} {sheets : List Sheet} (shown : d.Shows b sheets)
    (stream : StreamId) {w : Writer} (kept : w.Keeps b (Sheet.next sheets (.close stream))) :
    Shows b ⟨w, d.relay.forget stream⟩ (Sheet.next sheets (.close stream)) := by
  have noneBegun : Sheet.next sheets (.close stream) = sheets.map (·.after (.close stream)) :=
    List.append_nil _
  obtain ⟨owners, ownedOpen⟩ := shown.taken stream (·.after (.close stream))
    (fun s owned => by simp [Sheet.after, owned]) fun s foreign => if_neg foreign
  refine ⟨kept, fun other place => ?_, by rwa [noneBegun]⟩
  rw [noneBegun, ← owners, ← Relay.handle?_forget]

theorem Shows.with_queue {b : Boundary} {d : Desk} {sheets : List Sheet} (shown : d.Shows b sheets)
    (queue : List PartCommand) :
    Shows b { d with relay := { d.relay with queue := queue } } sheets :=
  ⟨shown.keeps, shown.owners, shown.ownedOpen⟩

/-- A sheet that no stream owns is no concern of the relay. -/
theorem Shows.unowned {b : Boundary} {d : Desk} {sheets : List Sheet} (shown : d.Shows b sheets)
    {s : Sheet} (nobody : s.owner = none) {w : Writer} (kept : w.Keeps b (sheets ++ [s])) :
    Shows b ⟨w, d.relay⟩ (sheets ++ [s]) := by
  refine ⟨kept, fun stream handle => ?_, fun sheet member owned => ?_⟩
  · rw [Sheet.exists_append_owner, ← shown.owners]
    simp [nobody]
  · rcases List.mem_append.mp member with earlier | last
    · exact shown.ownedOpen sheet earlier owned
    · rw [List.mem_singleton.mp last] at owned
      exact absurd nobody owned

def holding (octets : Octets) (d : Desk) : Desk := { d with writer := d.writer.holding octets }

/-- No panic has struck, and the desk shows these sheets. -/
structure Floats (way : Way) (b : Boundary) (d : Desk) (sheets : List Sheet) : Prop where
  sound : way.sound d.writer.outlet
  shown : Shows b (d.holding d.writer.outlet.arrived) sheets

/-- A panic has struck; with the piece that is lost the desk would show these sheets. -/
structure Struck (way : Way) (b : Boundary) (d : Desk) (sheets : List Sheet) : Prop where
  struck : way.struck d.writer.outlet
  shown : ∃ lost, Shows b (d.holding (d.writer.outlet.arrived ++ lost)) sheets ∧
    Sheet.Torn b sheets d.writer.outlet.arrived lost

theorem Shows.floats {b : Boundary} {d : Desk} {sheets : List Sheet} (shown : d.Shows b sheets) :
    d.Floats .clear b sheets :=
  ⟨shown.keeps.healthy, shown.keeps.floats.keeps, shown.owners, shown.ownedOpen⟩

theorem Floats.clear {b : Boundary} {d : Desk} {sheets : List Sheet}
    (floats : d.Floats .clear b sheets) : d.Shows b sheets :=
  ⟨Writer.Floats.clear ⟨floats.sound, floats.shown.keeps⟩, floats.shown.owners,
    floats.shown.ownedOpen⟩

section

variable {way : Way} {b : Boundary} {d : Desk} {sheets : List Sheet}

theorem Floats.with_queue (floats : d.Floats way b sheets) (queue : List PartCommand) :
    Floats way b { d with relay := { d.relay with queue := queue } } sheets :=
  ⟨floats.sound, floats.shown.with_queue queue⟩

theorem Floats.record_ends (floats : d.Floats way b sheets) (e : Event) :
    (record e).Ends d fun _ after => after.Floats way b sheets ∧ after.relay = d.relay :=
  ⟨(), _, rfl, ⟨way.record e _ floats.sound, floats.shown⟩, rfl⟩

/-- What is left of a command that was being applied: the opening of a part may have got as far as a
sheet that no stream owns. -/
inductive Remnant : List PartCommand → List Sheet → Prop
  | nothing : Remnant [] []
  | opening (stream : StreamId) (mime : MediaType) :
      Remnant [.openPart stream mime] [⟨mime, [], none, false⟩]

/-- Commands have been applied to the sheets, and of these in order the others are still queued. -/
def Carries (way : Way) (b : Boundary) (sheets : List Sheet) (commands : List PartCommand)
    (d : Desk) : Prop :=
  ∃ applied, commands = applied ++ d.relay.queue ∧ d.Floats way b (Sheet.carryOut applied sheets)

/-- A panic has struck while commands were applied. -/
def Sunk (way : Way) (b : Boundary) (sheets : List Sheet) (commands : List PartCommand)
    (d : Desk) : Prop :=
  ∃ applied begun remnant, commands = applied ++ begun ++ d.relay.queue ∧ Remnant begun remnant ∧
    d.Struck way b (Sheet.carryOut applied sheets ++ remnant)

/-- Opening a stream begins a sheet of its own behind all others. -/
theorem apply_open_goes (floats : d.Floats way b sheets) (stream : StreamId) (mime : MediaType) :
    (apply (.openPart stream mime)).Goes d
      (fun _ after => after.Floats way b (Sheet.next sheets (.openPart stream mime)) ∧
        after.relay.queue = d.relay.queue)
      fun after => after.Struck way b (sheets ++ [⟨mime, [], none, false⟩]) ∧
        after.relay.queue = d.relay.queue := by
  have owned : d.writer.Floats way b (sheets.map (·.after (.openPart stream mime))) :=
    ⟨floats.sound, floats.shown.open_keeps stream mime⟩
  have unowned : d.writer.Floats way b sheets := ⟨floats.sound, floats.shown.keeps⟩
  -- the new sheet has an owner once the relay knows it, and no owner if the panic comes before that
  have opened := (Writer.openPart_goes mime (some stream) owned).and
    (Writer.openPart_goes mime none unowned)
  refine goes_get_bind _ _ ((opened.within.weaken (fun _ _ => id) ?_).bind ?_)
  · rintro _ ⟨w, ⟨-, struck, lost, kept, torn⟩, rfl⟩
    exact ⟨⟨struck, lost, floats.shown.unowned rfl kept, torn⟩, rfl⟩
  · rintro handle _ ⟨w, ⟨⟨rfl, still⟩, -⟩, rfl⟩
    refine (ends_modify _ _ _ ⟨⟨still.sound, ?_⟩, rfl⟩).goes
    rw [List.length_map]
    exact floats.shown.opened stream mime still.keeps

/-- Writing to a stream writes to the sheet that it owns, if it owns one; a stream that owns none is
only reported. -/
theorem apply_write_goes (floats : d.Floats way b sheets) (stream : StreamId) (bytes : Octets) :
    (apply (.write stream bytes)).Goes d
      (fun _ after => after.Floats way b (Sheet.next sheets (.write stream bytes)) ∧
        after.relay.queue = d.relay.queue)
      fun after => after.Struck way b (Sheet.next sheets (.write stream bytes)) ∧
        after.relay.queue = d.relay.queue := by
  apply goes_get_bind
  cases known : d.relay.handle? stream with
  | none =>
    rw [floats.shown.write_unknown stream bytes known]
    simp only [known]
    refine ((floats.record_ends _).weaken ?_).goes
    rintro _ after ⟨still, same⟩
    exact ⟨still, by rw [same]⟩
  | some handle =>
    obtain ⟨s, found, isOpen, moved⟩ := floats.shown.write_found stream bytes known
    simp only [known]
    have written := Writer.write_goes (w := d.writer) handle bytes
      ⟨floats.sound, floats.shown.keeps⟩ s found isOpen
    refine written.within.weaken ?_ ?_
    · rintro _ _ ⟨w, still, rfl⟩
      exact ⟨⟨still.sound, floats.shown.written stream bytes (moved ▸ still.keeps)⟩, rfl⟩
    · rintro _ ⟨w, ⟨struck, lost, kept, torn⟩, rfl⟩
      exact ⟨⟨struck, lost, floats.shown.written stream bytes (moved ▸ kept), moved ▸ torn⟩, rfl⟩

/-- Closing a stream closes the sheet that it owns, if it owns one. -/
theorem apply_close_goes (floats : d.Floats way b sheets) (stream : StreamId) :
    (apply (.close stream)).Goes d
      (fun _ after => after.Floats way b (Sheet.next sheets (.close stream)) ∧
        after.relay.queue = d.relay.queue)
      fun after => after.Struck way b (Sheet.next sheets (.close stream)) ∧
        after.relay.queue = d.relay.queue := by
  apply goes_get_bind
  cases known : d.relay.handle? stream with
  | none =>
    rw [floats.shown.close_unknown stream known]
    simp only [known]
    refine ((floats.record_ends _).weaken ?_).goes
    rintro _ after ⟨still, same⟩
    exact ⟨still, by rw [same]⟩
  | some handle =>
    obtain ⟨s, found, isOpen, moved⟩ := floats.shown.close_found stream known
    simp only [known]
    have closed := Writer.closePart_goes (w := d.writer) handle ⟨floats.sound, floats.shown.keeps⟩ s
      ⟨s.mime, s.body, none, true⟩ found isOpen rfl rfl rfl
    refine goes_modify_bind _ _ (Goes.weaken closed.within ?_ ?_)
    · rintro _ _ ⟨w, still, rfl⟩
      exact ⟨⟨still.sound, floats.shown.shut stream (moved ▸ still.keeps)⟩, rfl⟩
    · rintro _ ⟨w, ⟨struck, lost, kept, torn⟩, rfl⟩
      exact ⟨⟨struck, lost, floats.shown.shut stream (moved ▸ kept), moved ▸ torn⟩, rfl⟩

theorem apply_goes (floats : d.Floats way b sheets) (c : PartCommand) :
    (apply c).Goes d
      (fun _ after => after.Floats way b (Sheet.next sheets c) ∧
        after.relay.queue = d.relay.queue)
      (Sunk way b sheets (c :: d.relay.queue)) := by
  have applied (after : Desk) (struck : after.Struck way b (Sheet.next sheets c) ∧
      after.relay.queue = d.relay.queue) : after.Sunk way b sheets (c :: d.relay.queue) :=
    ⟨[c], [], [], by rw [struck.2]; rfl, .nothing, by simpa [Sheet.carryOut] using struck.1⟩
  cases c with
  | openPart stream mime =>
    refine (apply_open_goes floats stream mime).weaken (fun _ _ => id) ?_
    rintro after ⟨struck, same⟩
    exact ⟨[], _, _, by rw [same]; rfl, .opening stream mime, struck⟩
  | write stream bytes => exact (apply_write_goes floats stream bytes).weaken (fun _ _ => id) applied
  | close stream => exact (apply_close_goes floats stream).weaken (fun _ _ => id) applied

variable {commands : List PartCommand}

theorem record_ends (e : Event) (carries : d.Carries way b sheets commands) :
    (record e).Ends d fun _ after => after.Carries way b sheets commands := by
  obtain ⟨applied, due, floats⟩ := carries
  apply (floats.record_ends e).weaken
  rintro _ after ⟨still, same⟩
  exact ⟨applied, by rw [due, same], still⟩

theorem enqueue_ends (c : PartCommand) (carries : d.Carries way b sheets commands) :
    (enqueue c).Ends d fun _ after => after.Carries way b sheets (commands ++ [c]) := by
  obtain ⟨applied, due, floats⟩ := carries
  exact ends_modify _ _ _ ⟨applied, by rw [due, List.append_assoc], floats.with_queue _⟩

/-- A command that is applied leaves the queue, and the commands are the same in total. -/
theorem take_goes {c : PartCommand} {rest : List PartCommand}
    (carries : d.Carries way b sheets commands) (waiting : d.relay.queue = c :: rest) :
    (apply c).Goes { d with relay := { d.relay with queue := rest } }
      (fun _ after => after.Carries way b sheets commands ∧ after.relay.queue = rest)
      (Sunk way b sheets commands) := by
  obtain ⟨applied, due, floats⟩ := carries
  refine (apply_goes (floats.with_queue rest) c).weaken ?_ ?_
  · rintro _ after ⟨next, sameQueue⟩
    refine ⟨⟨applied ++ [c], ?_, by rwa [Sheet.carryOut_append]⟩, sameQueue⟩
    rw [due, waiting, sameQueue, List.append_assoc]
    rfl
  · rintro after ⟨more, begun, remnant, split, left, struck⟩
    refine ⟨applied ++ more, begun, remnant, ?_, left, by rwa [Sheet.carryOut_append]⟩
    rw [due, waiting, List.append_assoc, List.append_assoc, ← List.append_assoc more]
    exact congrArg _ split

theorem step_goes (carries : d.Carries way b sheets commands) :
    step.Goes d (fun _ after => after.Carries way b sheets commands)
      (Sunk way b sheets commands) := by
  apply goes_get_bind
  cases waiting : d.relay.queue with
  | nil =>
    simp only [waiting]
    exact goes_pure _ _ carries
  | cons c rest =>
    simp only [waiting]
    refine goes_modify_bind _ _ ((take_goes carries waiting).bind ?_)
    rintro _ after ⟨still, -⟩
    exact goes_pure _ _ still

theorem drainList_goes (queued : List PartCommand) (carries : d.Carries way b sheets commands)
    (waiting : d.relay.queue = queued) :
    (drainList queued).Goes d (fun _ after =>
        after.Floats way b (Sheet.carryOut commands sheets) ∧ after.relay.queue = [])
      (Sunk way b sheets commands) := by
  induction queued generalizing d with
  | nil =>
    obtain ⟨applied, due, floats⟩ := carries
    rw [waiting, List.append_nil] at due
    exact goes_pure _ _ ⟨due ▸ floats, waiting⟩
  | cons c rest ih =>
    refine goes_modify_bind _ _ ((take_goes carries waiting).bind ?_)
    rintro _ after ⟨still, left⟩
    exact ih still left

/-- However many commands have been applied early, draining the queue shows all of them. -/
theorem drain_goes (carries : d.Carries way b sheets commands) :
    drain.Goes d (fun _ after =>
        after.Floats way b (Sheet.carryOut commands sheets) ∧ after.relay.queue = [])
      (Sunk way b sheets commands) :=
  goes_get_bind _ _ (drainList_goes _ carries rfl)

theorem Floats.carries (floats : d.Floats way b sheets) :
    d.Carries way b sheets d.relay.queue :=
  ⟨[], rfl, floats⟩

theorem Sunk.not_clear (sunk : d.Sunk .clear b sheets commands) : False := by
  obtain ⟨_, _, _, -, -, struck⟩ := sunk
  exact struck.struck

end

end Desk
end Multicall
