import Multicall.Module.Course
import Multicall.Proofs.Delivery
/-!
The order of the parts. The sheets of a response are its parts in opening order, each with all that
was written to it so far. What has arrived, followed by the buffers that still wait, is always the
text of the sheets: a part that closes early waits behind the open ones before it, and nothing is
lost, repeated or moved on the way.
-/
namespace Multicall

structure Sheet where
  mime : String
  body : Octets
  owner : Option StreamId
  closed : Bool

namespace Sheet

/-- The octets of a sheet: its head, its body, and once it is closed the end of the line. -/
def octets (b : Boundary) (s : Sheet) : Octets :=
  Octets.ofText (b.preamble s.mime) ++ s.body ++ if s.closed then Writer.lineEnd else []

def add (bytes : Octets) (s : Sheet) : Sheet := { s with body := s.body ++ bytes }

def ended (s : Sheet) : Sheet := { s with closed := true }

theorem octets_add (b : Boundary) (bytes : Octets) (s : Sheet) (isOpen : s.closed = false) :
    (s.add bytes).octets b = s.octets b ++ bytes := by
  simp [octets, add, isOpen]

theorem octets_of_closing (b : Boundary) (s shut : Sheet) (isOpen : s.closed = false)
    (mime : shut.mime = s.mime) (body : shut.body = s.body) (closed : shut.closed = true) :
    shut.octets b = s.octets b ++ Writer.lineEnd := by
  simp [octets, isOpen, mime, body, closed]

/-- What has arrived of these sheets ends inside of one. Those in front of it have arrived whole, and
the piece that is missing is the end of what had been given of its text. -/
def Torn (b : Boundary) (sheets : List Sheet) (arrived lost : Octets) : Prop :=
  ∃ gone sheet later front, sheets = gone ++ sheet :: later ∧ (∀ s ∈ gone, s.closed = true) ∧
    arrived = gone.flatMap (octets b) ++ front ∧ sheet.octets b = front ++ lost

theorem Torn.later {b : Boundary} {sheets : List Sheet} {arrived taken lost : Octets}
    (torn : Torn b sheets arrived (taken ++ lost)) : Torn b sheets (arrived ++ taken) lost := by
  obtain ⟨gone, sheet, others, front, split, closed, came, text⟩ := torn
  exact ⟨gone, sheet, others, front ++ taken, split, closed, by rw [came, List.append_assoc],
    by rw [text, List.append_assoc]⟩

end Sheet

namespace Writer

open Multicall.Action

/-- The parts that wait are the sheets from some handle on; `sent` is what has left already of the
first of them. -/
def Awaits (b : Boundary) : (handle : Nat) → (sent : Octets) → List Part → List Sheet → Prop
  | _, sent, [], sheets => sheets = [] ∧ sent = []
  | _, _, _ :: _, [] => False
  | handle, sent, part :: parts, sheet :: sheets =>
      part.handle = handle ∧ part.closed = sheet.closed ∧
        sheet.octets b = sent ++ part.buffer.toList ∧ Awaits b (handle + 1) [] parts sheets

/-- The writer has been given these sheets: those in front are closed and have arrived, the others
wait. -/
structure Keeps (b : Boundary) (w : Writer) (sheets : List Sheet) : Prop where
  healthy : w.outlet.Healthy
  boundary : w.boundary = b
  chunk : 0 < w.chunkSize
  next : w.nextHandle = sheets.length
  order : ∃ gone waiting sent, sheets = gone ++ waiting ∧ (∀ s ∈ gone, s.closed = true) ∧
    w.outlet.arrived = gone.flatMap (Sheet.octets b) ++ sent ∧
    Awaits b gone.length sent w.parts waiting

/-- Nothing can be sent: the first part that waits is open and holds less than a chunk. -/
def Idle (w : Writer) : Prop :=
  ∀ head rest, w.parts = head :: rest → head.closed = false ∧ head.buffer.size < w.chunkSize

theorem start_keeps (peer : Peer) (b : Boundary) (chunkSize : Nat) (takesAll : peer.TakesAll) :
    (start peer b chunkSize).Keeps b [] where
  healthy := ⟨rfl, takesAll⟩
  boundary := rfl
  chunk := by simp only [start]; omega
  next := rfl
  order := ⟨[], [], [], rfl, by simp, rfl, rfl, rfl⟩

/-- A writer of the same parts and handles keeps the same sheets once as much has arrived. -/
theorem Keeps.of_outlet {b : Boundary} {w : Writer} {sheets : List Sheet} (keeps : w.Keeps b sheets)
    (outlet : Outlet) (healthy : outlet.Healthy) (same : outlet.arrived = w.outlet.arrived) :
    Keeps b { w with outlet := outlet } sheets where
  healthy := healthy
  boundary := keeps.boundary
  chunk := keeps.chunk
  next := keeps.next
  order := by simpa only [same] using keeps.order

/-- The writer with a sound outlet at which these octets have arrived. -/
def holding (octets : Octets) (w : Writer) : Writer := { w with outlet := .holding octets }

/-- No panic has struck, and the writer has been given these sheets. -/
structure Floats (way : Way) (b : Boundary) (w : Writer) (sheets : List Sheet) : Prop where
  sound : way.sound w.outlet
  keeps : Keeps b (w.holding w.outlet.arrived) sheets

/-- A panic has struck; the writer has been given these sheets, but a piece of one of them is lost
behind what has arrived. -/
structure Struck (way : Way) (b : Boundary) (w : Writer) (sheets : List Sheet) : Prop where
  struck : way.struck w.outlet
  keeps : ∃ lost, Keeps b (w.holding (w.outlet.arrived ++ lost)) sheets ∧
    Sheet.Torn b sheets w.outlet.arrived lost

theorem Keeps.floats {b : Boundary} {w : Writer} {sheets : List Sheet} (keeps : w.Keeps b sheets) :
    w.Floats .clear b sheets :=
  ⟨keeps.healthy, keeps.of_outlet _ (Outlet.holding_healthy _) rfl⟩

theorem Floats.clear {b : Boundary} {w : Writer} {sheets : List Sheet}
    (floats : w.Floats .clear b sheets) : w.Keeps b sheets :=
  floats.keeps.of_outlet w.outlet floats.sound rfl

section

variable {way : Way} {b : Boundary} {sheets : List Sheet} {w : Writer}

/-- Sending what brings the writer to these sheets brings it there, or a panic tears one of them. -/
theorem send_goes (block : Octets) (w : Writer) (sound : way.sound w.outlet)
    (kept : Keeps b (w.holding (w.outlet.arrived ++ block)) sheets)
    (torn : Sheet.Torn b sheets w.outlet.arrived block) :
    (send block).Goes w (fun _ after => after.Floats way b sheets ∧ after.parts = w.parts ∧
      after.chunkSize = w.chunkSize) (Struck way b · sheets) := by
  refine (way.send block w.outlet sound).within.weaken ?_ ?_
  · rintro _ _ ⟨o, ⟨still, arrived⟩, rfl⟩
    exact ⟨⟨still, arrived ▸ kept⟩, rfl, rfl⟩
  · rintro _ ⟨o, ⟨struck, taken, lost, rfl, arrived⟩, rfl⟩
    refine ⟨struck, lost, ?_, arrived ▸ torn.later⟩
    rw [← List.append_assoc, ← arrived] at kept
    exact kept

theorem flush_ends (floats : w.Floats way b sheets) :
    flush.Ends w fun _ after => after.Floats way b sheets ∧ after.parts = w.parts ∧
      after.chunkSize = w.chunkSize := by
  apply (way.flush w.outlet floats.sound).within.weaken
  rintro _ _ ⟨o, ⟨still, arrived⟩, rfl⟩
  exact ⟨⟨still, arrived ▸ floats.keeps⟩, rfl, rfl⟩

theorem record_ends (e : Event) (floats : w.Floats way b sheets) :
    (record e).Ends w fun _ after => after.Floats way b sheets :=
  ⟨(), _, rfl, way.record e _ floats.sound, floats.keeps⟩

end

theorem Keeps.front {b : Boundary} {w : Writer} {sheets : List Sheet} {head : Part}
    {rest : List Part} (keeps : w.Keeps b sheets) (parts : w.parts = head :: rest) :
    ∃ gone sheet later sent, sheets = gone ++ sheet :: later ∧ (∀ s ∈ gone, s.closed = true) ∧
      w.outlet.arrived = gone.flatMap (Sheet.octets b) ++ sent ∧
      Awaits b gone.length sent (head :: rest) (sheet :: later) := by
  obtain ⟨gone, waiting, sent, split, closed, arrived, awaits⟩ := keeps.order
  rw [parts] at awaits
  cases waiting with
  | nil => exact awaits.elim
  | cons sheet later => exact ⟨gone, sheet, later, sent, split, closed, arrived, awaits⟩

/-- Where the buffer of the first part is lost, its sheet is torn. -/
theorem Keeps.torn {b : Boundary} {w : Writer} {sheets : List Sheet} {head : Part}
    {rest : List Part} (keeps : w.Keeps b sheets) (parts : w.parts = head :: rest) :
    Sheet.Torn b sheets w.outlet.arrived head.buffer.toList := by
  obtain ⟨gone, sheet, later, sent, split, closed, arrived, -, -, text, -⟩ := keeps.front parts
  exact ⟨gone, sheet, later, sent, split, closed, arrived, text⟩

/-- A closed part in front has arrived as a whole once its buffer has. -/
theorem Keeps.passed {b : Boundary} {w : Writer} {sheets : List Sheet} {head : Part}
    {rest : List Part} (keeps : w.Keeps b sheets) (parts : w.parts = head :: rest)
    (shut : head.closed = true) {outlet : Outlet} (healthy : outlet.Healthy)
    (more : outlet.arrived = w.outlet.arrived ++ head.buffer.toList) :
    Keeps b { w with parts := rest, outlet := outlet } sheets := by
  obtain ⟨gone, sheet, later, sent, split, closed, arrived, -, same, text, others⟩ :=
    keeps.front parts
  refine ⟨healthy, keeps.boundary, keeps.chunk, keeps.next, gone ++ [sheet], later, [], ?_, ?_,
    ?_, ?_⟩
  · simp [split]
  · intro s member
    rcases List.mem_append.mp member with early | last
    · exact closed s early
    · rw [List.mem_singleton.mp last, ← same, shut]
  · simp [more, arrived, text]
  · simpa using others

/-- An open part in front keeps its place with an empty buffer. -/
theorem Keeps.emptied {b : Boundary} {w : Writer} {sheets : List Sheet} {head : Part}
    {rest : List Part} (keeps : w.Keeps b sheets) (parts : w.parts = head :: rest)
    {outlet : Outlet} (healthy : outlet.Healthy)
    (more : outlet.arrived = w.outlet.arrived ++ head.buffer.toList) :
    Keeps b { w with parts := { head with buffer := #[] } :: rest, outlet := outlet } sheets := by
  obtain ⟨gone, sheet, later, sent, split, closed, arrived, handle, same, text, others⟩ :=
    keeps.front parts
  refine ⟨healthy, keeps.boundary, keeps.chunk, keeps.next, gone, sheet :: later,
    sent ++ head.buffer.toList, split, closed, ?_, handle, same, ?_, others⟩
  · simp [more, arrived]
  · simp [text]

section

variable {way : Way} {b : Boundary} {sheets : List Sheet} {w : Writer}

/-- Releasing moves octets from the front of the queue to the peer and changes no sheet. A part leaves
the queue before it is sent, so what a panic cuts off of it is lost. -/
theorem release_goes (parts : List Part) (given : Bool) (w : Writer)
    (floats : w.Floats way b sheets) (front : w.parts = parts) :
    (release w.chunkSize given parts).Goes w
      (fun _ after => after.Floats way b sheets ∧ after.Idle) (Struck way b · sheets) := by
  -- induction on the queue: closed parts leave it whole, and the first that is open ends the release
  induction parts generalizing given w with
  | nil =>
    refine goes_pure _ _ ⟨floats, ?_⟩
    intro head rest nonempty
    rw [front] at nonempty
    cases nonempty
  | cons head rest ih =>
    rw [release]
    by_cases shut : head.closed = true
    · rw [if_pos shut]
      apply goes_modify_bind
      refine (send_goes head.buffer.toList { w with parts := rest } floats.sound ?_
        (floats.keeps.torn front)).bind ?_
      · exact floats.keeps.passed front shut (Outlet.holding_healthy _) rfl
      · rintro _ after ⟨still, left, same⟩
        rw [← same]
        exact ih true after still left
    · rw [if_neg shut]
      by_cases full : w.chunkSize ≤ head.buffer.size
      · rw [if_pos full]
        apply goes_modify_bind
        refine (send_goes head.buffer.toList
          { w with parts := { head with buffer := #[] } :: rest } floats.sound ?_
          (floats.keeps.torn front)).bind ?_
        · exact floats.keeps.emptied front (Outlet.holding_healthy _) rfl
        · rintro _ after ⟨still, left, same⟩
          refine goes_pure _ _ ⟨still, ?_⟩
          intro first others begins
          rw [left] at begins
          cases begins
          exact ⟨by simpa using shut, same ▸ floats.keeps.chunk⟩
      · -- an open part that holds less than a chunk stays where it is
        rw [if_neg full]
        refine goes_pure _ _ ⟨floats, ?_⟩
        intro first others same
        rw [front] at same
        cases same
        exact ⟨by simpa using shut, by omega⟩

theorem pump_goes (floats : w.Floats way b sheets) :
    pump.Goes w (fun _ after => after.Floats way b sheets ∧ after.Idle) (Struck way b · sheets) := by
  refine goes_get_bind _ _ ((release_goes w.parts false w floats rfl).bind ?_)
  rintro given middle ⟨still, idle⟩
  cases given with
  | false => exact goes_pure _ _ ⟨still, idle⟩
  | true =>
    apply ((flush_ends still).weaken _).goes
    rintro _ after ⟨still, parts, same⟩
    refine ⟨still, ?_⟩
    rwa [Idle, parts, same]

end

theorem awaits_append (b : Boundary) (part : Part) (sheet : Sheet) (parts : List Part)
    (sheets : List Sheet) (handle : Nat) (sent : Octets) (awaits : Awaits b handle sent parts sheets)
    (last : part.handle = handle + sheets.length) (same : part.closed = sheet.closed)
    (whole : sheet.octets b = part.buffer.toList) :
    Awaits b handle sent (parts ++ [part]) (sheets ++ [sheet]) := by
  induction parts generalizing sheets handle sent with
  | nil =>
    obtain ⟨rfl, rfl⟩ := awaits
    exact ⟨by simpa using last, same, by simpa using whole, rfl, rfl⟩
  | cons head rest ih =>
    cases sheets with
    | nil => exact awaits.elim
    | cons first later =>
      obtain ⟨own, agreed, text, others⟩ := awaits
      refine ⟨own, agreed, text, ih later (handle + 1) [] others ?_⟩
      rw [last, List.length_cons]
      omega

/-- A part that is put behind all others, with its head for a buffer, begins a sheet. -/
theorem Keeps.opened {b : Boundary} {w : Writer} {sheets : List Sheet} (keeps : w.Keeps b sheets)
    (mime : String) (owner : Option StreamId) :
    Keeps b
      { w with
        parts := w.parts ++
          [⟨w.nextHandle, (Octets.ofText (w.boundary.preamble mime)).toArray, false⟩]
        nextHandle := w.nextHandle + 1 }
      (sheets ++ [⟨mime, [], owner, false⟩]) := by
  obtain ⟨gone, waiting, sent, split, closed, arrived, awaits⟩ := keeps.order
  refine ⟨keeps.healthy, keeps.boundary, keeps.chunk, by simp [keeps.next],
    gone, waiting ++ [⟨mime, [], owner, false⟩], sent, by simp [split], closed, arrived, ?_⟩
  refine awaits_append b _ _ _ _ _ _ awaits ?_ rfl ?_
  · simp [keeps.next, split]
  · simp [Sheet.octets, keeps.boundary]

theorem openPart_idles {way : Way} {b : Boundary} {sheets : List Sheet} {w : Writer} (mime : String)
    (owner : Option StreamId) (floats : w.Floats way b sheets) :
    (openPart mime).Goes w (fun handle after => handle = sheets.length ∧
        after.Floats way b (sheets ++ [⟨mime, [], owner, false⟩]) ∧ after.Idle)
      (Struck way b · (sheets ++ [⟨mime, [], owner, false⟩])) := by
  apply goes_get_bind
  apply goes_modify_bind
  refine Goes.bind (pump_goes ?_) ?_
  · exact ⟨floats.sound, floats.keeps.opened mime owner⟩
  · intro _ after pumped
    exact goes_pure _ _ ⟨floats.keeps.next, pumped⟩

theorem openPart_goes {way : Way} {b : Boundary} {sheets : List Sheet} {w : Writer} (mime : String)
    (owner : Option StreamId) (floats : w.Floats way b sheets) :
    (openPart mime).Goes w (fun handle after => handle = sheets.length ∧
        after.Floats way b (sheets ++ [⟨mime, [], owner, false⟩]))
      (Struck way b · (sheets ++ [⟨mime, [], owner, false⟩])) := by
  apply (openPart_idles mime owner floats).weaken _ fun _ => id
  exact fun _ _ ⟨place, still, _⟩ => ⟨place, still⟩

/-- What is added to an open sheet is added to the buffer of its part. -/
theorem awaits_update (b : Boundary) (bytes : Octets) (close : Bool) (sheet updated : Sheet)
    (isOpen : sheet.closed = false) (text : updated.octets b = sheet.octets b ++ bytes)
    (sameClosed : updated.closed = close) (parts : List Part) (sheets : List Sheet)
    (handle index : Nat) (sent : Octets) (awaits : Awaits b handle sent parts sheets)
    (found : sheets[index]? = some sheet) :
    ∃ after, append (handle + index) bytes close parts = (after, true) ∧
      Awaits b handle sent after (sheets.set index updated) := by
  induction parts generalizing sheets handle index sent with
  | nil =>
    obtain ⟨rfl, -⟩ := awaits
    simp at found
  | cons head rest ih =>
    obtain ⟨own, buffer, closed⟩ := head
    cases sheets with
    | nil => exact awaits.elim
    | cons first later =>
      obtain ⟨rfl, same, whole, others⟩ := awaits
      cases index with
      | zero =>
        simp only [List.getElem?_cons_zero, Option.some.injEq] at found
        subst found
        simp only at same whole
        rw [isOpen] at same
        refine ⟨⟨own, buffer ++ bytes, close⟩ :: rest, ?_, rfl, sameClosed.symm, ?_, others⟩
        · simp [append, same]
        · simp [text, whole]
      | succ index =>
        simp only [List.getElem?_cons_succ] at found
        obtain ⟨after, appended, kept⟩ := ih later (own + 1) index [] others found
        have elsewhere : (own == own + (index + 1)) = false := by simp
        have shifted : own + (index + 1) = own + 1 + index := by omega
        refine ⟨⟨own, buffer, closed⟩ :: after, ?_, rfl, same, whole, kept⟩
        rw [append, elsewhere, Bool.false_and, if_neg Bool.false_ne_true, shifted, appended]

/-- The part of an open sheet is found, and what is added to it is added to the sheet. -/
theorem Keeps.updated {b : Boundary} {w : Writer} {sheets : List Sheet} (keeps : w.Keeps b sheets)
    (handle : Nat) (bytes : Octets) (close : Bool) (sheet updated : Sheet)
    (found : sheets[handle]? = some sheet) (isOpen : sheet.closed = false)
    (text : updated.octets b = sheet.octets b ++ bytes) (sameClosed : updated.closed = close) :
    ∃ parts, append handle bytes close w.parts = (parts, true) ∧
      Keeps b { w with parts := parts } (sheets.set handle updated) := by
  obtain ⟨gone, waiting, sent, split, closed, arrived, awaits⟩ := keeps.order
  -- the sheets that are gone are closed, so this one still waits
  have behind : gone.length ≤ handle := by
    apply Nat.le_of_not_lt
    intro before
    rw [split, List.getElem?_append_left before] at found
    have shut := closed sheet (List.mem_of_getElem? found)
    rw [isOpen] at shut
    cases shut
  have place : gone.length + (handle - gone.length) = handle := by omega
  rw [split, List.getElem?_append_right behind] at found
  obtain ⟨parts, appended, kept⟩ := awaits_update b bytes close sheet updated isOpen text sameClosed
    w.parts waiting gone.length (handle - gone.length) sent awaits found
  rw [place] at appended
  refine ⟨parts, appended, keeps.healthy, keeps.boundary, keeps.chunk, by simp [keeps.next],
    gone, waiting.set (handle - gone.length) updated, sent, ?_, closed, arrived, kept⟩
  rw [split, List.set_append_right _ _ behind]

section

variable {way : Way} {b : Boundary} {sheets : List Sheet} {w : Writer}

/-- With an open part for it, a command is a change of the queue and a pump. -/
theorem onPart_of_open {handle : Nat} {bytes : Octets} {close : Bool} {parts : List Part}
    (appended : append handle bytes close w.parts = (parts, true)) (otherwise : Event) :
    onPart handle bytes close otherwise w = pump { w with parts := parts } := by
  obtain ⟨outlet, boundary, chunkSize, old, nextHandle⟩ := w
  simp only at appended
  simp only [onPart, appended]

/-- Adding to the open part with a handle changes the sheet at that place and no other, and leaves
nothing that can be sent. -/
theorem onPart_goes (handle : Nat) (bytes : Octets) (close : Bool) (otherwise : Event)
    (floats : w.Floats way b sheets) (sheet updated : Sheet) (found : sheets[handle]? = some sheet)
    (isOpen : sheet.closed = false) (text : updated.octets b = sheet.octets b ++ bytes)
    (sameClosed : updated.closed = close) :
    (onPart handle bytes close otherwise).Goes w
      (fun _ after => after.Floats way b (sheets.set handle updated) ∧ after.Idle)
      (Struck way b · (sheets.set handle updated)) := by
  obtain ⟨parts, appended, changed⟩ :=
    floats.keeps.updated handle bytes close sheet updated found isOpen text sameClosed
  have pumped : pump.Goes { w with parts := parts } _ _ := pump_goes ⟨floats.sound, changed⟩
  rwa [Goes, onPart_of_open (w := w) appended]

theorem write_goes (handle : Nat) (bytes : Octets) (floats : w.Floats way b sheets) (sheet : Sheet)
    (found : sheets[handle]? = some sheet) (isOpen : sheet.closed = false) :
    (write handle bytes).Goes w
      (fun _ after => after.Floats way b (sheets.set handle (sheet.add bytes)))
      (Struck way b · (sheets.set handle (sheet.add bytes))) :=
  (onPart_goes handle bytes false _ floats sheet _ found isOpen
    (Sheet.octets_add b bytes sheet isOpen) isOpen).weaken (fun _ _ => And.left) fun _ => id

theorem closePart_goes (handle : Nat) (floats : w.Floats way b sheets) (sheet shut : Sheet)
    (found : sheets[handle]? = some sheet) (isOpen : sheet.closed = false)
    (mime : shut.mime = sheet.mime) (body : shut.body = sheet.body) (closed : shut.closed = true) :
    (closePart handle).Goes w (fun _ after => after.Floats way b (sheets.set handle shut))
      (Struck way b · (sheets.set handle shut)) :=
  (onPart_goes handle lineEnd true _ floats sheet shut found isOpen
    (Sheet.octets_of_closing b sheet shut isOpen mime body closed) closed).weaken
      (fun _ _ => And.left) fun _ => id

end

theorem awaits_ended (b : Boundary) (parts : List Part) (sheets : List Sheet) (handle : Nat)
    (sent : Octets) (awaits : Awaits b handle sent parts sheets) :
    Awaits b handle sent (parts.map closed) (sheets.map Sheet.ended) := by
  induction parts generalizing sheets handle sent with
  | nil =>
    obtain ⟨rfl, rfl⟩ := awaits
    exact ⟨rfl, rfl⟩
  | cons head rest ih =>
    cases sheets with
    | nil => exact awaits.elim
    | cons sheet later =>
      obtain ⟨own, same, text, others⟩ := awaits
      cases isOpen : sheet.closed with
      | true =>
        have shut : head.closed = true := same.trans isOpen
        have unchanged : sheet.ended = sheet := by rw [Sheet.ended, ← isOpen]
        have stays : closed head = head := by rw [closed, if_pos shut]
        rw [List.map_cons, List.map_cons, unchanged, stays]
        exact ⟨own, same, text, ih later (handle + 1) [] others⟩
      | false =>
        have stillOpen : head.closed = false := same.trans isOpen
        have ends : closed head = { head with buffer := head.buffer ++ lineEnd, closed := true } := by
          rw [closed, stillOpen, if_neg Bool.false_ne_true]
        rw [List.map_cons, List.map_cons, ends]
        refine ⟨own, rfl, ?_, ih later (handle + 1) [] others⟩
        rw [Sheet.octets_of_closing b sheet sheet.ended isOpen rfl rfl rfl, text]
        simp

/-- Once every sheet is closed and nothing more can be sent, all of them have arrived. -/
theorem arrived_of_idle (b : Boundary) (sheets : List Sheet) (w : Writer) (keeps : w.Keeps b sheets)
    (idle : w.Idle) (allClosed : ∀ s ∈ sheets, s.closed = true) :
    w.outlet.arrived = sheets.flatMap (Sheet.octets b) := by
  cases parts : w.parts with
  | nil =>
    obtain ⟨gone, waiting, sent, split, -, arrived, awaits⟩ := keeps.order
    rw [parts] at awaits
    obtain ⟨rfl, rfl⟩ := awaits
    rw [arrived, split, List.append_nil, List.append_nil]
  | cons head rest =>
    -- the part in front would be open, but its sheet is closed
    obtain ⟨gone, sheet, later, sent, split, -, -, -, same, -⟩ := keeps.front parts
    have shut := allClosed sheet (by simp [split])
    have stillOpen := (idle head rest parts).1
    rw [same, shut] at stillOpen
    cases stillOpen

/-- The end of a response: all sheets closed, in order, and the closing line. -/
theorem finish_ends (b : Boundary) (sheets : List Sheet) (w : Writer) (keeps : w.Keeps b sheets) :
    finish.Ends w fun _ after => after.outlet.arrived =
      sheets.flatMap (fun s => s.ended.octets b) ++ Octets.ofText b.terminator := by
  have closing : Keeps b { w with parts := w.parts.map closed } (sheets.map Sheet.ended) := by
    obtain ⟨gone, waiting, sent, split, allClosed, arrived, awaits⟩ := keeps.order
    have unchanged : gone.map Sheet.ended = gone :=
      (List.map_congr_left fun s member => by rw [Sheet.ended, ← allClosed s member, id]).trans
        (List.map_id gone)
    refine ⟨keeps.healthy, keeps.boundary, keeps.chunk, by simp [keeps.next],
      gone, waiting.map Sheet.ended, sent, by rw [split, List.map_append, unchanged], allClosed,
      arrived, awaits_ended b _ _ _ _ awaits⟩
  apply ends_modify_bind
  refine Ends.bind (Goes.ends ((pump_goes closing.floats).weaken (fun _ _ => id)
    fun _ struck => struck.struck)) ?_
  rintro _ pumped ⟨floats, idle⟩
  have kept := floats.clear
  -- with every part closed, pumping leaves nothing behind
  have whole := arrived_of_idle b _ pumped kept idle (by simp [Sheet.ended])
  apply ends_get_bind
  apply (Outlet.send_ends _ pumped.outlet kept.healthy).within.bind
  rintro _ _ ⟨outlet, ⟨healthy, more⟩, rfl⟩
  apply (Outlet.flush_ends outlet healthy).within.bind
  rintro _ _ ⟨last, ⟨-, same⟩, rfl⟩
  apply (Outlet.shutdown_ends last).within.weaken
  rintro _ _ ⟨final, unchanged, rfl⟩
  calc final.arrived = outlet.arrived := unchanged.trans same
    _ = _ := by rw [more, whole, kept.boundary, List.flatMap_map]

end Writer
end Multicall
