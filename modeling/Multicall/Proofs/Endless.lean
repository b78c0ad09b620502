import Multicall.Proofs.ChunkSize
import Multicall.Proofs.Room
import Multicall.Proofs.Truncation
/-!
Batches with endless sequences. Once a transport has failed every sequence is given up at once, so what
matters is the first endless one. If no part that a module opened before it is still open, its part
comes to the front of the queue and it runs into the end of the room; what is left of the batch is then
written to nobody. If such a part is open, the sequence may go on for ever.
-/
namespace Multicall

open Multicall.Action

namespace Sheet

def stillOpen (sheets : List Sheet) : List Sheet := sheets.filter (!·.closed)

theorem stillOpen_eq_nil {sheets : List Sheet} :
    stillOpen sheets = [] ↔ ∀ s ∈ sheets, s.closed = true := by
  simp [stillOpen, List.filter_eq_nil_iff]

theorem closed_after (c : PartCommand) (s : Sheet) (shut : s.closed = true) :
    (s.after c).closed = true := by
  cases c with
  | openPart stream mime => simp only [after]; split <;> exact shut
  | write stream bytes => simp only [after]; split <;> exact shut
  | close stream =>
    simp only [after]
    split
    · rfl
    · exact shut

/-- A command finds nothing to do at sheets that are closed. -/
theorem stillOpen_next (c : PartCommand) (sheets : List Sheet) :
    stillOpen (next sheets c) = stillOpen (next (stillOpen sheets) c) := by
  simp only [next, stillOpen, List.filter_append]
  congr 1
  induction sheets with
  | nil => rfl
  | cons s rest ih =>
    cases shut : s.closed with
    | true =>
      rw [List.map_cons, List.filter_cons_of_neg (by simp [closed_after c s shut]),
        List.filter_cons_of_neg (by simp [shut]), ih]
    | false =>
      rw [List.filter_cons_of_pos (l := rest) (by simp [shut]), List.map_cons, List.map_cons,
        List.filter_cons, List.filter_cons, ih]

theorem stillOpen_carryOut (commands : List PartCommand) (sheets others : List Sheet)
    (same : stillOpen sheets = stillOpen others) :
    stillOpen (carryOut commands sheets) = stillOpen (carryOut commands others) := by
  induction commands generalizing sheets others with
  | nil => exact same
  | cons c rest ih =>
    refine ih (next sheets c) (next others c) ?_
    rw [stillOpen_next c sheets, stillOpen_next c others, same]

theorem stillOpen_json (sheets : List Sheet) (body : Octets) :
    stillOpen (sheets ++ [.json body]) = stillOpen sheets := by
  simp [stillOpen, json]

end Sheet

/-- A sequence without an end is pulled as often as there is patience. -/
theorem Producer.pulls_length {ω : Type} (producer : Producer ω) (patience index : Nat)
    (m : ModuleState ω) (endless : (producer.pulls patience index m).any Pull.isLast = false) :
    (producer.pulls patience index m).length = patience := by
  induction patience generalizing index m with
  | zero => rfl
  | succ patience ih =>
    cases last : (producer.pull index m).isLast with
    | true =>
      rw [producer.pulls_of_last _ _ _ last, List.any_cons, last] at endless
      cases endless
    | false =>
      rw [producer.pulls_of_more _ _ _ last] at endless ⊢
      rw [List.any_cons, last, Bool.false_or] at endless
      exact congrArg (· + 1) (ih _ _ endless)

/-- What is told of a sequence without an end. -/
theorem EntryResult.endless_answer {ω : Type} {result : EntryResult ω} {patience : Nat}
    {m : ModuleState ω} (endless : (result.answer patience m).isFinite = false) :
    ∃ pulls, result.answer patience m = .ok (.sequence pulls) ∧ pulls.length = patience ∧
      pulls.any Pull.isLast = false := by
  match result, endless with
  | .ok (.sequence producer), endless =>
    exact ⟨_, rfl, producer.pulls_length patience 0 m endless, endless⟩

namespace Answer

/-- Whatever elements there are of a sequence have a JSON form. -/
def IsEncodable : Answer → Prop
  | .ok (.sequence pulls) => ∀ pull ∈ pulls, ∀ reason, pull.came ≠ .ok (some (.error reason))
  | _ => True

theorem IsEncodable.all {pulls : List Pull} (encodable : IsEncodable (.ok (.sequence pulls)))
    (endless : pulls.any Pull.isLast = false) : Pull.AllEncodable pulls := by
  intro pull member
  have more : pull.isLast = false := by
    cases last : pull.isLast with
    | true => exact (List.any_eq_false.mp endless pull member last).elim
    | false => rfl
  match came : pull.came with
  | .error p => exact nomatch (Pull.isLast_of_error came).symm.trans more
  | .ok none => exact nomatch (Pull.isLast_of_none came).symm.trans more
  | .ok (some (.error reason)) => exact (encodable pull member reason came).elim
  | .ok (some (.ok j)) => exact ⟨j, rfl⟩

end Answer

/-- Where the first endless sequence begins, its elements have a JSON form and every part that has been
opened is closed; `sent` are the commands of what came before. -/
def Report.WayIsFree (sent : List PartCommand) (reports : List Report) : Prop :=
  ∀ before r after, reports = before ++ r :: after →
    (∀ earlier ∈ before, earlier.result.isFinite = true) → r.result.isFinite = false →
    r.result.IsEncodable ∧ ∀ sheet ∈
      Sheet.carryOut (sent ++ before.flatMap (·.sent) ++ r.commands) [], sheet.closed = true

theorem Report.WayIsFree.tail {sent : List PartCommand} {r : Report} {rest : List Report}
    (free : WayIsFree sent (r :: rest)) (finite : r.result.isFinite = true) :
    WayIsFree (sent ++ r.sent) rest := by
  rintro before next after rfl ends endless
  have whole := free (r :: before) next after rfl (List.forall_mem_cons.mpr ⟨finite, ends⟩) endless
  simpa using whole

theorem Report.WayIsFree.head {sent : List PartCommand} {r : Report} {rest : List Report}
    (free : WayIsFree sent (r :: rest)) (endless : r.result.isFinite = false) :
    r.result.IsEncodable ∧
      ∀ sheet ∈ Sheet.carryOut (sent ++ r.commands) [], sheet.closed = true := by
  have whole := free [] r rest rfl (by simp) endless
  simpa using whole

theorem Writer.closed_of_awaits (b : Boundary) (parts : List Part) (sheets : List Sheet)
    (handle : Nat) (sent : Octets) (awaits : Awaits b handle sent parts sheets)
    (closed : ∀ s ∈ sheets, s.closed = true) : ∀ p ∈ parts, p.closed = true := by
  induction parts generalizing sheets handle sent with
  | nil => simp
  | cons head rest ih =>
    cases sheets with
    | nil => exact awaits.elim
    | cons sheet later =>
      obtain ⟨-, same, -, others⟩ := awaits
      have own := closed sheet List.mem_cons_self
      have behind := ih later (handle + 1) [] others fun s member =>
        closed s (List.mem_cons_of_mem sheet member)
      exact List.forall_mem_cons.mpr ⟨same.trans own, behind⟩

/-- The turn of an entry may leave the workshop so. -/
def Batch.MayLeave {ω : Type} (patience : Nat) (course : Course (Workshop ω) (EntryResult ω))
    (w : Workshop ω) : Prop :=
  ∃ count ≤ ((resultOf course).pulls patience course.finalState.modules).length,
    w = pulledBy course count

namespace Session

variable {ω : Type} {capacity : Nat}

/-- A turn comes to whatever the writing of its result comes to. -/
theorem takeTurn_of_emit {good : Outlet → Prop} (later : Writer → Prop) (lasting : Lasting good)
    (setting : Setting ω) (id : String) (body : Json) (s : Session ω) (held : s.Has good)
    {course : Course (Workshop ω) (EntryResult ω)}
    (known : Batch.courseOf setting id body s.workshop = course)
    (emitted : ∀ u, runAlongside (Batch.courseOf setting id body) s =
        .done (Batch.resultOf course) u → u.Has good →
      (Encoder.emitAnswer setting.settings.debug id
        (Batch.reportOf setting.patience id course).result).Ends u.desk.writer
          fun answer after => answer.2 = false ∧ later after) :
    (takeTurn setting id body).Ends s fun _ after => later after.desk.writer ∧
      Batch.MayLeave setting.patience course after.workshop ∧ after.exhausted = s.exhausted := by
  subst known
  obtain ⟨_, u, ran, rfl, has, reached, unmoved⟩ := runAlongside_lasts lasting _ s _ held
    (Batch.courseOf_outcome setting id body s.workshop)
  have processed : (runAlongside (Batch.courseOf setting id body)).Ends s fun a t =>
      a = Batch.resultOf (Batch.courseOf setting id body s.workshop) ∧ t = u :=
    ⟨_, u, ran, rfl, rfl⟩
  apply processed.bind
  rintro _ u ⟨rfl, rfl⟩
  obtain ⟨count, bound, told, -⟩ := emit_told setting.settings.debug setting.patience id
    (Batch.resultOf (Batch.courseOf setting id body s.workshop)) u
  rw [show u.workshop = _ from reached] at told bound
  obtain ⟨answer, w, wrote, whole, last⟩ := emitted u ran has
  have written := told.trans (atWriter_done wrote)
  have done : (emit setting.settings.debug setting.patience id
      (Batch.resultOf (Batch.courseOf setting id body s.workshop))).Ends u fun answer after =>
        answer.2 = false ∧ later after.desk.writer ∧ after.exhausted = s.exhausted ∧
          after.workshop = Batch.pulledBy (Batch.courseOf setting id body s.workshop) count := by
    refine ⟨answer, _, written, whole, last, unmoved, ?_⟩
    exact congrArg (Workshop.moved _) reached
  apply done.bind
  rintro ⟨_, _⟩ after ⟨rfl, last, same, left⟩
  exact ends_modify _ _ _ ⟨last, ⟨count, bound, left⟩, by simp [same]⟩

theorem takeTurn_of_gone (setting : Setting ω) (id : String) (body : Json) (s : Session ω)
    (held : s.Has fun o => o.Limited capacity ∧ o.Gone) :
    (takeTurn setting id body).Ends s fun _ after =>
      after.Has (fun o => o.Limited capacity ∧ o.Gone) ∧
      Batch.MayLeave setting.patience (Batch.courseOf setting id body s.workshop) after.workshop ∧
      after.exhausted = s.exhausted :=
  takeTurn_of_emit (fun w => w.outlet.Limited capacity ∧ w.outlet.Gone)
    ((Outlet.limited_lasts capacity).and Outlet.gone_lasts) setting id body s held rfl
      fun _ _ has => Encoder.emitAnswer_of_gone _ id _ has.1 has.2

/-- A session with a sound one beside it that has written the same sheets. -/
structure Follows (capacity chunk : Nat) (b : Boundary) (s t : Session ω) (sheets : List Sheet) :
    Prop where
  limited : s.Has (Outlet.Limited capacity)
  together : Together Coupling.truncating (· = ·) s t
  owes : t.Owes .clear b sheets
  chunk : s.chunkSize = chunk

variable {chunk : Nat} {b : Boundary} {s t : Session ω} {sheets : List Sheet}

/-- Where all sheets are closed, so are all parts that still wait. -/
theorem Together.shut (together : Together Coupling.truncating (· = ·) s t)
    (settled : t.Settled b sheets) (closed : ∀ sheet ∈ sheets, sheet.closed = true) :
    0 < s.chunkSize ∧ ∀ p ∈ s.desk.writer.parts, p.closed = true := by
  obtain ⟨_, ⟨o, -, rfl⟩, same⟩ := together.desk
  obtain ⟨gone, waiting, sent, rfl, -, -, awaits⟩ := settled.shown.keeps.order
  have positive := settled.shown.keeps.chunk
  rw [same] at awaits positive
  exact ⟨positive, Writer.closed_of_awaits b _ _ _ _ awaits fun sheet member =>
    closed sheet (List.mem_append_right gone member)⟩

/-- A turn whose sequence, if any, ends leaves the sound session beside, or the transport fails. -/
theorem takeTurn_follows (setting : Setting ω) (id : String) (body : Json)
    (follows : Follows capacity chunk b s t sheets) {course : Course (Workshop ω) (EntryResult ω)}
    (known : Batch.courseOf setting id body s.workshop = course) {r : Report}
    (reported : Batch.reportOf setting.patience id course = r)
    (finite : r.result.isFinite = true) :
    (takeTurn setting id body).Ends s fun _ after =>
      (after.Has (fun o => o.Limited capacity ∧ o.Gone) ∨
        (∃ beside, Follows capacity chunk b after beside (Sheet.carryOut r.behind
          (Sheet.carryOut r.commands sheets ++
            [.json (Encoder.keyed r.id (r.result.body setting.settings.debug)).octets]))) ∧
          after.workshop = Batch.leftBy setting.patience course) ∧
      Batch.MayLeave setting.patience course after.workshop ∧ after.exhausted = s.exhausted := by
  obtain ⟨_, after, ran, limited, left, same⟩ := takeTurn_of_emit
    (fun w => w.outlet.Limited capacity) (Outlet.limited_lasts capacity) setting id body s
    follows.limited known fun u _ has =>
      (((Outlet.limited_lasts capacity).writer (Coupling.keeps_emitAnswer id _) _
        has).and_answers (Encoder.emitAnswer_answers _ _ _)).weaken
          fun _ _ ⟨⟨_, whole⟩, limited⟩ => ⟨whole (reported ▸ finite), limited⟩
  refine ⟨(), after, ran, ?_, left, same⟩
  -- the sound session takes its turn as well, and the two are together until the transport fails
  have knownToo : Batch.courseOf setting id body t.workshop = course := by
    rw [← follows.together.workshop]
    exact known
  obtain ⟨_, beside, ranToo, trails, reached, -⟩ :=
    takeTurn_ends b setting id body t sheets follows.owes knownToo reported
  have met := (takeTurn_parting (c := .truncating) setting id body).both s t follows.together
  rw [ran, ranToo] at met
  cases met with
  | done still =>
    have chunk := ((takeTurn_leaves setting id body).of_done ran).trans follows.chunk
    exact .inr ⟨⟨beside, limited, still, trails.owes, chunk⟩, still.workshop.trans reached⟩
  | apart parted => exact .inl ⟨limited, parted.broken⟩

/-- A turn with an endless sequence ends as well, if no part that is open stands before it. -/
theorem takeTurn_of_endless (setting : Setting ω) (id : String) (body : Json)
    (follows : Follows capacity chunk b s t sheets) {course : Course (Workshop ω) (EntryResult ω)}
    (known : Batch.courseOf setting id body s.workshop = course) {r : Report}
    (reported : Batch.reportOf setting.patience id course = r)
    (enough : capacity + chunk + 1 ≤ setting.patience) (endless : r.result.isFinite = false)
    (encodable : r.result.IsEncodable)
    (closed : ∀ sheet ∈ Sheet.carryOut r.commands sheets, sheet.closed = true) :
    (takeTurn setting id body).Ends s fun _ after =>
      after.Has (fun o => o.Limited capacity ∧ o.Gone) ∧
      Batch.MayLeave setting.patience course after.workshop ∧ after.exhausted = s.exhausted := by
  refine takeTurn_of_emit (fun w => w.outlet.Limited capacity ∧ w.outlet.Gone)
    (Outlet.limited_lasts capacity) setting id body s follows.limited known fun u ran has => ?_
  rw [reported]
  by_cases gone : u.desk.writer.outlet.Gone
  · exact Encoder.emitAnswer_of_gone _ id _ has gone
  · -- beside it the sound session owes the same sheets, so the parts of both are closed
    have workshop := follows.together.workshop
    obtain ⟨_, beside, ranToo, -, settled, -⟩ := runAlongside_ends b
      (Batch.courseOf setting id body) t sheets follows.owes _
      (Batch.courseOf_outcome setting id body t.workshop)
    have met := (runAlongside_parting (c := .truncating) (Batch.courseOf setting id body)).both s t
      follows.together
    rw [ran, ranToo] at met
    rw [← workshop, known] at settled
    cases met with
    | apart parted => exact absurd parted.broken gone
    | done still =>
      have sent : course.commands = r.commands := reported ▸ rfl
      obtain ⟨positive, shut⟩ := still.shut settled (sent ▸ closed)
      have chunk := ((runAlongside_leaves _).of_done ran).trans follows.chunk
      obtain ⟨pulls, sequence, length, never⟩ :
          ∃ pulls, r.result = .ok (.sequence pulls) ∧ pulls.length = setting.patience ∧
            pulls.any Pull.isLast = false := by
        subst reported
        exact EntryResult.endless_answer endless
      have patient : capacity + u.chunkSize + 1 ≤ pulls.length := by rwa [chunk, length]
      rw [sequence] at encodable ⊢
      exact Encoder.emitAnswer_stops _ id pulls (encodable.all never) u.desk.writer has positive
        patient shut

/-- What the turns keep up to the first endless sequence, and after it: a sound session beside whose open
sheets are those of the commands so far, or a transport that has failed. -/
def Going (capacity chunk : Nat) (b : Boundary) (setting : Setting ω) (entries : Members)
    (s : Session ω) : Prop :=
  s.Has (fun o => o.Limited capacity ∧ o.Gone) ∨
    ∃ t sheets sent, Follows capacity chunk b s t sheets ∧
      Sheet.stillOpen sheets = Sheet.stillOpen (Sheet.carryOut sent []) ∧
      Report.WayIsFree sent (Batch.reports setting entries s.workshop).1

theorem Going.limited {setting : Setting ω} {entries : Members}
    (going : Going capacity chunk b setting entries s) : s.Has (Outlet.Limited capacity) := by
  rcases going with gone | ⟨_, _, _, follows, -⟩
  · exact gone.1
  · exact follows.limited

theorem takeTurn_going (setting : Setting ω) (enough : capacity + chunk + 1 ≤ setting.patience)
    (id : String) (body : Json) (rest : Members)
    (going : Going capacity chunk b setting ((id, body) :: rest) s) :
    (takeTurn setting id body).Ends s fun _ after =>
      Going capacity chunk b setting rest after ∧
      Batch.MayLeave setting.patience (Batch.courseOf setting id body s.workshop) after.workshop ∧
      after.exhausted = s.exhausted := by
  -- finite results follow the run beside this one; at the first endless one every part is closed, so
  -- its elements reach the transport until there is no more room
  rcases going with gone | ⟨t, sheets, sent, follows, same, free⟩
  · apply (takeTurn_of_gone setting id body s gone).weaken
    rintro _ after ⟨still, rest⟩
    exact ⟨.inl still, rest⟩
  · rw [Batch.reports] at free
    generalize known : Batch.courseOf setting id body s.workshop = course at free ⊢
    generalize reported : Batch.reportOf setting.patience id course = r at free
    have kept := Sheet.stillOpen_carryOut r.commands _ _ same
    rw [← Sheet.carryOut_append] at kept
    cases finite : r.result.isFinite with
    | true =>
      apply (takeTurn_follows setting id body follows known reported finite).weaken
      rintro _ after ⟨gone | ⟨⟨beside, follows⟩, reached⟩, rest⟩
      · exact ⟨.inl gone, rest⟩
      · refine ⟨.inr ⟨beside, _, sent ++ r.sent, follows, ?_, ?_⟩, rest⟩
        · rw [Report.sent, ← List.append_assoc, Sheet.carryOut_append (sent ++ r.commands)]
          exact Sheet.stillOpen_carryOut _ _ _ ((Sheet.stillOpen_json _ _).trans kept)
        · rw [reached]
          exact free.tail finite
    | false =>
      obtain ⟨encodable, closed⟩ := free.head finite
      have shut := Sheet.stillOpen_eq_nil.mp (kept.trans (Sheet.stillOpen_eq_nil.mpr closed))
      apply (takeTurn_of_endless setting id body follows known reported enough finite encodable
        shut).weaken
      rintro _ after ⟨gone, rest⟩
      exact ⟨.inl gone, rest⟩

theorem lastTurn_stops (debug : Bool) (fault : Option BatchFault)
    (limited : s.Has (Outlet.Limited capacity)) :
    (lastTurn debug fault).Ends s fun _ after => after.Has (Outlet.Limited capacity) ∧
      after.workshop = s.workshop ∧ after.exhausted = s.exhausted := by
  have lasting := Outlet.limited_lasts capacity
  cases fault with
  | none =>
    refine guarded_ends _ (atDesk_lasts lasting Desk.drain Coupling.serves_drain s limited) ?_
    rintro after ⟨still, reached, -, same⟩
    exact ends_pure _ _ _ ⟨still, reached, same⟩
  | some f =>
    refine guarded_ends _ (takeFault_lasts lasting f s limited) ?_
    rintro middle ⟨limited, reached, -, same⟩
    apply (abort_lasts lasting debug f middle limited).weaken
    rintro _ after ⟨still, unmoved, -, sameToo⟩
    exact ⟨still, unmoved.trans reached, sameToo.trans same⟩

theorem turnsThen_stop (setting : Setting ω) (enough : capacity + chunk + 1 ≤ setting.patience)
    (fault : Option BatchFault) (entries : Members) (s : Session ω)
    (going : Going capacity chunk b setting entries s) :
    (turnsThen setting (lastTurn setting.settings.debug fault) entries).Ends s fun _ after =>
      after.Has (Outlet.Limited capacity) ∧ after.exhausted = s.exhausted ∧
      ∃ turns : List Taken, turns.map (·.entry) = entries ∧
        Batch.Fits setting turns s.workshop ∧
        after.workshop = Batch.workshopBehind setting turns s.workshop := by
  induction entries generalizing s with
  | nil =>
    exact (lastTurn_stops setting.settings.debug fault going.limited).weaken
      fun _ _ ⟨limited, unmoved, same⟩ => ⟨limited, same, [], rfl, trivial, unmoved⟩
  | cons entry rest ih =>
    obtain ⟨id, body⟩ := entry
    rw [turnsThen]
    refine guarded_ends _ (takeTurn_going setting enough id body rest going) ?_
    rintro middle ⟨going, ⟨count, bound, reached⟩, same⟩
    apply (ih middle going).weaken
    rintro _ after ⟨limited, sameToo, turns, taken, fits, last⟩
    rw [reached] at fits last
    exact ⟨limited, sameToo.trans same, ⟨id, body, count⟩ :: turns, congrArg _ taken,
      ⟨bound, fits⟩, last⟩

end Session

namespace Batch

variable {ω : Type}

/-- For every request and every transport that never panics and has room for so many octets in all: if
the first endless sequence begins when every part that modules opened is closed, the run comes to its
end, however many endless sequences there are. A patience of more than the room and a chunk never runs
out, so no endless sequence is pulled more often than that. -/
theorem endless_sequences_stop (setting : Setting ω) (world : ω) (body : Octets)
    (info : RequestInfo) (peer : Peer) (boundary : Boundary) (capacity : Nat)
    (calm : peer.NeverPanics) (caps : peer.CapsAt capacity)
    (enough : capacity + max 1 setting.settings.chunkSize + 1 ≤ setting.patience)
    (free : Report.WayIsFree [] (account setting world body info).reports) :
    ∃ turns after, MayTake setting world body info turns ∧
      run setting world body info peer boundary =
        .of (accountOf setting world body info turns).closing.outcome after ∧
      after.exhausted = false := by
  have limited : (Session.start setting world peer boundary).Has (Outlet.Limited capacity) :=
    ⟨calm, caps, Nat.zero_le _⟩
  have lasting := Outlet.limited_lasts capacity
  cases parsed : Envelope.parse body info with
  | error r =>
    have refused : (Session.refuse setting.settings.debug r).Ends
        (Session.start setting world peer boundary) fun _ after => after.exhausted = false := by
      apply (Session.atWriter_lasts lasting _ (Coupling.keeps_emitFault (.refl _ _)) _ limited).bind
      rintro _ answered ⟨has, -, -, same⟩
      apply ends_modify_bind
      apply (Session.atWriter_lasts lasting Writer.finish Coupling.keeps_finish
        { answered with summary := { answered.summary with aborted := true } } has).weaken
      rintro _ after ⟨-, -, -, sameToo⟩
      exact sameToo.trans same
    obtain ⟨after, ran, whole⟩ := refused.comes
    have may : MayTake setting world body info [] :=
      fun _ accepted => nomatch parsed.symm.trans accepted
    refine ⟨[], after, may, ?_, whole⟩
    rw [run_of_rejected setting world peer boundary parsed, accountOf, parsed]
    exact ran
  | ok envelope =>
    rw [account_of_accepted setting world parsed] at free
    have begun := Session.start_settled setting world .accepting boundary Peer.accepting_takes_all
    -- the sheets are those of a run over a peer that takes everything, which goes beside this one for
    -- as long as the transport lasts
    have transports : Coupling.truncating.together ⟨.start peer, false, 0, #[]⟩
        ⟨.start .accepting, false, 0, #[]⟩ := ⟨rfl, calm, ⟨rfl, Peer.accepting_takes_all⟩, rfl⟩
    have together : Session.Together Coupling.truncating (· = ·)
        (Session.start setting world peer boundary)
        (Session.start setting world .accepting boundary) :=
      ⟨⟨_, ⟨_, transports, rfl⟩, rfl⟩, rfl, rfl⟩
    obtain ⟨_, middle, ran, has, same, turns, taken, fits, reached⟩ :=
      Session.turnsThen_stop setting enough
        (Agenda.start setting.settings.maxEntries envelope.entries).fault? _
        (Session.start setting world peer boundary)
        (.inr ⟨_, [], [], ⟨limited, together, begun.rests.owes, rfl⟩, rfl, free⟩)
    obtain ⟨after, went, -, -, -, sameToo⟩ := Session.conclude_lasts lasting middle has
    rw [reached] at went
    refine ⟨turns, after, ?_, ?_, sameToo.trans same⟩
    · rintro _ accepted
      cases parsed.symm.trans accepted
      exact ⟨taken, fits⟩
    · rw [run_of_accepted setting world peer boundary parsed,
        runEntries_eq setting world envelope.entries peer boundary rfl, bind_apply, ran, accountOf,
        parsed]
      exact went

end Batch

/-! Behind a part that is open. -/

namespace Session

variable {ω : Type} {s : Session ω}

/-- An entry whose code leaves the writer blocked, and whose sequence has no end, is cut short whatever
the patience and whatever the transport. -/
theorem takeTurn_spins (setting : Setting ω) (id : String) (body : Json) (producer : Producer ω)
    (encodable : ∀ m, Pull.AllEncodable (producer.pulls setting.patience 0 m))
    (left : (runAlongside (Batch.courseOf setting id body)).Ends s fun result u =>
      result = .ok (.sequence producer) ∧ u.desk.writer.Blocked u.desk.writer.nextHandle) :
    (takeTurn setting id body).Ends s fun _ after => after.exhausted = true := by
  apply left.bind
  rintro _ u ⟨rfl, blocked⟩
  obtain ⟨count, -, told, -⟩ :=
    emit_told setting.settings.debug setting.patience id (.ok (.sequence producer)) u
  obtain ⟨answer, w, wrote, outlasted, -⟩ := Encoder.emitAnswer_spins setting.settings.debug id
    (producer.pulls setting.patience 0 u.workshop.modules) (encodable _) blocked
  have spun : (emit setting.settings.debug setting.patience id (.ok (.sequence producer))).Ends u
      fun answer _ => answer.2 = true := ⟨answer, _, told.trans (atWriter_done wrote), outlasted⟩
  apply spun.bind
  rintro ⟨_, _⟩ after rfl
  exact ends_modify _ _ _ (Bool.or_true _)

end Session

namespace Batch

/-! A module of one operation, which does something and then answers without an end. -/

/-- A sequence without an end. -/
def ticker : Producer Unit := fun _ => return some (.ok .null)

def ticking : EntryResult Unit := .ok (.sequence ticker)

theorem ticker_pulls (patience index : Nat) (m : ModuleState Unit) :
    Pull.AllEncodable (ticker.pulls patience index m) := by
  induction patience generalizing index m with
  | zero => exact fun _ member => nomatch member
  | succ patience ih =>
    rw [ticker.pulls_of_more _ _ _ rfl]
    exact List.forall_mem_cons.mpr ⟨⟨.null, rfl⟩, ih _ _⟩

def tickOperation (code : ModuleCode Unit Unit) : Operation Unit where
  name := "run"
  parameters := []
  returns := Operation.noReturn
  invoke _ := do
    code
    return .ok (.sequence ticker)

def ticks (code : Sink → ModuleCode Unit Unit) : Registry Unit :=
  Registry.empty.register "tick" fun ctx =>
    return Draft.build ⟨"tick", [tickOperation (code ctx.sink)], none⟩

def tickSetting (code : Sink → ModuleCode Unit Unit) (patience : Nat) : Setting Unit :=
  ⟨ticks code, ⟨false, none, none, BatchSettings.defaultChunkSize⟩, .empty, fun _ _ => 0, patience⟩

def tickEntry : Json := .object [("ns", .string "tick"), ("function", .string "run")]

def tickRequest : Octets := (Json.object
  [("version", .int 1), ("payload", .object [("a", tickEntry)])]).octets

theorem tickRequest_accepted :
    Envelope.parse tickRequest ⟨some "application/json", true⟩ = .ok ⟨1, [("a", tickEntry)]⟩ := by
  with_unfolding_all rfl

def tickHandler (code : Sink → ModuleCode Unit Unit) : Handler Unit :=
  ⟨"tick", [("run", tickOperation (code ⟨true⟩))], none⟩

theorem tickEntry_call : Call.ofEntry "a" tickEntry = .ok ⟨"tick", "run", []⟩ := by
  have isId : Call.isId "a" = true := by decide +kernel
  have isNamespace : Call.isNamespace "tick" = true := by decide +kernel
  have isFunction : Call.isFunction "run" = true := by decide +kernel
  simp [Call.ofEntry, isId, tickEntry, Call.ofMembers, Call.textMember?, Assoc.get?, isNamespace,
    isFunction, Call.argumentsOf?]

theorem ticks_load (code : Sink → ModuleCode Unit Unit) (settings : BatchSettings)
    (app : AppContext) (m : ModuleState Unit) :
    (ticks code).load ⟨settings, app, ⟨true⟩⟩ "tick" m = .ended (.ok (.ok (tickHandler code))) m := by
  have callable : isCallable "run" = true := by decide +kernel
  have built (op : Operation Unit) (named : op.name = "run") :
      Draft.build ⟨"tick", [op], none⟩ = .ok ⟨"tick", [("run", op)], none⟩ := by
    simp [Draft.build, Draft.enter, named, callable, Assoc.get?, Assoc.set, bind, Except.bind, pure,
      Except.pure]
  rw [Registry.load, ticks, Registry.register, Registry.empty]
  simp only [Assoc.set, Assoc.get?, Registry.manifest]
  show (Registry.check "tick" (Draft.build ⟨"tick", [tickOperation (code ⟨true⟩)], none⟩)) m = _
  rw [built _ rfl]
  rfl

/-- The entry sends what the operation sends and then comes to the sequence. -/
theorem courseOf_tick (code : Sink → ModuleCode Unit Unit) (patience : Nat)
    (commands : List PartCommand) (m : ModuleState Unit)
    (known : code ⟨true⟩ ⟨(), 0⟩ = commands.foldr .send (.ended (.ok ()) m)) :
    courseOf (tickSetting code patience) "a" tickEntry (.start (fun _ _ => 0) ()) =
      commands.foldr .send
        (.ended (.ok ticking) ⟨m, [("tick", tickHandler code)], fun _ _ => 0⟩) := by
  have invocation : Call.invocationOf "run" = .call "run" := by decide +kernel
  have found : (tickHandler code).operation? "run" = some (tickOperation (code ⟨true⟩)) := rfl
  have bound : Operation.bindArguments "run" [] [] = .ok .empty := rfl
  simp only [courseOf, Entry.process, Entry.attempt, tickEntry_call, Entry.answer, Workshop.resolve,
    bind, Activity.bind, Activity.attempt, Activity.get, Course.andThen, Workshop.start, Assoc.get?,
    Workshop.inModules, Activity.within, tickSetting, ticks_load, Course.mapState, Activity.modify,
    Call.invocation, invocation, Entry.invoke, pure, Activity.pure, found]
  simp only [tickOperation, bound, bind, Activity.within, Activity.bind, known]
  clear known
  induction commands with
  | nil => rfl
  | cons c rest ih => exact congrArg (Course.send c) ih

/-- With nothing in front, sequences without an end stop at a peer with room for forty octets. -/
theorem ticks_alone_stop :
    Report.WayIsFree []
      (account (tickSetting (fun _ => return ()) 5000) () tickRequest
        ⟨some "application/json", true⟩).reports ∧
    ∃ turns after,
      MayTake (tickSetting (fun _ => return ()) 5000) () tickRequest
        ⟨some "application/json", true⟩ turns ∧
      run (tickSetting (fun _ => return ()) 5000) () tickRequest
        ⟨some "application/json", true⟩
        (.scripted ⟨none, some 40, some 7, none, none, true⟩) ⟨"b"⟩ =
          .of (accountOf (tickSetting (fun _ => return ()) 5000) () tickRequest
            ⟨some "application/json", true⟩ turns).closing.outcome after ∧
      after.exhausted = false := by
  have free : Report.WayIsFree [] (account (tickSetting (fun _ => return ()) 5000) () tickRequest
      ⟨some "application/json", true⟩).reports := by
    have known : (account (tickSetting (fun _ => return ()) 5000) () tickRequest
        ⟨some "application/json", true⟩).reports =
          [⟨"a", [], ticking.answer 5000 ⟨(), 0⟩⟩] := by
      rw [account_of_accepted _ () tickRequest_accepted]
      show (reports (tickSetting (fun _ => return ()) 5000) [("a", tickEntry)]
        (.start (fun _ _ => 0) ())).1 = _
      rw [reports, reportOf, courseOf_tick (fun _ => return ()) 5000 [] ⟨(), 0⟩ rfl]
      rfl
    rw [known]
    rintro before r after split - -
    cases before with
    | nil =>
      obtain ⟨rfl, -⟩ := List.cons.inj split
      refine ⟨fun pull member reason came => ?_, by simp [Sheet.carryOut]⟩
      obtain ⟨j, value⟩ := ticker_pulls 5000 0 ⟨(), 0⟩ pull member
      cases value.symm.trans came
    | cons first rest => simp at split
  exact ⟨free, endless_sequences_stop _ () tickRequest _ _ _ 40 (Peer.scripted_never_panics _ rfl)
    (Peer.scripted_caps _ 40 rfl) (by decide) free⟩

/-- An operation that opens a part and leaves it open blocks whatever comes next. -/
theorem runAlongside_leaving (patience : Nat) (peer : Peer) :
    (Session.runAlongside (courseOf (tickSetting (fun sink => do let _ ← sink.openText) patience) "a"
      tickEntry)).Ends
      (Session.start (tickSetting (fun sink => do let _ ← sink.openText) patience) () peer ⟨"b"⟩)
      fun result u => result = ticking ∧ u.desk.writer.Blocked u.desk.writer.nextHandle := by
  have small : (Octets.ofText ((⟨"b"⟩ : Boundary).preamble "text/plain")).length <
      max 1 BatchSettings.defaultChunkSize := by decide +kernel
  have followed (s : Session Unit) (idle : s.desk.relay.queue = []) (w : Workshop Unit) :
      (Session.follow (.send (.openPart 0 .text) (.ended (.ok ticking) w))).Ends s fun a u =>
        a = ticking ∧ u.desk.relay.queue = [.openPart 0 .text] ∧ u.desk.writer = s.desk.writer :=
    ⟨_, _, rfl, rfl, congrArg (· ++ _) idle, rfl⟩
  apply ends_get_bind
  show (Session.follow (courseOf _ "a" tickEntry (.start (fun _ _ => 0) ())) >>= _).Ends _ _
  rw [courseOf_tick (fun sink => do let _ ← sink.openText) patience [.openPart 0 .text] ⟨(), 1⟩ rfl]
  apply (followed _ rfl _).bind
  rintro _ u ⟨rfl, queue, writer⟩
  have drained : Desk.drain.Ends u.desk fun _ d => d.writer.Blocked d.writer.nextHandle := by
    apply ends_get_bind
    rw [queue]
    apply ends_modify_bind
    have opened : (Writer.openPart "text/plain").Ends u.desk.writer fun _ after =>
        after.Blocked after.nextHandle := by
      rw [writer]
      exact Writer.openPart_blocks "text/plain" rfl rfl small
    have applied : (Desk.apply (.openPart 0 .text)).Ends
        { u.desk with relay := { u.desk.relay with queue := [] } } fun _ d =>
          d.writer.Blocked d.writer.nextHandle := by
      apply ends_get_bind
      apply opened.within.bind
      rintro _ _ ⟨w, blocked, rfl⟩
      exact ends_modify _ _ _ blocked
    exact applied.bind fun _ d blocked => ends_pure _ d _ blocked
  apply (Session.atDesk_ends _ u _ drained).bind
  rintro _ _ ⟨d, blocked, rfl⟩
  exact ends_pure _ _ _ ⟨rfl, blocked⟩

/-- Then no patience is enough, whatever the peer does: one with room for forty octets is as good as
any. -/
theorem tick_behind_never_stops :
    Envelope.parse tickRequest ⟨some "application/json", true⟩ = .ok ⟨1, [("a", tickEntry)]⟩ ∧
    ∀ peer patience, (run (tickSetting (fun sink => do let _ ← sink.openText) patience) () tickRequest
      ⟨some "application/json", true⟩ peer ⟨"b"⟩).state.exhausted = true := by
  refine ⟨tickRequest_accepted, fun peer patience => ?_⟩
  obtain ⟨_, after, ran, cut⟩ := Session.takeTurn_spins _ "a" tickEntry ticker
    (fun m => ticker_pulls patience 0 m) (runAlongside_leaving patience peer)
  have leaves : (Session.takeTurns (tickSetting (fun sink => do let _ ← sink.openText) patience)
      ⟨none, 1, 1, [], false⟩ >>= fun _ => Session.conclude).Leaves Session.exhausted := by
    rw [Session.takeTurns_eq]
    exact (Session.guarded_leaves_exhausted _ (Session.atDesk_leaves_exhausted _)
      (leaves_pure ())).bind fun _ => Session.conclude_leaves_exhausted
  rw [run_of_accepted _ _ peer _ tickRequest_accepted, runEntries, Session.takeTurns_eq]
  show ((Session.guarded _ (Session.takeTurn _ "a" tickEntry) (Session.takeTurns _ _) >>=
    fun _ => _) _).state.exhausted = _
  rw [Session.guarded, bind_assoc, bind_apply, Action.attempt, ran]
  exact (leaves after).trans cut

end Batch
end Multicall
