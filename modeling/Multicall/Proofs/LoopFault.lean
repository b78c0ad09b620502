import Multicall.Proofs.Containment
/-!
What a reader gets of a response in which a panic was made up for. The panic costs the end of one
block, a piece of a single part; all other parts are whole, and the part of the fault is framed
like any other. So the response reads well as long as the torn part still ends in a line end of its
own. Where that is what was lost, the next delimiter stands inside the torn part, and no reader can see
it. Parts that are opened by commands still queued when the panic strikes come behind the fault.
-/
namespace Multicall

namespace Sheet

variable {b : Boundary} {sheets : List Sheet} {arrived lost : Octets}

/-- Of the parts of torn sheets one lacks a piece, and those in front of it have arrived. -/
theorem Torn.parts (torn : Torn b sheets arrived lost)
    (ownedOpen : ∀ s ∈ sheets, s.owner ≠ none → s.closed = false) (later : List PartCommand) :
    ∃ first part others front back, sheets.map (finished later) = first ++ part :: others ∧
      arrived = first.flatMap (ResponsePart.octets b) ++ front ∧
      part.octets b = front ++ lost ++ back := by
  obtain ⟨gone, sheet, behind, front, rfl, closed, came, text⟩ := torn
  obtain ⟨back, rest⟩ :=
    (fronts_finished b later sheet (ownedOpen sheet (by simp))).front
  have whole : gone.flatMap (octets b) =
      (gone.map (finished later)).flatMap (ResponsePart.octets b) := by
    rw [List.flatMap_map]
    refine List.flatMap_congr fun s member => ?_
    exact (fronts_finished b later s (ownedOpen s (List.mem_append_left _ member))).whole
      (closed s member)
  refine ⟨gone.map (finished later), sheet.finished later, behind.map (finished later), front, back,
    by simp, whole ▸ came, ?_⟩
  rw [← rest, text]

/-- The parts on these sheets can be read, or they are what these commands write. -/
def Told (b : Boundary) (given : List PartCommand) (sheets : List Sheet) : Prop :=
  ∀ later, ∀ p ∈ sheets.map (finished later),
    Framing.Readable b p ∨ p ∈ Report.moduleParts later given

variable {given : List PartCommand}

theorem Told.carryOut (told : Told b given sheets) (commands : List PartCommand) :
    Told b (given ++ commands) (carryOut commands sheets) := by
  intro later p member
  rw [finished_carryOut] at member
  rw [Report.moduleParts_append]
  rcases List.mem_append.mp member with early | opened
  · exact (told _ p early).imp_right (List.mem_append_left _)
  · exact .inr (List.mem_append_right _ opened)

theorem Told.append (told : Told b given sheets) {others : List Sheet}
    (readable : ∀ s ∈ others, ∀ later, Framing.Readable b (s.finished later)) :
    Told b given (sheets ++ others) := by
  intro later p member
  rw [List.map_append] at member
  rcases List.mem_append.mp member with early | last
  · exact told later p early
  · obtain ⟨s, among, rfl⟩ := List.mem_map.mp last
    exact .inl (readable s among later)

/-- So it is when commands that are still queued are carried out at the end. -/
theorem Told.whole (told : Told b given sheets) (queue closing : List PartCommand) :
    ∀ q ∈ sheets.map (finished (queue ++ closing)) ++ Report.moduleParts [] (queue ++ closing),
      Framing.Readable b q ∨ q ∈ Report.moduleParts [] (given ++ queue ++ closing) := by
  intro q member
  rw [List.append_assoc, Report.moduleParts_append, List.append_nil]
  rcases List.mem_append.mp member with early | late
  · exact (told _ q early).imp_right (List.mem_append_left _)
  · exact .inr (List.mem_append_right _ late)

theorem readable_result {s : Sheet} {members : Members} {later : List PartCommand}
    (begins : s.Begins (Json.object members).octets) : Framing.Readable b (s.finished later) := by
  obtain ⟨mime, body, owner, closed⟩ := s
  obtain ⟨rfl, rfl, front, -⟩ := begins
  show Framing.Readable b ⟨jsonMime, body ++ []⟩
  rw [List.append_nil]
  exact Framing.readable_front front

/-- Behind turns the sheets are results, or modules have written them. -/
theorem Told.standing (debug : Bool) (reports : List Report) (late : List PartCommand)
    (told : Told b given sheets) :
    ∃ sofar, Told b sofar (standing debug reports sheets late).1 ∧
      sofar ++ (standing debug reports sheets late).2 =
        given ++ late ++ reports.flatMap (·.sent) := by
  induction reports generalizing sheets given late with
  | nil => exact ⟨given, told, (List.append_nil _).symm⟩
  | cons r rest ih =>
    have result : (json (Encoder.keyed r.id (r.result.body debug)).octets).Begins
        (Encoder.keyed r.id (r.result.body debug)).octets := ⟨rfl, rfl, List.prefix_rfl, fun _ => rfl⟩
    obtain ⟨sofar, reached, whole⟩ := ih r.behind ((told.carryOut (late ++ r.commands)).append
      fun s member later => List.mem_singleton.mp member ▸ readable_result result)
    refine ⟨sofar, reached, whole.trans ?_⟩
    simp [Report.sent]

end Sheet

namespace Session

variable {ω : Type} {way : Way} {b : Boundary} {debug : Bool} {written : List Sheet}
  {late given : List PartCommand} {states : List (Workshop ω)} {counts : Summary}
  {broken : Session ω}

/-- The parts of the response that have been begun when the panic strikes, and those that are opened
after it, can be read, or they are what modules write. What was to be opened as the panic struck is not
among the commands any more, and nothing is written to it. -/
theorem Fallen.parts {under : Option Report}
    (fallen : broken.Fallen way b debug written late states counts under)
    (told : Sheet.Told b given written) :
    ∃ begun sofar, broken.desk.Struck way b begun ∧
      sofar.Sublist (given ++ late ++ under.toList.flatMap (·.sent)) ∧
      ∀ closing, ∀ q ∈ begun.map (Sheet.finished (broken.desk.relay.queue ++ closing)) ++
          Report.moduleParts [] (broken.desk.relay.queue ++ closing),
        Framing.Readable b q ∨ q ∈ Report.moduleParts [] (sofar ++ closing) := by
  have of_halted {commands : List PartCommand}
      (halted : broken.Halted way b written commands states counts) :
      ∃ begun sofar, broken.desk.Struck way b begun ∧ sofar.Sublist (given ++ commands) ∧
        ∀ closing, ∀ q ∈ begun.map (Sheet.finished (broken.desk.relay.queue ++ closing)) ++
            Report.moduleParts [] (broken.desk.relay.queue ++ closing),
          Framing.Readable b q ∨ q ∈ Report.moduleParts [] (sofar ++ closing) := by
    obtain ⟨sofar, ⟨rest, rfl⟩, applied, begun, remnant, rfl, left, struck⟩ := halted.sunk
    refine ⟨_, given ++ applied ++ broken.desk.relay.queue, struck, ?_,
      ((told.carryOut applied).append ?_).whole _⟩
    · simp only [List.append_assoc]
      exact (List.Sublist.refl _).append ((List.Sublist.refl _).append
        (List.sublist_append_of_sublist_right (List.sublist_append_left _ _)))
    · -- nobody can write to a part whose opening was broken off
      cases left with
      | nothing => exact fun s member => nomatch member
      | opening stream mime =>
        intro s member later
        rw [List.mem_singleton.mp member]
        exact Framing.readable_opened mime
  cases fallen with
  | behind _ halted =>
    simpa using of_halted halted
  | @inTurn r _ interrupted =>
    rw [Option.toList_some, List.flatMap_singleton, Report.sent]
    cases interrupted with
    | sending halted =>
      obtain ⟨begun, sofar, struck, among, told⟩ := of_halted halted
      refine ⟨begun, sofar, struck, among.trans ?_, told⟩
      rw [← List.append_assoc, ← List.append_assoc]
      exact List.sublist_append_left _ _
    | answering torn =>
      obtain ⟨part, begins, struck⟩ := torn.struck
      refine ⟨_, given ++ (late ++ r.commands) ++ broken.desk.relay.queue, struck, ?_,
        ((told.carryOut _).append ?_).whole _⟩
      · rw [← List.append_assoc, ← List.append_assoc]
        exact (List.Sublist.refl _).append torn.queued.sublist
      · intro s member later
        rw [List.mem_singleton.mp member]
        exact Sheet.readable_result begins

/-- Behind the tear everything arrives: the rest of the torn part, the parts behind it, the part of the
fault, and what is opened only then. -/
theorem windUp_behind {n : Nat} {setting : Setting ω} {f : BatchFault} {after : Session ω}
    (spent : broken.Has (Outlet.Spent n)) {begun : List Sheet} {lost front back : Octets}
    (shown : (broken.desk.holding (broken.delivered ++ lost)).Shows b begun)
    (ended : (Workshop.closeAll broken.workshop).outcome = .ok ())
    (ran : windUp setting.settings.debug f broken = .done () after) {first others : List ResponsePart}
    {torn : ResponsePart} (parts : begun.map (Sheet.finished broken.remaining) = first ++ torn :: others)
    (came : broken.delivered = first.flatMap (ResponsePart.octets b) ++ front)
    (text : torn.octets b = front ++ lost ++ back) :
    after.delivered = broken.delivered ++ back ++
      (others ++ ⟨"application/json", (Encoder.failureBody setting.settings.debug
        (.ofFault f)).octets⟩ :: Report.moduleParts [] broken.remaining).flatMap
          (ResponsePart.octets b) ++ Octets.ofText b.terminator := by
  obtain ⟨more, arrived, whole⟩ := windUp_text setting b f broken after spent shown ended ran
  rw [woundUpParts, parts] at whole
  generalize Report.moduleParts [] broken.remaining = late at whole ⊢
  have rest : more = back ++
      (others ++ ⟨"application/json", (Encoder.failureBody setting.settings.debug
        (.ofFault f)).octets⟩ :: late).flatMap (ResponsePart.octets b) ++
          Octets.ofText b.terminator := by
    refine List.append_cancel_left (whole.trans ?_)
    rw [came]
    simp [text, Account.faultParts, jsonMime]
  rw [arrived, rest]
  simp

end Session

namespace Batch

variable {ω : Type}

/-- For every accepted request with finite sequences and every transport whose write call of one number
panics while it takes all others, however small the chunks: if the panic strikes inside the turns, what
arrives is the text of the parts that had been opened, of the part of the fault, and of the parts that
only the remaining commands open, in this order and up to the closing line, without one piece of one of
the parts that had been opened. If the rest of that part is readable, or nothing of it is left, so is
the whole response, provided that the parts which modules write keep clear of the delimiter. -/
theorem panic_tears_one_part (setting : Setting ω) (world : ω) (body : Octets)
    (info : RequestInfo) (peer : Peer) (boundary : Boundary)
    (token : '\r' ∉ boundary.token.toList) (n : Nat) (envelope : Envelope)
    (accepted : Envelope.parse body info = .ok envelope) (once : peer.PanicsOnce n)
    (finite : ∀ r ∈ (account setting world body info).reports, r.result.isFinite = true)
    (count : Nat) (p : Panic) (broken : Session ω)
    (strikes : Session.Strikes setting (.start setting.settings.maxEntries envelope.entries)
      (.start setting world peer boundary) count p broken) :
    ∃ after first torn others front lost back given,
      run setting world body info peer boundary =
        .of (Workshop.closeAll broken.workshop).outcome after ∧
      after.summary.aborted = true ∧ after.exhausted = false ∧
      (first ++ torn :: others).length = broken.desk.writer.nextHandle ∧
      broken.delivered = first.flatMap (ResponsePart.octets boundary) ++ front ∧
      torn.octets boundary = front ++ lost ++ back ∧
      given.Sublist (((account setting world body info).reports.take (count + 1)).flatMap
        (·.sent)) ∧
      ((Workshop.closeAll broken.workshop).outcome = .ok () →
        after.delivered = broken.delivered ++ back ++
          (others ++ ⟨"application/json", (Encoder.failureBody setting.settings.debug
            (.ofFault (.ofPanic p))).octets⟩ :: Report.moduleParts [] broken.remaining).flatMap
              (ResponsePart.octets boundary) ++ Octets.ofText boundary.terminator ∧
        ((∀ q ∈ Report.moduleParts [] (given ++ (Workshop.closeAll broken.workshop).commands),
            Framing.Unmarked boundary q.body) →
          ∀ rest, front ++ back = rest.flatMap (ResponsePart.octets boundary) →
            (∀ q ∈ rest, Framing.Readable boundary q) →
            Framing.decode boundary after.delivered =
              ⟨first ++ rest ++ others ++ ⟨"application/json", (Encoder.failureBody
                setting.settings.debug (.ofFault (.ofPanic p))).octets⟩ ::
                  Report.moduleParts [] broken.remaining, true⟩)) := by
  obtain ⟨before, later, states, reported, size, fallen, -, whole⟩ :=
    fallen_of_strikes accepted once strikes
  -- the desk as the panic left it still shows all sheets, but for one piece of one of them
  have untouched : Sheet.Told boundary [] [] := fun _ _ member => nomatch member
  obtain ⟨sofar, standing, sum⟩ := untouched.standing setting.settings.debug before []
  obtain ⟨begun, given, struck, among, told⟩ := fallen.parts standing
  obtain ⟨lost, shown, tear⟩ := struck.shown
  obtain ⟨first, torn, others, front, back, parts, came, text⟩ :=
    tear.parts shown.ownedOpen broken.remaining
  obtain ⟨after, ran, -, summed, -⟩ :=
    Session.windUp_comes setting.settings.debug (.ofPanic p) broken struck.struck
  have upTo : (account setting world body info).reports.take (count + 1) =
      before ++ later.head?.toList := by
    rw [reported, ← size, List.take_length_add_append]
    cases later <;> rfl
  rw [sum, List.nil_append, List.nil_append, ← List.flatMap_append, ← upTo] at among
  refine ⟨after, first, torn, others, front, lost, back, given,
    (run_of_strikes accepted strikes).trans ran, by rw [summed],
    (Session.windUp_exhausted ran).trans (whole finite), ?_, came, text, among, fun ended => ?_⟩
  · rw [← parts, List.length_map]
    exact shown.keeps.next.symm
  · rw [ended] at ran
    have delivered := Session.windUp_behind struck.struck shown ended ran parts came text
    refine ⟨delivered, fun unmarked rest left readable => ?_⟩
    have reads (q : ResponsePart) (member : q ∈ begun.map (Sheet.finished broken.remaining) ++
        Report.moduleParts [] broken.remaining) : Framing.Readable boundary q := by
      rcases told _ q member with fine | written
      · exact fine
      · obtain ⟨type, named⟩ := Report.mime_of_moduleParts written
        exact ⟨named ▸ type.name_no_return, unmarked q written⟩
    rw [parts] at reads
    have text : after.delivered = (first ++ rest ++ others ++ ⟨"application/json",
        (Encoder.failureBody setting.settings.debug (.ofFault (.ofPanic p))).octets⟩ ::
          Report.moduleParts [] broken.remaining).flatMap (ResponsePart.octets boundary) ++
            Octets.ofText boundary.terminator := by
      have came : broken.delivered = first.flatMap (ResponsePart.octets boundary) ++ front := came
      rw [delivered, came, List.append_assoc _ front, left]
      simp
    rw [text]
    apply Framing.decode_parts token
    intro q member
    simp only [List.mem_append, List.mem_cons] at member reads
    rcases member with ((early | cut) | behind) | rfl | late
    · exact reads q (.inl (.inl early))
    · exact readable q cut
    · exact reads q (.inl (.inr (.inr behind)))
    · exact Framing.readable_object _
    · exact reads q (.inr late)

/-! One call to nobody. Its result is a part of three blocks when chunks are small, and of one block when
they are not. -/

def ghostRequest : Octets := (Json.object
  [("version", .int 1), ("payload", .object [("c", ghost)])]).octets

theorem ghostRequest_accepted :
    Envelope.parse ghostRequest ⟨some "application/json", true⟩ = .ok ⟨1, [("c", ghost)]⟩ := by
  with_unfolding_all rfl

def faultPart : ResponsePart := ⟨"application/json", Octets.ofText
  "\x7b\"error\":true,\"message\":\"Internal error\",\"version\":100,\"code\":500\x7d"⟩

/-- The first block is the whole part of the result: what is left is the part of the fault. -/
theorem fault_is_read_alone :
    Envelope.parse ghostRequest ⟨some "application/json", true⟩ = .ok ⟨1, [("c", ghost)]⟩ ∧
    ∃ after, run unlimitedNotes 0 ghostRequest ⟨some "application/json", true⟩ (.tripping 1) ⟨"b"⟩ =
        .done () after ∧
      after.summary.aborted = true ∧ Framing.decode ⟨"b"⟩ after.delivered = ⟨[faultPart], true⟩ := by
  have struck : (match Session.takeTurn unlimitedNotes "c" ghost
        (.start unlimitedNotes 0 (.tripping 1) ⟨"b"⟩) with
      | .panicked p broken => (Workshop.closeAll broken.workshop).outcome.toBool &&
          (Workshop.closeAll broken.workshop).commands.isEmpty &&
          broken.delivered.isEmpty && broken.desk.writer.nextHandle == 1 &&
          broken.desk.relay.queue.isEmpty &&
          (Encoder.failureBody unlimitedNotes.settings.debug (.ofFault (.ofPanic p))).octets ==
            faultPart.body
      | .done _ _ => false) = true := by
    decide +kernel
  have sent : (account unlimitedNotes 0 ghostRequest ⟨some "application/json", true⟩).reports.all
      (fun r => r.result.isFinite && r.sent.isEmpty) = true := by
    rw [account_of_accepted unlimitedNotes 0 ghostRequest_accepted]
    decide +kernel
  have whole : (run unlimitedNotes 0 ghostRequest ⟨some "application/json", true⟩ (.tripping 1)
      ⟨"b"⟩).state.delivered = faultPart.octets ⟨"b"⟩ ++ Octets.ofText (Boundary.terminator ⟨"b"⟩) := by
    decide +kernel
  generalize taken : Session.takeTurn unlimitedNotes "c" ghost _ = came at struck
  cases came with
  | done a s => cases struck
  | panicked p broken =>
    simp only [Bool.and_eq_true, beq_iff_eq, List.isEmpty_iff] at struck
    obtain ⟨⟨⟨⟨⟨ends, noneSent⟩, nothing⟩, one⟩, drained⟩, message⟩ := struck
    have ended : (Workshop.closeAll broken.workshop).outcome = .ok () := by
      cases ended : (Workshop.closeAll broken.workshop).outcome with
      | ok => rfl
      | error e => simp [ended, Except.toBool] at ends
    have none : broken.remaining = [] := by rw [Session.remaining, drained, noneSent]; rfl
    obtain ⟨after, first, torn, others, front, lost, back, given, ran, aborted, -, opened, before,
        -, among, behind⟩ :=
      panic_tears_one_part unlimitedNotes 0 ghostRequest ⟨some "application/json", true⟩ (.tripping 1)
        ⟨"b"⟩ (by decide) 1 ⟨1, [("c", ghost)]⟩ ghostRequest_accepted
        (Peer.tripping_panics_once 1 (by decide))
        (fun r member => (Bool.and_eq_true_iff.mp (List.all_eq_true.mp sent r member)).1)
        0 p broken (.inTurn rfl taken)
    obtain ⟨delivered, read⟩ := behind ended
    rw [none, Report.moduleParts, message] at delivered read
    rw [ran, ended] at whole
    -- one part had been opened, so it is the torn one, and nothing had arrived of it
    rw [one, List.length_append, List.length_cons] at opened
    obtain rfl : first = [] := List.eq_nil_of_length_eq_zero (by omega)
    obtain rfl : others = [] := List.eq_nil_of_length_eq_zero (by omega)
    obtain rfl : front = [] := by simpa [nothing] using before.symm
    have gone : back = [] := by
      have size := congrArg List.length (delivered.symm.trans whole)
      simp only [nothing, faultPart, List.length_append, List.flatMap_cons, List.nil_append,
        List.flatMap_nil, List.append_nil] at size
      exact List.eq_nil_of_length_eq_zero (by omega)
    have silent : given = [] := by
      have quiet : (((account unlimitedNotes 0 ghostRequest
          ⟨some "application/json", true⟩).reports.take (0 + 1)).flatMap (·.sent)) = [] := by
        refine List.flatMap_eq_nil_iff.mpr fun r member => List.isEmpty_iff.mp ?_
        exact (Bool.and_eq_true_iff.mp (List.all_eq_true.mp sent r (List.mem_of_mem_take member))).2
      exact List.sublist_nil.mp (quiet ▸ among)
    refine ⟨ghostRequest_accepted, after, by rw [ran, ended]; rfl, aborted, read ?_ [] gone ?_⟩
    · rw [silent, noneSent]
      exact List.forall_mem_nil _
    · exact List.forall_mem_nil _

def hastyCalls : Setting StreamId := { unlimitedNotes with settings := ⟨false, none, none, 1⟩ }

/-- In chunks of one octet, the third block is the line end behind the result. Once that is lost the
part of the fault is read as more of the result. -/
theorem fault_is_read_as_result :
    Envelope.parse ghostRequest ⟨some "application/json", true⟩ = .ok ⟨1, [("c", ghost)]⟩ ∧
    (Peer.tripping 3).PanicsOnce 3 ∧
    (∃ p broken, Session.Strikes hastyCalls (.start none [("c", ghost)])
      (.start hastyCalls 0 (.tripping 3) ⟨"b"⟩) 0 p broken) ∧
    (account hastyCalls 0 ghostRequest ⟨some "application/json", true⟩).reports.all
      (fun r => r.result.isFinite && r.sent.isEmpty) = true ∧
    ∃ after, run hastyCalls 0 ghostRequest ⟨some "application/json", true⟩ (.tripping 3) ⟨"b"⟩ =
        .done () after ∧
      after.summary.aborted = true ∧
      (Framing.decode ⟨"b"⟩ after.delivered).parts.length = 1 ∧
      faultPart ∉ (Framing.decode ⟨"b"⟩ after.delivered).parts := by
  have struck : (match Session.takeTurn hastyCalls "c" ghost
        (.start hastyCalls 0 (.tripping 3) ⟨"b"⟩) with
      | .panicked _ _ => true
      | .done _ _ => false) = true := by
    decide +kernel
  have swallowed : (match run hastyCalls 0 ghostRequest ⟨some "application/json", true⟩ (.tripping 3)
        ⟨"b"⟩ with
      | .done _ after => after.summary.aborted &&
          ((Framing.decode ⟨"b"⟩ after.delivered).parts.length == 1 &&
            !(Framing.decode ⟨"b"⟩ after.delivered).parts.contains faultPart)
      | .panicked _ _ => false) = true := by
    decide +kernel
  refine ⟨ghostRequest_accepted, Peer.tripping_panics_once 3 (by decide), ?_, ?_, ?_⟩
  · generalize taken : Session.takeTurn hastyCalls "c" ghost _ = came at struck
    cases came with
    | done a s => cases struck
    | panicked p broken => exact ⟨p, broken, .inTurn rfl taken⟩
  · rw [account_of_accepted hastyCalls 0 ghostRequest_accepted]
    decide +kernel
  · generalize run hastyCalls 0 ghostRequest _ _ _ = came at swallowed
    cases came with
    | panicked p s => cases swallowed
    | done a after =>
      simp only [Bool.and_eq_true, beq_iff_eq, Bool.not_eq_true', List.contains_eq_mem,
        decide_eq_false_iff_not] at swallowed
      exact ⟨after, rfl, swallowed⟩

end Batch
end Multicall
