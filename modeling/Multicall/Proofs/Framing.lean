import Mathlib.Data.List.Basic
import Multicall.Proofs.Account
import Multicall.Proofs.PlainText
import Multicall.Proofs.WholeResponse
/-!
Reading a response back. A reader knows the token and looks at nothing but lines: a delimiter stands
at the very start or right behind a line end, a part is its head line, a blank line and everything up
to the line end in front of the next delimiter. Reading gives back what was written, part by part,
since no delimiter can begin inside the body of a part and end outside of it.
-/
namespace Multicall

theorem MediaType.name_no_return (type : MediaType) : '\r' ∉ type.name.toList := by
  cases type <;> decide

namespace Framing

inductive Mark
  | part (rest : Octets)
  | ending (rest : Octets)

def Mark.rest : Mark → Octets
  | .part rest => rest
  | .ending rest => rest

def mark? (b : Boundary) (text : Octets) : Option Mark :=
  (text.dropPrefix? (Octets.ofText b.delimiter)).bind fun rest =>
    match rest.dropPrefix? Writer.lineEnd with
    | some rest => some (.part rest)
    | none => (rest.dropPrefix? (Octets.ofText "--\r\n")).map .ending

def line? : Octets → Option (Octets × Octets)
  | [] => none
  | first :: rest =>
      match (first :: rest).dropPrefix? Writer.lineEnd with
      | some rest => some ([], rest)
      | none => (line? rest).map fun (line, rest) => (first :: line, rest)

/-- The media type in the head of a part, and what follows the blank line. -/
def head? (text : Octets) : Option (String × Octets) := do
  let line ← text.dropPrefix? (Octets.ofText "Content-Type: ")
  let (mime, rest) ← line? line
  return (← Octets.text? mime, ← rest.dropPrefix? Writer.lineEnd)

/-- Everything up to the line end in front of the next delimiter, and that delimiter. -/
def body? (b : Boundary) : Octets → Option (Octets × Mark)
  | [] => none
  | first :: rest =>
      match ((first :: rest).dropPrefix? Writer.lineEnd).bind (mark? b) with
      | some mark => some ([], mark)
      | none => (body? b rest).map fun (body, mark) => (first :: body, mark)

/-- A part whose delimiter line has been read, and the next delimiter. A delimiter right behind the
head is none of a part with a body. -/
def part? (b : Boundary) (text : Octets) : Option (ResponsePart × Mark) := do
  let (mime, content) ← head? text
  match mark? b content with
  | some _ => none
  | none => (body? b content).map fun (body, mark) => (⟨mime, body⟩, mark)

/-- What a reader gets: the parts, and whether the response came to its end and nothing follows. -/
structure Decoded where
  parts : List ResponsePart
  terminated : Bool
  deriving DecidableEq

section Length

theorem eq_append_of_dropPrefix? {start text rest : Octets}
    (found : text.dropPrefix? start = some rest) : text = start ++ rest := by
  obtain ⟨front, rfl, same⟩ := List.dropPrefix?_eq_some_iff.mp found
  rw [eq_of_beq same]

theorem dropPrefix?_append (start rest : Octets) : (start ++ rest).dropPrefix? start = some rest :=
  List.dropPrefix?_append_of_beq rest (beq_self_eq_true start)

theorem dropPrefix?_length {start text rest : Octets}
    (found : text.dropPrefix? start = some rest) : text.length = start.length + rest.length := by
  rw [eq_append_of_dropPrefix? found, List.length_append]

theorem mark?_length {b : Boundary} {text : Octets} {mark : Mark} (found : mark? b text = some mark) :
    mark.rest.length ≤ text.length := by
  obtain ⟨rest, delimiter, ended⟩ := Option.bind_eq_some_iff.mp found
  have whole := dropPrefix?_length delimiter
  split at ended
  case _ more line =>
    cases ended
    have shorter := dropPrefix?_length line
    simp only [Mark.rest]
    omega
  case _ =>
    obtain ⟨more, line, rfl⟩ := Option.map_eq_some_iff.mp ended
    have shorter := dropPrefix?_length line
    simp only [Mark.rest]
    omega

theorem line?_length {text line rest : Octets} (found : line? text = some (line, rest)) :
    rest.length ≤ text.length := by
  induction text generalizing line with
  | nil => cases found
  | cons first more ih =>
    rw [line?] at found
    split at found
    case _ behind ended =>
      cases found
      have whole := dropPrefix?_length ended
      omega
    case _ =>
      obtain ⟨⟨later, left⟩, next, same⟩ := Option.map_eq_some_iff.mp found
      cases same
      exact Nat.le_succ_of_le (ih next)

theorem head?_length {text rest : Octets} {mime : String} (found : head? text = some (mime, rest)) :
    rest.length ≤ text.length := by
  obtain ⟨line, named, found⟩ := Option.bind_eq_some_iff.mp found
  obtain ⟨⟨spelled, more⟩, ended, found⟩ := Option.bind_eq_some_iff.mp found
  obtain ⟨mime, -, found⟩ := Option.bind_eq_some_iff.mp found
  obtain ⟨content, blank, same⟩ := Option.bind_eq_some_iff.mp found
  cases same
  have first := dropPrefix?_length named
  have second := line?_length ended
  have third := dropPrefix?_length blank
  omega

theorem body?_length {b : Boundary} {text body : Octets} {mark : Mark}
    (found : body? b text = some (body, mark)) : mark.rest.length < text.length := by
  induction text generalizing body with
  | nil => cases found
  | cons first more ih =>
    rw [body?] at found
    split at found
    case _ next ended =>
      cases found
      obtain ⟨line, behind, next⟩ := Option.bind_eq_some_iff.mp ended
      have whole := dropPrefix?_length behind
      have shorter := mark?_length next
      simp only [Writer.lineEnd, List.length_cons, List.length_nil] at whole ⊢
      omega
    case _ =>
      obtain ⟨⟨later, left⟩, next, same⟩ := Option.map_eq_some_iff.mp found
      cases same
      exact Nat.lt_succ_of_lt (ih next)

theorem part?_length {b : Boundary} {text : Octets} {part : ResponsePart} {mark : Mark}
    (found : part? b text = some (part, mark)) : mark.rest.length < text.length := by
  obtain ⟨⟨mime, content⟩, head, found⟩ := Option.bind_eq_some_iff.mp found
  have shorter := head?_length head
  dsimp only at found
  split at found
  case _ => cases found
  case _ =>
    obtain ⟨⟨body, next⟩, ended, same⟩ := Option.map_eq_some_iff.mp found
    cases same
    exact Nat.lt_of_lt_of_le (body?_length ended) shorter

end Length

def decodeFrom (b : Boundary) : Option Mark → Decoded
  | none => ⟨[], false⟩
  | some (.ending rest) => ⟨[], rest.isEmpty⟩
  | some (.part rest) =>
      match _h : part? b rest with
      | none => ⟨[], false⟩
      | some (part, mark) =>
          let later := decodeFrom b (some mark)
          ⟨part :: later.parts, later.terminated⟩
termination_by mark => (mark.map (·.rest.length)).getD 0
decreasing_by exact part?_length _h

def decode (b : Boundary) (text : Octets) : Decoded := decodeFrom b (mark? b text)

/-! What no reader can take for a delimiter. -/

/-- The delimiter stands neither at the start of a body nor right behind a line end in it. -/
structure Unmarked (b : Boundary) (body : Octets) : Prop where
  start : ¬ Octets.ofText b.delimiter <+: body
  inside : ∀ front back, body = front ++ Writer.lineEnd ++ back →
    ¬ Octets.ofText b.delimiter <+: back

/-- A body of one line that does not start with the delimiter. -/
theorem unmarked_of_no_return {b : Boundary} {body : Octets}
    (start : ¬ Octets.ofText b.delimiter <+: body) (none : (13 : UInt8) ∉ body) :
    Unmarked b body where
  start := start
  inside front back same := by
    refine absurd ?_ none
    rw [same, Writer.lineEnd]
    simp

structure Readable (b : Boundary) (p : ResponsePart) : Prop where
  mime : '\r' ∉ p.mime.toList
  body : Unmarked b p.body

theorem delimiter_of_mark? {b : Boundary} {text : Octets} {mark : Mark}
    (found : mark? b text = some mark) : Octets.ofText b.delimiter <+: text := by
  obtain ⟨rest, delimiter, -⟩ := Option.bind_eq_some_iff.mp found
  exact ⟨rest, (eq_append_of_dropPrefix? delimiter).symm⟩

variable {b : Boundary}

theorem delimiter_no_return (token : '\r' ∉ b.token.toList) :
    (13 : UInt8) ∉ Octets.ofText b.delimiter := by
  apply Octets.no_return
  rw [Boundary.delimiter, String.toList_append]
  exact fun member => (List.mem_append.mp member).elim (by decide) token

theorem delimiter_octets :
    Octets.ofText b.delimiter = 45 :: 45 :: Octets.ofText b.token := by
  rw [Octets.ofText, Boundary.delimiter, String.toList_append, Octets.ofChars_append]
  rfl

/-- A delimiter cannot begin inside a text and end outside of it: the line end is in its way. -/
theorem delimiter_within (token : '\r' ∉ b.token.toList) {text rest : Octets}
    (found : Octets.ofText b.delimiter <+: text ++ (Writer.lineEnd ++ rest)) :
    Octets.ofText b.delimiter <+: text := by
  rcases List.prefix_or_prefix_of_prefix found (List.prefix_append text _) with inside | ⟨more, same⟩
  · exact inside
  · rw [← same, List.prefix_append_right_inj] at found
    cases more with
    | nil => exact ⟨[], by rw [← same, List.append_nil, List.append_nil]⟩
    | cons octet more =>
      -- it would go on with the line end
      obtain ⟨tail, spelled⟩ := found
      have first : octet = 13 := (List.cons_eq_cons.mp spelled).1
      refine absurd ?_ (delimiter_no_return token)
      rw [← same, first]
      simp

theorem mark?_of_part (rest : Octets) :
    mark? b (Octets.ofText b.delimiter ++ (Writer.lineEnd ++ rest)) = some (.part rest) := by
  rw [mark?, dropPrefix?_append, Option.bind_some, dropPrefix?_append]

theorem mark?_of_terminator : mark? b (Octets.ofText b.terminator) = some (.ending []) := by
  have spelled : Octets.ofText b.terminator = Octets.ofText b.delimiter ++ Octets.ofText "--\r\n" := by
    simp only [Boundary.terminator, Boundary.delimiter, Octets.ofText, String.toList_append,
      Octets.ofChars_append]
  have ends := dropPrefix?_append (Octets.ofText "--\r\n") []
  rw [List.append_nil] at ends
  rw [mark?, spelled, dropPrefix?_append, Option.bind_some, ends]
  rfl

theorem line?_of_no_return {line : Octets} (none : (13 : UInt8) ∉ line) (rest : Octets) :
    line? (line ++ (Writer.lineEnd ++ rest)) = some (line, rest) := by
  induction line with
  | nil =>
    have ended := dropPrefix?_append Writer.lineEnd rest
    rw [Writer.lineEnd] at ended
    rw [List.nil_append, Writer.lineEnd, List.cons_append, line?, ← List.cons_append, Writer.lineEnd,
      ended]
  | cons first more ih =>
    have differs : ¬ (first == 13) = true := fun same => none (eq_of_beq same ▸ List.mem_cons_self)
    have later := ih fun member => none (List.mem_cons_of_mem _ member)
    rw [List.cons_append, line?, Writer.lineEnd, List.dropPrefix?, if_neg differs]
    rw [Writer.lineEnd] at later
    simp only [later, Option.map_some]

/-- Reading a body goes on to its end: every line end inside of it is followed by something else than
a delimiter. -/
theorem body?_of_unmarked (token : '\r' ∉ b.token.toList) {body : Octets} (unmarked : Unmarked b body)
    {mark : Mark} {rest : Octets} (next : mark? b rest = some mark) (front back : Octets)
    (split : body = front ++ back) :
    body? b (back ++ (Writer.lineEnd ++ rest)) = some (back, mark) := by
  induction back generalizing front with
  | nil =>
    have ended : ((13 :: ([10] ++ rest)).dropPrefix? Writer.lineEnd).bind (mark? b) = some mark := by
      rw [show (13 :: ([10] ++ rest) : Octets).dropPrefix? Writer.lineEnd = some rest from
        dropPrefix?_append Writer.lineEnd rest, Option.bind_some, next]
    rw [List.nil_append, Writer.lineEnd, List.cons_append, body?, ended]
  | cons first more ih =>
    have later := ih (front ++ [first]) (by rw [split]; simp)
    have goes_on : ((first :: more ++ (Writer.lineEnd ++ rest)).dropPrefix? Writer.lineEnd).bind
        (mark? b) = none := by
      rw [Option.bind_eq_none_iff]
      intro left found
      rw [Option.eq_none_iff_forall_ne_some]
      intro other marked
      have spelled : first :: (more ++ (Writer.lineEnd ++ rest)) = 13 :: 10 :: left :=
        eq_append_of_dropPrefix? found
      obtain ⟨rfl, onward⟩ := List.cons_eq_cons.mp spelled
      cases more with
      | nil => exact absurd (List.cons_eq_cons.mp onward).1 (by decide)
      | cons second more =>
        obtain ⟨rfl, rfl⟩ := List.cons_eq_cons.mp onward
        exact unmarked.inside front more (by rw [split, Writer.lineEnd]; simp)
          (delimiter_within token (delimiter_of_mark? marked))
    rw [List.cons_append, body?, ← List.cons_append, goes_on]
    simp only [later, Option.map_some]

theorem head?_of_no_return {mime : String} (none : '\r' ∉ mime.toList) (content : Octets) :
    head? (Octets.ofText "Content-Type: " ++ (Octets.ofText mime ++ (Writer.lineEnd ++
      (Writer.lineEnd ++ content)))) = some (mime, content) := by
  have line : line? (Octets.ofText mime ++ (Writer.lineEnd ++ (Writer.lineEnd ++ content))) =
      some (Octets.ofText mime, Writer.lineEnd ++ content) :=
    line?_of_no_return (Octets.no_return none) _
  rw [head?, dropPrefix?_append]
  show (line? (Octets.ofText mime ++ (Writer.lineEnd ++ (Writer.lineEnd ++ content)))).bind _ = _
  rw [line]
  show (Octets.text? (Octets.ofText mime)).bind _ = _
  rw [Octets.text?_ofText, Option.bind_some]
  show ((Writer.lineEnd ++ content).dropPrefix? Writer.lineEnd).bind _ = _
  rw [dropPrefix?_append]
  rfl

theorem part?_of_readable (token : '\r' ∉ b.token.toList) {p : ResponsePart} (readable : Readable b p)
    {mark : Mark} {rest : Octets} (next : mark? b rest = some mark) :
    part? b (Octets.ofText "Content-Type: " ++ (Octets.ofText p.mime ++ (Writer.lineEnd ++
      (Writer.lineEnd ++ (p.body ++ (Writer.lineEnd ++ rest)))))) = some (p, mark) := by
  have starts : mark? b (p.body ++ (Writer.lineEnd ++ rest)) = none := by
    rw [Option.eq_none_iff_forall_ne_some]
    intro other marked
    exact readable.body.start (delimiter_within token (delimiter_of_mark? marked))
  rw [part?, head?_of_no_return readable.mime]
  show (match mark? b (p.body ++ (Writer.lineEnd ++ rest)) with
    | some _ => none
    | none => _ : Option (ResponsePart × Mark)) = _
  rw [starts, body?_of_unmarked token readable.body next [] p.body rfl]
  rfl

theorem octets_append (p : ResponsePart) (rest : Octets) :
    p.octets b ++ rest = Octets.ofText b.delimiter ++ (Writer.lineEnd ++
      (Octets.ofText "Content-Type: " ++ (Octets.ofText p.mime ++ (Writer.lineEnd ++
        (Writer.lineEnd ++ (p.body ++ (Writer.lineEnd ++ rest))))))) := by
  have first : Octets.ofText "\r\nContent-Type: " =
      Writer.lineEnd ++ Octets.ofText "Content-Type: " := by decide +kernel
  have blank : Octets.ofText "\r\n\r\n" = Writer.lineEnd ++ Writer.lineEnd := by decide +kernel
  have last : Octets.ofText "\r\n" = Writer.lineEnd := by decide +kernel
  simp only [Octets.ofText] at first blank last
  simp only [ResponsePart.octets, Boundary.delimiter, Octets.ofText, String.toList_append,
    Octets.ofChars_append, first, blank, last, List.append_assoc]

theorem decode_parts (token : '\r' ∉ b.token.toList) (parts : List ResponsePart)
    (readable : ∀ p ∈ parts, Readable b p) :
    decode b (parts.flatMap (ResponsePart.octets b) ++ Octets.ofText b.terminator) =
      ⟨parts, true⟩ := by
  -- whatever is left to read starts with a delimiter line
  have reads : ∃ mark, mark? b (parts.flatMap (ResponsePart.octets b) ++
      Octets.ofText b.terminator) = some mark ∧ decodeFrom b (some mark) = ⟨parts, true⟩ := by
    induction parts with
    | nil => exact ⟨.ending [], mark?_of_terminator, by rw [decodeFrom]; rfl⟩
    | cons p rest ih =>
      obtain ⟨first, others⟩ := List.forall_mem_cons.mp readable
      obtain ⟨mark, next, decoded⟩ := ih others
      rw [List.flatMap_cons, List.append_assoc, octets_append]
      refine ⟨_, mark?_of_part _, ?_⟩
      rw [decodeFrom]
      split
      case _ nothing =>
        rw [part?_of_readable token first next] at nothing
        cases nothing
      case _ read =>
        rw [part?_of_readable token first next] at read
        cases read
        rw [decoded]
  obtain ⟨mark, found, decoded⟩ := reads
  rw [decode, found, decoded]

/-- The text of an object is readable, and so is any front piece of it: nothing but the brace stands at
its start. -/
theorem readable_front {members : Members} {body : Octets}
    (front : body <+: (Json.object members).octets) : Readable b ⟨jsonMime, body⟩ where
  mime := (by decide : '\r' ∉ jsonMime.toList)
  body := by
    refine unmarked_of_no_return ?_ fun member => Json.octets_no_return _ (front.subset member)
    intro starts
    obtain ⟨rest, spelled⟩ := starts.trans front
    have brace : (Json.object members).octets =
        123 :: Octets.ofChars (Json.commaSeparated (Json.memberTexts members) ++ ['\x7d']) := rfl
    rw [brace, delimiter_octets] at spelled
    exact absurd (List.cons_eq_cons.mp spelled).1 (by decide)

theorem readable_object (members : Members) :
    Readable b ⟨jsonMime, (Json.object members).octets⟩ :=
  readable_front List.prefix_rfl

/-- So is a part that has only been opened. -/
theorem readable_opened (type : MediaType) : Readable b ⟨type.name, []⟩ where
  mime := type.name_no_return
  body := by
    refine unmarked_of_no_return ?_ List.not_mem_nil
    rw [delimiter_octets]
    exact fun starts => nomatch List.prefix_nil.mp starts

end Framing

namespace Report

theorem moduleParts_append (later first second : List PartCommand) :
    moduleParts later (first ++ second) =
      moduleParts (second ++ later) first ++ moduleParts later second := by
  induction first with
  | nil => rfl
  | cons c rest ih => cases c <;> simp [moduleParts, ih]

/-- A module can give its parts no media type but those that are offered. -/
theorem mime_of_moduleParts {later commands : List PartCommand} {p : ResponsePart}
    (member : p ∈ moduleParts later commands) : ∃ type : MediaType, p.mime = type.name := by
  induction commands with
  | nil => cases member
  | cons c rest ih =>
    cases c with
    | openPart stream mime =>
      rcases List.mem_cons.mp member with rfl | member
      · exact ⟨mime, rfl⟩
      · exact ih member
    | write stream bytes => exact ih member
    | close stream => exact ih member

theorem mem_partsThen {debug : Bool} {later : List PartCommand} {reports : List Report}
    {p : ResponsePart} (member : p ∈ partsThen debug later reports) :
    (∃ r ∈ reports, p = r.resultPart debug) ∨ p ∈ moduleParts later (reports.flatMap (·.sent)) := by
  induction reports with
  | nil => cases member
  | cons r rest ih =>
    rw [List.flatMap_cons, moduleParts_append, sent, moduleParts_append]
    rcases List.mem_append.mp member with opened | more
    · exact .inr (List.mem_append_left _ (List.mem_append_left _ opened))
    · rcases List.mem_cons.mp more with rfl | more
      · exact .inl ⟨r, List.mem_cons_self, rfl⟩
      · rcases List.mem_append.mp more with behind | more
        · exact .inr (List.mem_append_left _ (List.mem_append_right _ behind))
        · rcases ih more with ⟨other, among, same⟩ | opened
          · exact .inl ⟨other, List.mem_cons_of_mem _ among, same⟩
          · exact .inr (List.mem_append_right _ opened)

end Report

namespace Account

variable {ω : Type}

/-- A part is the text of an object, or a module wrote it. -/
theorem mem_parts {debug : Bool} {a : Account ω} {p : ResponsePart} (member : p ∈ a.parts debug) :
    (∃ members : Members, p = ⟨jsonMime, (Json.object members).octets⟩) ∨ p ∈ a.writtenParts := by
  rw [writtenParts, commands, Report.moduleParts_append, List.append_nil]
  rcases List.mem_append.mp member with inTurns | closing
  · rcases List.mem_append.mp inTurns with reported | fault
    · rcases Report.mem_partsThen reported with ⟨r, -, rfl⟩ | opened
      · exact .inl ⟨_, rfl⟩
      · exact .inr (List.mem_append_left _ opened)
    · obtain ⟨f, -, rfl⟩ := List.mem_map.mp fault
      exact .inl ⟨_, rfl⟩
  · exact .inr (List.mem_append_right _ closing)

end Account

namespace Batch

variable {ω : Type}

/-- For every request, accepted or refused, within the limit on entries or beyond it, every token
without a carriage return and every peer that takes everything: a run with finite sequences that is
not broken off by a close hook has sent what reads back as its parts, all of them in order, up to the
end of the response. Only the parts that modules write have to keep clear of the delimiter, at their
start and behind line ends. Ids, values, messages and the elements of sequences are free. -/
theorem decode_undoes_framing (setting : Setting ω) (world : ω) (body : Octets) (info : RequestInfo)
    (peer : Peer) (boundary : Boundary) (token : '\r' ∉ boundary.token.toList)
    (takesAll : peer.TakesAll)
    (finite : ∀ r ∈ (account setting world body info).reports, r.result.isFinite = true)
    (unmarked : ∀ p ∈ (account setting world body info).writtenParts,
      Framing.Unmarked boundary p.body) :
    ∃ after, run setting world body info peer boundary =
        .of (account setting world body info).closing.outcome after ∧ after.exhausted = false ∧
      ((account setting world body info).closing.outcome = .ok () →
        Framing.decode boundary after.delivered =
          ⟨(account setting world body info).parts setting.settings.debug, true⟩) := by
  obtain ⟨after, ran, -, -, arrived, whole⟩ :=
    run_comes setting world body info peer boundary takesAll
  refine ⟨after, ran, whole finite, fun ended => ?_⟩
  rw [arrived ended]
  apply Framing.decode_parts token
  intro p member
  rcases Account.mem_parts member with ⟨members, rfl⟩ | written
  · exact Framing.readable_object members
  · obtain ⟨type, named⟩ := Report.mime_of_moduleParts written
    exact ⟨named ▸ type.name_no_return, unmarked p written⟩

/-- Even an empty token will do: two dashes are a delimiter then, and no result starts with them. -/
theorem decode_of_open_note :
    ∃ after, run noteSetting 0 noteRequest ⟨some "application/json", true⟩ .accepting ⟨""⟩ =
        .done () after ∧
      Framing.decode ⟨""⟩ after.delivered =
        ⟨[⟨"text/plain", Octets.ofText "hi"⟩,
          ⟨"application/json",
           Octets.ofText "\x7b\"a\":\x7b\"error\":false,\"result\":null\x7d\x7d"⟩,
          ⟨"application/json",
           Octets.ofText "\x7b\"b\":\x7b\"error\":false,\"result\":null\x7d\x7d"⟩], true⟩ := by
  have known := account_of_accepted noteSetting 0 noteRequest_accepted
  have written : (account noteSetting 0 noteRequest ⟨some "application/json", true⟩).writtenParts =
      [⟨"text/plain", Octets.ofText "hi"⟩] := by
    rw [known]
    decide +kernel
  obtain ⟨after, ran, -, decoded⟩ := decode_undoes_framing noteSetting 0 noteRequest
    ⟨some "application/json", true⟩ .accepting ⟨""⟩ (by decide) Peer.accepting_takes_all
    noteAccount_finite
    (fun p member => by
      rw [written, List.mem_singleton] at member
      subst member
      exact Framing.unmarked_of_no_return (by decide) (by decide))
  refine ⟨after, ran.trans (by rw [noteAccount_quiet]; rfl), (decoded noteAccount_quiet).trans ?_⟩
  rw [known]
  decide +kernel

end Batch
end Multicall
