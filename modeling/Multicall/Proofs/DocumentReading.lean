import Multicall.Proofs.WrittenDocuments
/-!
Reading accepts exactly the written documents. The reader works on a stack of open brackets, the
grammar by recursion; a piece of the grammar takes the reader from the stack it began with to the same
stack with the piece's document in its place. That what is spelled is read goes by induction on how it
is spelled. That what is read was spelled goes by induction on the length of the text, since items and
members of a value only become pieces as they are met. Readings are compared at their ends: how many
steps they were allowed does not count from the length of the text on.
-/
namespace Multicall.Json

theorem SpellsScalar.shortens {v : Json} {text rest : List Char} (spelled : SpellsScalar v text rest) :
    rest.length < text.length := by
  cases spelled with
  | null | yes | no =>
      simp only [List.length_cons]
      omega
  | string inside => exact Nat.lt_succ_of_lt (length_scanString inside)
  | number _ literal => exact length_scanNumber literal

/-- What is spelled begins with a mark that closes nothing. -/
theorem SpellsScalar.head {v : Json} {text rest : List Char} (spelled : SpellsScalar v text rest) :
    ∃ c cs, text = c :: cs ∧ isBlank c = false ∧ c ≠ ']' ∧ c ≠ '\x7d' := by
  cases spelled with
  | null | yes | no | string => exact ⟨_, _, rfl, by decide, by decide, by decide⟩
  | @number _ c text rest begins _ =>
      have differs {d : Char} (other : d ≠ '-' ∧ d.isDigit = false) : c ≠ d := by
        rintro rfl
        simp [other] at begins
      have mark : isBlank c = false := by
        simp only [isBlank, Bool.or_eq_false_iff, beq_eq_false_iff_ne]
        exact ⟨⟨⟨differs (by decide), differs (by decide)⟩, differs (by decide)⟩, differs (by decide)⟩
      exact ⟨_, _, rfl, mark, differs (by decide), differs (by decide)⟩

theorem Spells.head {p : Piece} {text rest : List Char} (spelled : Spells p text rest) :
    ∃ c cs, text = c :: cs ∧ isBlank c = false ∧ c ≠ ']' ∧ c ≠ '\x7d' := by
  induction spelled with
  | scalar spelled => exact spelled.head
  | lastItem _ _ ih => exact ih
  | item _ _ _ _ ih => exact ih
  | emptyArray | array | emptyObject | object | lastMember | member =>
      exact ⟨_, _, rfl, by decide, by decide, by decide⟩

theorem Blanks.refl {text : List Char} : Blanks text text := ⟨[], rfl, nofun⟩

namespace Reader

/-! One step of the reader. -/

theorem stepValue_of_scalar {v : Json} {c : Char} {text rest : List Char} (frames : List Frame)
    (spelled : SpellsScalar v (c :: text) rest) :
    stepValue frames c text = .ok (accept v frames, rest) := by
  cases spelled with
  | null | yes | no => rfl
  | string inside =>
      rw [stepValue, inside]
      rfl
  | number begins literal =>
      have differs : (c == '-' || c.isDigit) = true := by simpa using begins
      rw [stepValue.eq_def]
      split
      case h_7 =>
        rw [if_pos differs, literal]
        rfl
      all_goals exact absurd differs (by decide)

/-- What reading a value can begin with: a scalar, or an open bracket where one more may be open. -/
theorem stepValue_cases {frames : List Frame} {c : Char} {text rest : List Char} {r : Reader}
    (stepped : stepValue frames c text = .ok (r, rest)) :
    (∃ v, SpellsScalar v (c :: text) rest ∧ r = accept v frames) ∨
    (c = '[' ∧ frames.length < maxDepth ∧ r = ⟨.items [] :: frames, .itemOrClose⟩ ∧ rest = text) ∨
    (c = '\x7b' ∧ frames.length < maxDepth ∧ r = ⟨frames, .nameOrClose⟩ ∧ rest = text) := by
  -- the branches on the first character: three words, a text, two brackets, and a number
  rw [stepValue.eq_def] at stepped
  split at stepped
  · obtain ⟨behind, word, told⟩ := ok_of_bind stepped
    cases told
    rw [(scanWord_eq_ok_iff ..).mp word]
    exact .inl ⟨_, .null, rfl⟩
  · obtain ⟨behind, word, told⟩ := ok_of_bind stepped
    cases told
    rw [(scanWord_eq_ok_iff ..).mp word]
    exact .inl ⟨_, .yes, rfl⟩
  · obtain ⟨behind, word, told⟩ := ok_of_bind stepped
    cases told
    rw [(scanWord_eq_ok_iff ..).mp word]
    exact .inl ⟨_, .no, rfl⟩
  · obtain ⟨⟨s, behind⟩, inside, told⟩ := ok_of_bind stepped
    cases told
    exact .inl ⟨_, .string inside, rfl⟩
  · split at stepped
    · next room =>
        cases stepped
        exact .inr (.inl ⟨rfl, room, rfl, rfl⟩)
    · cases stepped
  · split at stepped
    · next room =>
        cases stepped
        exact .inr (.inr ⟨rfl, room, rfl, rfl⟩)
    · cases stepped
  · split at stepped
    · next begins =>
        obtain ⟨⟨n, behind⟩, literal, told⟩ := ok_of_bind stepped
        cases told
        exact .inl ⟨_, .number (by simpa using begins) literal, rfl⟩
    · cases stepped

theorem stepName_eq_ok {frames : List Frame} {read : Members} {c : Char} {text rest : List Char}
    {r : Reader} (stepped : stepName frames read c text = .ok (r, rest)) :
    c = '"' ∧ ∃ name, scanString text = .ok (name, rest) ∧ r = ⟨frames, .colon read name⟩ := by
  rw [stepName] at stepped
  split at stepped
  · next quote =>
      obtain ⟨⟨name, behind⟩, named, told⟩ := ok_of_bind stepped
      cases told
      exact ⟨quote, name, named, rfl⟩
  · cases stepped

theorem step_length {r next : Reader} {c : Char} {text rest : List Char}
    (stepped : r.step c text = .ok (next, rest)) : rest.length ≤ text.length := by
  have value {frames : List Frame} (stepped : stepValue frames c text = .ok (next, rest)) :
      rest.length ≤ text.length := by
    rcases stepValue_cases stepped with ⟨v, spelled, -⟩ | ⟨-, -, -, rfl⟩ | ⟨-, -, -, rfl⟩
    · exact Nat.le_of_lt_succ spelled.shortens
    · exact Nat.le_refl _
    · exact Nat.le_refl _
  have name {frames : List Frame} {read : Members}
      (stepped : stepName frames read c text = .ok (next, rest)) : rest.length ≤ text.length := by
    obtain ⟨-, name, named, -⟩ := stepName_eq_ok stepped
    exact Nat.le_of_lt (length_scanString named)
  rw [step.eq_def] at stepped
  split at stepped
  case h_6 | h_7 | h_8 => exact value stepped
  case h_9 | h_10 => exact name stepped
  case h_12 =>
    rw [stepSeparator.eq_def] at stepped
    split at stepped <;> cases stepped <;> exact Nat.le_refl _
  all_goals cases stepped <;> exact Nat.le_refl _

section Step

variable {frames : List Frame} {read : List Json} {members : Members} {name : String} {c : Char}
  {text rest : List Char} {r : Reader}

theorem step_value : (⟨frames, .value⟩ : Reader).step c text = stepValue frames c text := rfl

theorem step_item (goesOn : c ≠ ']') :
    (⟨frames, .item⟩ : Reader).step c text = stepValue frames c text := by
  rw [step.eq_def]
  split <;> simp_all

theorem step_itemOrClose (goesOn : c ≠ ']') :
    (⟨frames, .itemOrClose⟩ : Reader).step c text = stepValue frames c text := by
  rw [step.eq_def]
  split <;> simp_all

theorem step_name (goesOn : c ≠ '\x7d') :
    (⟨frames, .name members⟩ : Reader).step c text = stepName frames members c text := by
  rw [step.eq_def]
  split <;> simp_all

theorem step_nameOrClose (goesOn : c ≠ '\x7d') :
    (⟨frames, .nameOrClose⟩ : Reader).step c text = stepName frames [] c text := by
  rw [step.eq_def]
  split <;> simp_all

theorem step_colon_eq_ok
    (stepped : (⟨frames, .colon members name⟩ : Reader).step c text = .ok (r, rest)) :
    c = ':' ∧ r = ⟨.members members name :: frames, .value⟩ ∧ rest = text := by
  by_cases colon : c = ':'
  · subst colon
    cases stepped
    exact ⟨rfl, rfl, rfl⟩
  · rw [step.eq_def] at stepped
    split at stepped <;> simp_all [stop]

theorem step_items_separator_eq_ok
    (stepped : (⟨.items read :: frames, .separator⟩ : Reader).step c text = .ok (r, rest)) :
    rest = text ∧ (c = ',' ∧ r = ⟨.items read :: frames, .item⟩ ∨
      c = ']' ∧ r = accept (.array read.reverse) frames) := by
  have separated : stepSeparator (.items read :: frames) c text = .ok (r, rest) := stepped
  rw [stepSeparator.eq_def] at separated
  split at separated <;> simp_all [stop]

theorem step_members_separator_eq_ok
    (stepped : (⟨.members members name :: frames, .separator⟩ : Reader).step c text =
      .ok (r, rest)) :
    rest = text ∧ (c = ',' ∧ r = ⟨frames, .name members⟩ ∨
      c = '\x7d' ∧ r = accept (.object members) frames) := by
  have separated : stepSeparator (.members members name :: frames) c text = .ok (r, rest) := stepped
  rw [stepSeparator.eq_def] at separated
  split at separated <;> simp_all [stop]

end Step

/-! Reading to the end, where steps do not count. -/

/-- More steps than there are octets change nothing. -/
theorem run_succ (steps : Nat) (r : Reader) (text : List Char) (enough : text.length ≤ steps) :
    run (steps + 1) r text = run steps r text := by
  induction steps generalizing r text with
  | zero =>
      cases text with
      | nil => rfl
      | cons c text => simp at enough
  | succ steps ih =>
      cases text with
      | nil => rfl
      | cons c text =>
          have fewer : text.length ≤ steps := Nat.le_of_succ_le_succ enough
          rw [run, run]
          by_cases blank : isBlank c = true
          · rw [if_pos blank, if_pos blank, ih r text fewer]
          · rw [if_neg blank, if_neg blank]
            cases stepped : r.step c text with
            | error s => rfl
            | ok next => exact ih next.1 next.2 (Nat.le_trans (step_length stepped) fewer)

def runAll (r : Reader) (text : List Char) : Except Stop Json := run text.length r text

theorem run_eq_runAll {steps : Nat} (r : Reader) {text : List Char} (enough : text.length ≤ steps) :
    run steps r text = runAll r text := by
  induction enough with
  | refl => rfl
  | step enough ih => rw [run_succ _ r text enough, ih]

theorem runAll_of_blanks {text rest : List Char} (r : Reader) (blank : Blanks text rest) :
    runAll r text = runAll r rest := by
  obtain ⟨blanks, rfl, each⟩ := blank
  induction blanks with
  | nil => rfl
  | cons c blanks ih =>
      rw [List.forall_mem_cons] at each
      rw [← ih each.2, List.cons_append, runAll, List.length_cons, run, if_pos each.1]
      rfl

theorem runAll_of_step {r next : Reader} {c : Char} {text rest : List Char}
    (mark : isBlank c = false) (stepped : r.step c text = .ok (next, rest)) :
    runAll r (c :: text) = runAll next rest := by
  rw [runAll, List.length_cons, run, mark, stepped]
  exact run_eq_runAll next (step_length stepped)

/-- Every text has blanks at first, up to its end or its first mark. -/
theorem exists_blanks (text : List Char) :
    Blanks text [] ∨ ∃ c rest, Blanks text (c :: rest) ∧ isBlank c = false ∧
      rest.length < text.length := by
  induction text with
  | nil => exact .inl ⟨[], rfl, nofun⟩
  | cons c text ih =>
      by_cases blank : isBlank c = true
      · have more {inside : List Char} (behind : Blanks text inside) : Blanks (c :: text) inside := by
          obtain ⟨blanks, rfl, each⟩ := behind
          exact ⟨c :: blanks, rfl, List.forall_mem_cons.mpr ⟨blank, each⟩⟩
        rcases ih with behind | ⟨mark, rest, behind, notBlank, shorter⟩
        · exact .inl (more behind)
        · exact .inr ⟨mark, rest, more behind, notBlank, Nat.lt_succ_of_lt shorter⟩
      · exact .inr ⟨c, text, ⟨[], rfl, nofun⟩, eq_false_of_ne_true blank, Nat.lt_succ_self _⟩

/-- Reading that goes well ends behind blanks or takes a step from the mark behind them. -/
theorem runAll_cases {r : Reader} {text : List Char} {doc : Json} (came : runAll r text = .ok doc) :
    (Blanks text [] ∧ r.finish = .ok doc) ∨
    ∃ c inside next rest, Blanks text (c :: inside) ∧ isBlank c = false ∧
      r.step c inside = .ok (next, rest) ∧ rest.length ≤ inside.length ∧
      inside.length < text.length ∧ runAll next rest = .ok doc := by
  rcases exists_blanks text with empty | ⟨c, inside, behind, mark, shorter⟩
  · rw [runAll_of_blanks r empty] at came
    exact .inl ⟨empty, came⟩
  · rw [runAll_of_blanks r behind, runAll, List.length_cons, run, mark] at came
    obtain ⟨⟨next, rest⟩, stepped, came⟩ := ok_of_bind came
    have fewer := step_length stepped
    exact .inr ⟨c, inside, next, rest, behind, mark, stepped, fewer, shorter,
      (run_eq_runAll next fewer).symm.trans came⟩

/-- Only the step from the first mark tells two readers apart. -/
theorem runAll_congr {r s : Reader} {text inside : List Char} {c : Char}
    (behind : Blanks text (c :: inside)) (mark : isBlank c = false)
    (same : r.step c inside = s.step c inside) : runAll r text = runAll s text := by
  rw [runAll_of_blanks r behind, runAll_of_blanks s behind, runAll, runAll, List.length_cons, run,
    run, mark, same]
  rfl

/-! What has been read was spelled. -/

open Written

/-- What holds of texts up to a length: where reading goes well, a piece is spelled, and reading goes on
with what it stands for. -/
structure Understands (n : Nat) : Prop where
  value : ∀ text frames doc, text.length ≤ n → frames.length ≤ maxDepth →
    runAll ⟨frames, .value⟩ text = .ok doc →
    ∃ inside w rest, Blanks text inside ∧ Spells (.value w) inside rest ∧
      rest.length < text.length ∧ frames.length + w.depth ≤ maxDepth ∧
      runAll (accept w.document frames) rest = .ok doc
  items : ∀ text frames read doc, text.length ≤ n → frames.length < maxDepth →
    runAll ⟨.items read :: frames, .item⟩ text = .ok doc →
    ∃ inside ws rest, Blanks text inside ∧ Spells (.items ws) inside rest ∧
      rest.length < text.length ∧ frames.length + 1 + depthOfItems ws ≤ maxDepth ∧
      runAll (accept (.array (read.reverse ++ documents ws)) frames) rest = .ok doc
  members : ∀ text frames read doc, text.length ≤ n → frames.length < maxDepth →
    runAll ⟨frames, .name read⟩ text = .ok doc →
    ∃ inside ms rest, Blanks text inside ∧ Spells (.members ms) inside rest ∧
      rest.length < text.length ∧ frames.length + 1 + depthOfMembers ms ≤ maxDepth ∧
      runAll (accept (.object (Assoc.setAll read (memberDocuments ms))) frames) rest = .ok doc

variable {n : Nat} {text : List Char} {frames : List Frame} {doc : Json}

theorem understands_array (shorter : ∀ m < n, Understands m) {text : List Char}
    (short : text.length < n) (room : frames.length < maxDepth)
    (came : runAll ⟨.items [] :: frames, .itemOrClose⟩ text = .ok doc) :
    ∃ w rest, Spells (.value w) ('[' :: text) rest ∧ rest.length < text.length ∧
      frames.length + w.depth ≤ maxDepth ∧ runAll (accept w.document frames) rest = .ok doc := by
  rcases runAll_cases came with ⟨-, ended⟩ |
      ⟨c, inside, next, rest, behind, mark, stepped, fewer, less, went⟩
  · cases ended
  · by_cases closes : c = ']'
    · subst closes
      cases stepped
      exact ⟨.array [], inside, .emptyArray behind, less, room, went⟩
    · have same : runAll ⟨.items [] :: frames, .itemOrClose⟩ text =
     runAll ⟨.items [] :: frames, .item⟩ text :=
        runAll_congr behind mark ((step_itemOrClose closes).trans (step_item closes).symm)
      obtain ⟨opened, ws, rest, opens, items, fewer, deep, went⟩ :=
        (shorter _ short).items text frames [] doc (Nat.le_refl _) room (same.symm.trans came)
      refine ⟨.array ws, rest, .array opens items, fewer, ?_, went⟩
      rw [depth]
      omega

theorem understands_object (shorter : ∀ m < n, Understands m) {text : List Char}
    (short : text.length < n) (room : frames.length < maxDepth)
    (came : runAll ⟨frames, .nameOrClose⟩ text = .ok doc) :
    ∃ w rest, Spells (.value w) ('\x7b' :: text) rest ∧ rest.length < text.length ∧
      frames.length + w.depth ≤ maxDepth ∧ runAll (accept w.document frames) rest = .ok doc := by
  rcases runAll_cases came with ⟨-, ended⟩ |
      ⟨c, inside, next, rest, behind, mark, stepped, fewer, less, went⟩
  · cases ended
  · by_cases closes : c = '\x7d'
    · subst closes
      cases stepped
      exact ⟨.object [], inside, .emptyObject behind, less, room, went⟩
    · have same : runAll ⟨frames, .nameOrClose⟩ text = runAll ⟨frames, .name []⟩ text :=
        runAll_congr behind mark ((step_nameOrClose closes).trans (step_name closes).symm)
      obtain ⟨opened, ms, rest, opens, members, fewer, deep, went⟩ :=
        (shorter _ short).members text frames [] doc (Nat.le_refl _) room (same.symm.trans came)
      refine ⟨.object ms, rest, .object opens members, fewer, ?_, went⟩
      rw [depth]
      omega

theorem understands_value (frames : List Frame) (shorter : ∀ m < n, Understands m)
    (short : text.length ≤ n) (room : frames.length ≤ maxDepth)
    (came : runAll ⟨frames, .value⟩ text = .ok doc) :
    ∃ inside w rest, Blanks text inside ∧ Spells (.value w) inside rest ∧
      rest.length < text.length ∧ frames.length + w.depth ≤ maxDepth ∧
      runAll (accept w.document frames) rest = .ok doc := by
  rcases runAll_cases came with ⟨-, ended⟩ |
      ⟨c, inside, next, rest, behind, mark, stepped, fewer, less, went⟩
  · cases ended
  · rw [step_value] at stepped
    rcases stepValue_cases stepped with
      ⟨v, spelled, rfl⟩ | ⟨rfl, more, rfl, rfl⟩ | ⟨rfl, more, rfl, rfl⟩
    · exact ⟨_, .scalar v, rest, behind, .scalar spelled, Nat.lt_of_le_of_lt fewer less, room, went⟩
    · obtain ⟨w, last, spelled, shrinks, deep, went⟩ :=
        understands_array shorter (Nat.lt_of_lt_of_le less short) more went
      exact ⟨_, w, last, behind, spelled, Nat.lt_trans shrinks less, deep, went⟩
    · obtain ⟨w, last, spelled, shrinks, deep, went⟩ :=
        understands_object shorter (Nat.lt_of_lt_of_le less short) more went
      exact ⟨_, w, last, behind, spelled, Nat.lt_trans shrinks less, deep, went⟩

theorem understands_items (shorter : ∀ m < n, Understands m) {read : List Json}
    (short : text.length ≤ n) (room : frames.length < maxDepth)
    (came : runAll ⟨.items read :: frames, .item⟩ text = .ok doc) :
    ∃ inside ws rest, Blanks text inside ∧ Spells (.items ws) inside rest ∧
      rest.length < text.length ∧ frames.length + 1 + depthOfItems ws ≤ maxDepth ∧
      runAll (accept (.array (read.reverse ++ documents ws)) frames) rest = .ok doc := by
  have first : runAll ⟨.items read :: frames, .value⟩ text = .ok doc := by
    rcases runAll_cases came with ⟨-, ended⟩ | ⟨c, inside, next, rest, behind, mark, stepped, -⟩
    · cases ended
    · have goesOn : c ≠ ']' := by
        rintro rfl
        cases stepped
      exact (runAll_congr behind mark ((step_item goesOn).trans step_value.symm)).symm.trans came
  obtain ⟨inside, w, behind, opens, item, fewer, deep, went⟩ :=
    understands_value (.items read :: frames) shorter short room first
  rw [List.length_cons] at deep
  rcases runAll_cases went with ⟨-, ended⟩ |
      ⟨c, _, next, more, separates, -, stepped, fewerMore, less, went⟩
  · cases ended
  · obtain ⟨rfl, ⟨rfl, rfl⟩ | ⟨rfl, rfl⟩⟩ := step_items_separator_eq_ok stepped
    · obtain ⟨opened, ws, last, opensNext, items, shrinks, deepMore, went⟩ :=
        (shorter more.length (by omega)).items more frames _ doc (Nat.le_refl _) room went
      refine ⟨inside, w :: ws, last, opens, .item item separates opensNext items, by omega, ?_, ?_⟩
      · rw [depthOfItems]
        omega
      · simpa [documents] using went
    · refine ⟨inside, [w], more, opens, .lastItem item separates, by omega, ?_, ?_⟩
      · rw [depthOfItems, depthOfItems]
        omega
      · simpa [documents] using went

theorem understands_members (shorter : ∀ m < n, Understands m) {read : Members}
    (short : text.length ≤ n) (room : frames.length < maxDepth)
    (came : runAll ⟨frames, .name read⟩ text = .ok doc) :
    ∃ inside ms rest, Blanks text inside ∧ Spells (.members ms) inside rest ∧
      rest.length < text.length ∧ frames.length + 1 + depthOfMembers ms ≤ maxDepth ∧
      runAll (accept (.object (Assoc.setAll read (memberDocuments ms))) frames) rest = .ok doc := by
  -- name, colon, value and separator one behind the other; the induction serves the value and what
  -- follows the separator, both of which stand in a shorter text
  rcases runAll_cases came with ⟨-, ended⟩ |
      ⟨c, quoted, next, colon, begins, -, stepped, -, lessName, went⟩
  · cases ended
  · have goesOn : c ≠ '\x7d' := by
      rintro rfl
      cases stepped
    rw [step_name goesOn] at stepped
    obtain ⟨rfl, name, named, rfl⟩ := stepName_eq_ok stepped
    have fewerColon := length_scanString named
    rcases runAll_cases went with ⟨-, ended⟩ |
        ⟨c, inside, next, rest, separated, -, stepped, -, lessColon, went⟩
    · cases ended
    · obtain ⟨rfl, rfl, rfl⟩ := step_colon_eq_ok stepped
      obtain ⟨opened, w, behind, opens, spelled, fewer, deep, went⟩ :=
        understands_value (.members read name :: frames) shorter (by omega) room went
      rw [List.length_cons] at deep
      rcases runAll_cases went with ⟨-, ended⟩ |
          ⟨c, _, next, more, separates, -, stepped, -, less, went⟩
      · cases ended
      · obtain ⟨rfl, ⟨rfl, rfl⟩ | ⟨rfl, rfl⟩⟩ := step_members_separator_eq_ok stepped
        · obtain ⟨opensMore, ms, last, opensNext, members, shrinks, deepMore, went⟩ :=
            (shorter more.length (by omega)).members more frames _ doc (Nat.le_refl _) room went
          refine ⟨_, (name, w) :: ms, last, begins,
            .member named separated opens spelled separates opensNext members, by omega, ?_, went⟩
          rw [depthOfMembers]
          omega
        · refine ⟨_, [(name, w)], more, begins,
            .lastMember named separated opens spelled separates, by omega, ?_, went⟩
          rw [depthOfMembers, depthOfMembers]
          omega

theorem understands (n : Nat) : Understands n := by
  -- items and members need values of the same length, values need what is shorter only
  induction n using Nat.strongRecOn with
  | ind n shorter =>
      exact ⟨fun _ frames _ short room came => understands_value frames shorter short room came,
        fun _ _ _ _ short room came => understands_items shorter short room came,
        fun _ _ _ _ short room came => understands_members shorter short room came⟩

/-! What is spelled is read. -/

/-- Reading goes through the piece: it goes on with what the piece stands for. -/
def Reads (text rest : List Char) : Piece → Prop
  | .value w => ∀ frames : List Frame, frames.length + w.depth ≤ maxDepth →
      runAll ⟨frames, .value⟩ text = runAll (accept w.document frames) rest
  | .items ws => ∀ (frames : List Frame) (read : List Json),
      frames.length + 1 + depthOfItems ws ≤ maxDepth →
      runAll ⟨.items read :: frames, .item⟩ text =
        runAll (accept (.array (read.reverse ++ documents ws)) frames) rest
  | .members ms => ∀ (frames : List Frame) (read : Members),
      frames.length + 1 + depthOfMembers ms ≤ maxDepth →
      runAll ⟨frames, .name read⟩ text =
        runAll (accept (.object (Assoc.setAll read (memberDocuments ms))) frames) rest

section Reads

variable {text rest inside behind next value colon : List Char} {w : Written} {ws : List Written}
  {ms : List (String × Written)} {name : String} {frames : List Frame}

theorem reads_scalar {v : Json} (spelled : SpellsScalar v text rest) :
    Reads text rest (.value (.scalar v)) := by
  intro frames room
  obtain ⟨c, cs, rfl, mark, -⟩ := spelled.head
  exact runAll_of_step mark (stepValue_of_scalar frames spelled)

theorem step_open_array (room : frames.length < maxDepth) :
    (⟨frames, .value⟩ : Reader).step '[' text = .ok (⟨.items [] :: frames, .itemOrClose⟩, text) :=
  if_pos room

theorem step_open_object (room : frames.length < maxDepth) :
    (⟨frames, .value⟩ : Reader).step '\x7b' text = .ok (⟨frames, .nameOrClose⟩, text) :=
  if_pos room

theorem reads_emptyArray (closes : Blanks text (']' :: rest)) :
    Reads ('[' :: text) rest (.value (.array [])) := by
  intro frames room
  have more : frames.length < maxDepth := by
    rw [depth] at room
    omega
  rw [runAll_of_step (by rfl) (step_open_array more), runAll_of_blanks _ closes]
  exact runAll_of_step (by rfl) rfl

theorem reads_emptyObject (closes : Blanks text ('\x7d' :: rest)) :
    Reads ('\x7b' :: text) rest (.value (.object [])) := by
  intro frames room
  have more : frames.length < maxDepth := by
    rw [depth] at room
    omega
  rw [runAll_of_step (by rfl) (step_open_object more), runAll_of_blanks _ closes]
  exact runAll_of_step (by rfl) rfl

theorem reads_array (opens : Blanks text inside) (items : Spells (.items ws) inside rest)
    (ih : Reads inside rest (.items ws)) : Reads ('[' :: text) rest (.value (.array ws)) := by
  intro frames room
  rw [depth] at room
  obtain ⟨c, cs, rfl, mark, goesOn, -⟩ := items.head
  have same : runAll ⟨.items [] :: frames, .itemOrClose⟩ text =
      runAll ⟨.items [] :: frames, .item⟩ text :=
    runAll_congr opens mark ((step_itemOrClose goesOn).trans (step_item goesOn).symm)
  rw [runAll_of_step (by rfl) (step_open_array (by omega)), same, runAll_of_blanks _ opens,
    ih frames [] (by omega)]
  rfl

theorem reads_object (opens : Blanks text inside) (members : Spells (.members ms) inside rest)
    (ih : Reads inside rest (.members ms)) : Reads ('\x7b' :: text) rest (.value (.object ms)) := by
  intro frames room
  rw [depth] at room
  obtain ⟨c, cs, rfl, mark, -, goesOn⟩ := members.head
  have same : runAll ⟨frames, .nameOrClose⟩ text = runAll ⟨frames, .name []⟩ text :=
    runAll_congr opens mark ((step_nameOrClose goesOn).trans (step_name goesOn).symm)
  rw [runAll_of_step (by rfl) (step_open_object (by omega)), same, runAll_of_blanks _ opens,
    ih frames [] (by omega)]
  rfl

/-- An item is read as a value is, and its document joins the ones before it. -/
theorem runAll_item (item : Spells (.value w) text behind) (ih : Reads text behind (.value w))
    (read : List Json) (room : frames.length + 1 + w.depth ≤ maxDepth) :
    runAll ⟨.items read :: frames, .item⟩ text =
      runAll ⟨.items (w.document :: read) :: frames, .separator⟩ behind := by
  obtain ⟨c, cs, rfl, mark, goesOn, -⟩ := item.head
  have same : runAll ⟨.items read :: frames, .item⟩ (c :: cs) =
      runAll ⟨.items read :: frames, .value⟩ (c :: cs) :=
    runAll_congr .refl mark ((step_item goesOn).trans step_value.symm)
  rw [same, ih (.items read :: frames) room]
  rfl

/-- A member is read up to its value's end, and its value is set under its name. -/
theorem runAll_member (named : scanString text = .ok (name, colon))
    (separated : Blanks colon (':' :: next)) (opens : Blanks next value)
    (ih : Reads value behind (.value w)) (read : Members)
    (room : frames.length + 1 + w.depth ≤ maxDepth) :
    runAll ⟨frames, .name read⟩ ('"' :: text) =
      runAll ⟨.members (Assoc.set name w.document read) name :: frames, .separator⟩ behind := by
  have quoted : (⟨frames, .name read⟩ : Reader).step '"' text =
      .ok (⟨frames, .colon read name⟩, colon) := by
    rw [step_name (by decide), stepName, if_pos rfl, named]
    rfl
  calc
    runAll ⟨frames, .name read⟩ ('"' :: text)
      = runAll ⟨frames, .colon read name⟩ colon := runAll_of_step (by rfl) quoted
    _ = runAll ⟨frames, .colon read name⟩ (':' :: next) := runAll_of_blanks _ separated
    _ = runAll ⟨.members read name :: frames, .value⟩ next := runAll_of_step (by rfl) rfl
    _ = runAll ⟨.members read name :: frames, .value⟩ value := runAll_of_blanks _ opens
    _ = _ := ih (.members read name :: frames) room

theorem reads_lastItem (item : Spells (.value w) text behind) (closes : Blanks behind (']' :: rest))
    (ih : Reads text behind (.value w)) : Reads text rest (.items [w]) := by
  intro frames read room
  rw [depthOfItems, depthOfItems] at room
  rw [runAll_item item ih read (by omega), runAll_of_blanks _ closes]
  refine (runAll_of_step (by rfl) rfl).trans ?_
  simp only [List.reverse_cons, documents]

theorem reads_item (item : Spells (.value w) text behind) (goesOn : Blanks behind (',' :: next))
    (opens : Blanks next inside) (ih : Reads text behind (.value w))
    (ihItems : Reads inside rest (.items ws)) : Reads text rest (.items (w :: ws)) := by
  intro frames read room
  rw [depthOfItems] at room
  have comma : runAll ⟨.items (w.document :: read) :: frames, .separator⟩ (',' :: next) =
      runAll ⟨.items (w.document :: read) :: frames, .item⟩ next := runAll_of_step (by rfl) rfl
  rw [runAll_item item ih read (by omega), runAll_of_blanks _ goesOn, comma,
    runAll_of_blanks _ opens, ihItems frames (w.document :: read) (by omega)]
  simp only [List.reverse_cons, documents, List.append_assoc, List.singleton_append]

theorem reads_lastMember (named : scanString text = .ok (name, colon))
    (separated : Blanks colon (':' :: next)) (opens : Blanks next value)
    (closes : Blanks behind ('\x7d' :: rest)) (ih : Reads value behind (.value w)) :
    Reads ('"' :: text) rest (.members [(name, w)]) := by
  intro frames read room
  rw [depthOfMembers, depthOfMembers] at room
  rw [runAll_member named separated opens ih read (by omega), runAll_of_blanks _ closes]
  exact runAll_of_step (by rfl) rfl

theorem reads_member {more : List Char} (named : scanString text = .ok (name, colon))
    (separated : Blanks colon (':' :: next)) (opens : Blanks next value)
    (goesOn : Blanks behind (',' :: more)) (opensNext : Blanks more inside)
    (ih : Reads value behind (.value w)) (ihMembers : Reads inside rest (.members ms)) :
    Reads ('"' :: text) rest (.members ((name, w) :: ms)) := by
  intro frames read room
  rw [depthOfMembers] at room
  have comma : runAll ⟨.members (Assoc.set name w.document read) name :: frames, .separator⟩
      (',' :: more) = runAll ⟨frames, .name (Assoc.set name w.document read)⟩ more :=
    runAll_of_step (by rfl) rfl
  rw [runAll_member named separated opens ih read (by omega), runAll_of_blanks _ goesOn, comma,
    runAll_of_blanks _ opensNext, ihMembers frames _ (by omega)]
  rfl

end Reads

theorem reads_of_spells {p : Piece} {text rest : List Char} (spelled : Spells p text rest) :
    Reads text rest p := by
  induction spelled with
  | scalar spelled => exact reads_scalar spelled
  | emptyArray closes => exact reads_emptyArray closes
  | array opens items ih => exact reads_array opens items ih
  | emptyObject closes => exact reads_emptyObject closes
  | object opens members ih => exact reads_object opens members ih
  | lastItem item closes ih => exact reads_lastItem item closes ih
  | item item goesOn opens _ ih ihItems => exact reads_item item goesOn opens ih ihItems
  | lastMember named separated opens _ closes ih =>
      exact reads_lastMember named separated opens closes ih
  | member named separated opens _ goesOn opensNext _ ih ihMembers =>
      exact reads_member named separated opens goesOn opensNext ih ihMembers

theorem runAll_eq_ok_iff (text : List Char) (doc : Json) :
    runAll .start text = .ok doc ↔
    ∃ w inside rest, Blanks text inside ∧ Spells (.value w) inside rest ∧ Blanks rest [] ∧
      w.depth ≤ maxDepth ∧ w.document = doc := by
  constructor
  · intro came
    obtain ⟨inside, w, rest, opens, spelled, -, deep, went⟩ :=
      (understands text.length).value text [] doc (Nat.le_refl _) (Nat.zero_le _) came
    rw [List.length_nil, Nat.zero_add] at deep
    rcases runAll_cases went with ⟨ends, finished⟩ | ⟨c, text, next, behind, -, -, stepped, -⟩
    · cases finished
      exact ⟨w, inside, rest, opens, spelled, ends, deep, rfl⟩
    · cases stepped
  · rintro ⟨w, inside, rest, opens, spelled, ends, deep, rfl⟩
    have went : runAll ⟨[], .value⟩ inside = runAll (accept w.document []) rest :=
      reads_of_spells spelled [] (by simpa using deep)
    rw [runAll_of_blanks _ opens]
    refine went.trans ?_
    rw [runAll_of_blanks _ ends]
    rfl

end Reader

/-- Reading accepts what is written, and nothing else, and yields the document that was written. -/
theorem read_eq_ok_iff (bytes : Octets) (doc : Json) :
    read bytes = .ok doc ↔ ∃ w, IsWritten bytes w ∧ w.document = doc := by
  have ran : read bytes = .ok doc ↔ Reader.runAll .start (units bytes) = .ok doc := by
    show (Reader.runAll .start (units bytes)).mapError _ = _ ↔ _
    cases Reader.runAll .start (units bytes) <;> simp [Except.mapError]
  rw [ran, Reader.runAll_eq_ok_iff]
  constructor
  · rintro ⟨w, inside, rest, opens, spelled, ends, deep, own⟩
    exact ⟨w, ⟨inside, rest, opens, spelled, ends, deep⟩, own⟩
  · rintro ⟨w, ⟨inside, rest, opens, spelled, ends, deep⟩, own⟩
    exact ⟨w, inside, rest, opens, spelled, ends, deep, own⟩

/-- A body is read as an object where an object is written. -/
theorem read_eq_object_iff (bytes : Octets) (members : Members) :
    read bytes = .ok (.object members) ↔
      ∃ ms, IsWritten bytes (.object ms) ∧ Assoc.collect (Written.memberDocuments ms) = members := by
  rw [read_eq_ok_iff]
  constructor
  · rintro ⟨w, written, own⟩
    obtain ⟨text, rest, opens, spelled, ends, deep⟩ := written
    obtain ⟨ms, rfl, same⟩ := spelled.eq_object own
    exact ⟨ms, ⟨text, rest, opens, spelled, ends, deep⟩, same⟩
  · rintro ⟨ms, written, rfl⟩
    exact ⟨_, written, rfl⟩

/-- However the text of an object is taken apart, its document is the same. -/
theorem IsWritten.collect_unique {bytes : Octets} {ms other : List (String × Written)}
    (written : IsWritten bytes (.object ms)) (also : IsWritten bytes (.object other)) :
    Assoc.collect (Written.memberDocuments ms) = Assoc.collect (Written.memberDocuments other) := by
  have read := (read_eq_object_iff bytes _).mpr ⟨ms, written, rfl⟩
  have again := (read_eq_object_iff bytes _).mpr ⟨other, also, rfl⟩
  exact Json.object.inj (Except.ok.inj (read.symm.trans again))

end Multicall.Json
