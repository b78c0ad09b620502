import Multicall.Filter.Predicate
import Multicall.Proofs.Trimming
/-!
The language of predicate texts. Blanks fall between tokens, a word is a longest run of field
characters and a mark a colon with a longest run of letters, digits and `_`. A test is a field with
its operator, and the right side of a comparison is a mark; `AND` binds tighter than `OR`, and
parentheses hold a whole predicate. No word is reserved, yet a row of tokens has at most one
reading: where a test may begin its first word is a field, or `NULLIF` before a parenthesis, and
where a test has ended a word can only join.
-/
namespace Multicall.Filter

inductive Token
  | word (letters : String)
  | mark (name : String)
  | sign (letters : String)
  | opening
  | closing
  | comma
  | emptyText
  deriving DecidableEq, Repr

def isMarkChar (c : Char) : Bool := c.isAlphanum || c == '_'

def isSignChar (c : Char) : Bool := c == '<' || c == '=' || c == '>'

/-- The tokens of a text; none when some character starts no token. -/
def tokens? : List Char → Option (List Token)
  | [] => some []
  | c :: rest =>
      if isFieldChar c then
        (tokens? (rest.dropWhile isFieldChar)).map
          (.word (String.ofList (c :: rest.takeWhile isFieldChar)) :: ·)
      else if isSignChar c then
        (tokens? (rest.dropWhile isSignChar)).map
          (.sign (String.ofList (c :: rest.takeWhile isSignChar)) :: ·)
      else if c = ':' then
        (tokens? (rest.dropWhile isMarkChar)).map
          (.mark (String.ofList (c :: rest.takeWhile isMarkChar)) :: ·)
      else if c = ' ' then tokens? rest
      else if c = '(' then (tokens? rest).map (.opening :: ·)
      else if c = ')' then (tokens? rest).map (.closing :: ·)
      else if c = ',' then (tokens? rest).map (.comma :: ·)
      else if c = '\'' ∧ rest.head? = some '\'' then (tokens? rest.tail).map (.emptyText :: ·)
      else none
termination_by cs => cs.length
decreasing_by
  all_goals simp only [List.length_cons, List.length_tail]
  all_goals
    first
      | omega
      | exact Nat.lt_succ_of_le (List.dropWhile_sublist _).length_le

/-- Where a run of characters ends: at a blank, a parenthesis, a comma or the end. -/
def Breaks (rest : List Char) : Prop := ∀ c, rest.head? = some c → c ∈ [' ', '(', ')', ',']

/-- The tokens of a text, read up to a place where its last run ends. -/
def HasTokens (text : List Char) (row : List Token) : Prop :=
  ∀ rest, Breaks rest → tokens? (text ++ rest) = (tokens? rest).map (row ++ ·)

theorem breaks_nil : Breaks [] := fun _ found => nomatch found

theorem breaks_cons {c : Char} (breaking : c ∈ [' ', '(', ')', ',']) (rest : List Char) :
    Breaks (c :: rest) := by
  intro d found
  cases found
  exact breaking

theorem run_ends (inRun : Char → Bool)
    (apart : [' ', '(', ')', ','].all (fun c => !inRun c) = true)
    {run rest : List Char} (all : ∀ c ∈ run, inRun c = true) (broken : Breaks rest) :
    (run ++ rest).takeWhile inRun = run ∧ (run ++ rest).dropWhile inRun = rest := by
  refine span_append all fun c first => ?_
  simpa using List.all_eq_true.mp apart c (broken c first)

namespace HasTokens

theorem run {inRun : Char → Bool}
    (apart : [' ', '(', ')', ','].all (fun c => !inRun c) = true) {c : Char} {run : List Char}
    (all : ∀ d ∈ run, inRun d = true) {token : Token}
    (step : ∀ rest, run = rest.takeWhile inRun →
      tokens? (c :: rest) = (tokens? (rest.dropWhile inRun)).map (token :: ·)) :
    HasTokens (c :: run) [token] := by
  intro rest broken
  obtain ⟨taken, dropped⟩ := run_ends inRun apart all broken
  rw [List.cons_append, step (run ++ rest) taken.symm, dropped]
  rfl

theorem word (text : String) (allowed : Ascii.consistsOf isFieldChar text = true) :
    HasTokens text.toList [.word text] := by
  simp only [Ascii.consistsOf, Bool.and_eq_true, Bool.not_eq_true', List.all_eq_true] at allowed
  obtain ⟨filled, all⟩ := allowed
  cases letters : text.toList with
  | nil => simp [letters] at filled
  | cons c run =>
      rw [letters] at all
      refine HasTokens.run rfl (fun d found => all d (List.mem_cons_of_mem c found)) ?_
      intro rest taken
      rw [tokens?, if_pos (all c List.mem_cons_self), ← taken, ← letters, String.ofList_toList]

theorem sign {text : String} {c : Char} {run : List Char} (letters : text.toList = c :: run)
    (signs : (c :: run).all isSignChar = true) : HasTokens text.toList [.sign text] := by
  have all := List.all_eq_true.mp signs
  have signed := all c List.mem_cons_self
  have plain : isFieldChar c = false := by
    simp only [isSignChar, Bool.or_eq_true, beq_iff_eq] at signed
    rcases signed with (rfl | rfl) | rfl <;> rfl
  rw [letters]
  refine HasTokens.run rfl (fun d found => all d (List.mem_cons_of_mem c found)) ?_
  intro rest taken
  rw [tokens?, if_neg (by simp [plain]), if_pos signed, ← taken, ← letters, String.ofList_toList]

theorem mark {text : String} {run : List Char} (letters : text.toList = ':' :: run)
    (all : ∀ d ∈ run, isMarkChar d = true) : HasTokens text.toList [.mark text] := by
  rw [letters]
  refine HasTokens.run rfl all ?_
  intro rest taken
  rw [tokens?, if_neg (by decide), if_neg (by decide), if_pos rfl, ← taken, ← letters,
    String.ofList_toList]

theorem append {first second : List Char} {row more : List Token} (before : HasTokens first row)
    (behind : HasTokens second more) (broken : ∀ rest, Breaks (second ++ rest)) :
    HasTokens (first ++ second) (row ++ more) := by
  intro rest ends
  rw [List.append_assoc, before (second ++ rest) (broken rest), behind rest ends, Option.map_map]
  congr 1
  funext others
  exact (List.append_assoc row more others).symm

theorem nil : HasTokens [] [] := fun rest _ => by simp

theorem whole {text : List Char} {row : List Token} (read : HasTokens text row) :
    tokens? text = some row := by
  have ended := read [] breaks_nil
  rw [List.append_nil] at ended
  rw [ended, tokens?, Option.map_some, List.append_nil]

theorem cons {c : Char} {text : List Char} {row : List Token} (own : List Token)
    (step : ∀ rest, tokens? (c :: rest) = (tokens? rest).map (own ++ ·))
    (behind : HasTokens text row) : HasTokens (c :: text) (own ++ row) := by
  intro rest ends
  rw [List.cons_append, step (text ++ rest), behind rest ends, Option.map_map]
  congr 1
  funext others
  exact (List.append_assoc own row others).symm

theorem blank {text : List Char} {row : List Token} (behind : HasTokens text row) :
    HasTokens (' ' :: text) row := by
  refine HasTokens.cons [] (fun rest => ?_) behind
  rw [tokens?]
  simp [isFieldChar, isSignChar]

theorem opening {text : List Char} {row : List Token} (behind : HasTokens text row) :
    HasTokens ('(' :: text) (.opening :: row) := by
  refine HasTokens.cons [.opening] (fun rest => ?_) behind
  rw [tokens?]
  rfl

theorem closing {text : List Char} {row : List Token} (behind : HasTokens text row) :
    HasTokens (')' :: text) (.closing :: row) := by
  refine HasTokens.cons [.closing] (fun rest => ?_) behind
  rw [tokens?]
  rfl

theorem comma {text : List Char} {row : List Token} (behind : HasTokens text row) :
    HasTokens (',' :: text) (.comma :: row) := by
  refine HasTokens.cons [.comma] (fun rest => ?_) behind
  rw [tokens?]
  rfl

theorem emptyText {text : List Char} {row : List Token} (behind : HasTokens text row) :
    HasTokens ('\'' :: '\'' :: text) (.emptyText :: row) := by
  intro rest ends
  rw [List.cons_append, tokens?]
  simp only [List.cons_append, List.head?_cons, List.tail_cons]
  rw [behind rest ends]
  simp [isFieldChar, isSignChar]
  rfl

theorem spaced {first second : List Char} {row more : List Token} (before : HasTokens first row)
    (behind : HasTokens second more) : HasTokens (first ++ ' ' :: second) (row ++ more) :=
  before.append behind.blank fun _ => breaks_cons (by decide) _

end HasTokens

inductive Test
  | asks (field : String) (test : FieldTest)
  | compares (field : String) (comparison : Comparison) (mark : String)
  deriving DecidableEq, Repr

namespace Test

def field : Test → String
  | .asks field _ => field
  | .compares field _ _ => field

def operator : Test → Operator
  | .asks _ test => .test test
  | .compares _ comparison _ => .compare comparison

end Test

def FieldTest.ending : FieldTest → List Token
  | .isNull | .isEmpty => [.word "IS", .word "NULL"]
  | .isNotNull | .isNotEmpty => [.word "IS", .word "NOT", .word "NULL"]

/-- The tokens of the tested text: the field, or the field without its empty text. -/
def FieldTest.subject (field : String) : FieldTest → List Token
  | .isNull | .isNotNull => [.word field]
  | .isEmpty | .isNotEmpty =>
      [.word "NULLIF", .opening, .word field, .comma, .emptyText, .closing]

def Comparison.tokens : Comparison → List Token
  | .eq => [.sign "="]
  | .ne => [.sign "<>"]
  | .gt => [.sign ">"]
  | .ge => [.sign ">="]
  | .lt => [.sign "<"]
  | .le => [.sign "<="]
  | .like => [.word "LIKE"]
  | .notLike => [.word "NOT", .word "LIKE"]

def Test.tokens : Test → List Token
  | .asks field test => test.subject field ++ test.ending
  | .compares field comparison mark => .word field :: (comparison.tokens ++ [.mark mark])

def Test.text : Test → String
  | .asks field test => test.sql field
  | .compares field comparison mark => field ++ " " ++ comparison.sql ++ " " ++ mark

/-- The field is a word, and the mark is one. -/
structure Test.Plain (test : Test) : Prop where
  field : Ascii.consistsOf isFieldChar test.field = true
  mark : ∀ field comparison mark, test = .compares field comparison mark →
    ∃ run, mark.toList = ':' :: run ∧ ∀ c ∈ run, isMarkChar c = true

theorem isMarkChar_of_digit {n : Nat} {c : Char} (digit : c ∈ Ascii.digits n) :
    isMarkChar c = true := by
  simp [isMarkChar, Char.isAlphanum, Ascii.isDigit_of_digits digit]

theorem Placeholder.text_mark (p : Placeholder) :
    ∃ run, p.text.toList = ':' :: run ∧ ∀ c ∈ run, isMarkChar c = true := by
  refine ⟨_, p.text_toList, ?_⟩
  intro c found
  simp only [List.mem_cons, List.mem_append] at found
  rcases found with rfl | digit | rfl | digit
  · rfl
  · exact isMarkChar_of_digit digit
  · rfl
  · exact isMarkChar_of_digit digit

theorem Comparison.sql_hasTokens (comparison : Comparison) :
    HasTokens comparison.sql.toList comparison.tokens := by
  cases comparison with
  | eq | ne | gt | ge | lt | le => exact HasTokens.sign rfl rfl
  | like => exact HasTokens.word "LIKE" (by decide)
  | notLike =>
      exact (HasTokens.word "NOT" (by decide)).spaced
        (HasTokens.word "LIKE" (by decide))

theorem FieldTest.sql_hasTokens {field : String}
    (allowed : Ascii.consistsOf isFieldChar field = true) (asked : FieldTest) :
    HasTokens (asked.sql field).toList (asked.subject field ++ asked.ending) := by
  have isNull := (HasTokens.word "IS" (by decide)).spaced
    (HasTokens.word "NULL" (by decide))
  have isNotNull := (HasTokens.word "IS" (by decide)).spaced
    ((HasTokens.word "NOT" (by decide)).spaced
      (HasTokens.word "NULL" (by decide)))
  -- both tests for emptiness have the same subject
  have unfilled {ending : List Char} {row : List Token} (behind : HasTokens ending row) :
      HasTokens ("NULLIF(".toList ++ (field.toList ++ (", '') ".toList ++ ending)))
        ([.word "NULLIF", .opening, .word field, .comma, .emptyText, .closing] ++ row) :=
    (HasTokens.word "NULLIF" (by decide)).append
      (((HasTokens.word field allowed).append behind.blank.closing.emptyText.blank.comma
        fun _ => breaks_cons (by decide) _).opening)
      fun _ => breaks_cons (by decide) _
  cases asked with
  | isNull =>
      rw [sql, String.toList_append]
      exact (HasTokens.word field allowed).spaced isNull
  | isNotNull =>
      rw [sql, String.toList_append]
      exact (HasTokens.word field allowed).spaced isNotNull
  | isEmpty =>
      rw [sql, String.toList_append, String.toList_append, List.append_assoc]
      exact unfilled isNull
  | isNotEmpty =>
      rw [sql, String.toList_append, String.toList_append, List.append_assoc]
      exact unfilled isNotNull

theorem Test.text_hasTokens {test : Test} (plain : test.Plain) :
    HasTokens test.text.toList test.tokens := by
  cases test with
  | asks field asked => exact asked.sql_hasTokens plain.field
  | compares field comparison mark =>
      obtain ⟨run, letters, all⟩ := plain.mark field comparison mark rfl
      have right := comparison.sql_hasTokens.spaced (HasTokens.mark letters all)
      have named : Ascii.consistsOf isFieldChar field = true := plain.field
      have whole := (HasTokens.word field named).spaced right
      simpa [text, tokens, String.toList_append] using whole

inductive Expression
  | test (test : Test)
  | and (left right : Expression)
  | or (left right : Expression)
  deriving DecidableEq, Repr

inductive Level
  | factor
  | conjunction
  | disjunction

/-- The grammar: the rows of tokens that spell an expression. -/
inductive Spells : Level → List Token → Expression → Prop
  | test (test : Test) : Spells .factor test.tokens (.test test)
  | parentheses {row : List Token} {e : Expression} (inner : Spells .disjunction row e) :
      Spells .factor (.opening :: (row ++ [.closing])) e
  | factor {row : List Token} {e : Expression} (alone : Spells .factor row e) :
      Spells .conjunction row e
  | and {row more : List Token} {left right : Expression} (first : Spells .factor row left)
      (rest : Spells .conjunction more right) :
      Spells .conjunction (row ++ .word "AND" :: more) (.and left right)
  | conjunction {row : List Token} {e : Expression} (alone : Spells .conjunction row e) :
      Spells .disjunction row e
  | or {row more : List Token} {left right : Expression} (first : Spells .conjunction row left)
      (rest : Spells .disjunction more right) :
      Spells .disjunction (row ++ .word "OR" :: more) (.or left right)

/-- Where an expression of a level may end: not before a join that would carry it on. -/
def Level.Stops : Level → List Token → Prop
  | .factor, _ => True
  | .conjunction, rest => rest.head? ≠ some (.word "AND")
  | .disjunction, rest => rest.head? ≠ some (.word "AND") ∧ rest.head? ≠ some (.word "OR")

namespace Test

theorem tokens_start (test : Test) : ∃ letters rest, test.tokens = .word letters :: rest := by
  cases test with
  | asks field asked => cases asked <;> exact ⟨_, _, rfl⟩
  | compares field comparison mark => exact ⟨_, _, rfl⟩

/-- No test is the beginning of another one. -/
theorem tokens_prefix {first second : Test} {rest more : List Token}
    (same : first.tokens ++ rest = second.tokens ++ more) : first = second ∧ rest = more := by
  cases first with
  | asks field asked =>
      cases second with
      | asks other wanted =>
          cases asked <;> cases wanted <;>
            simp_all [tokens, FieldTest.subject, FieldTest.ending]
      | compares other comparison mark =>
          cases asked <;> cases comparison <;>
            simp_all [tokens, FieldTest.subject, FieldTest.ending, Comparison.tokens]
  | compares field comparison mark =>
      cases second with
      | asks other wanted =>
          cases wanted <;> cases comparison <;>
            simp_all [tokens, FieldTest.subject, FieldTest.ending, Comparison.tokens]
      | compares other wanted sign =>
          cases comparison <;> cases wanted <;> simp_all [tokens, Comparison.tokens]

end Test

theorem Spells.ne_nil {level : Level} {row : List Token} {e : Expression}
    (spelled : Spells level row e) : row ≠ [] := by
  induction spelled with
  | test test =>
      obtain ⟨letters, rest, start⟩ := test.tokens_start
      rw [start]
      exact List.cons_ne_nil _ _
  | parentheses inner ih => exact List.cons_ne_nil _ _
  | factor alone ih => exact ih
  | and first rest ihFirst ihRest => exact fun none => ihFirst (List.append_eq_nil_iff.mp none).1
  | conjunction alone ih => exact ih
  | or first rest ihFirst ihRest => exact fun none => ihFirst (List.append_eq_nil_iff.mp none).1

/-- Two readings that start at the same place of a row, and end where they may, are the same. -/
theorem Spells.prefix_unique {level : Level} {row : List Token} {e : Expression}
    (first : Spells level row e) :
    ∀ {other : List Token} {e' : Expression} {rest more : List Token}, Spells level other e' →
      row ++ rest = other ++ more → level.Stops rest → level.Stops more →
      row = other ∧ e = e' := by
  induction first with
  | test test =>
      intro other e' rest more second same _ _
      cases second with
      | test wanted =>
          obtain ⟨rfl, -⟩ := Test.tokens_prefix same
          exact ⟨rfl, rfl⟩
      | parentheses inner =>
          -- a test starts with a word
          obtain ⟨letters, others, start⟩ := test.tokens_start
          rw [start] at same
          cases same
  | @parentheses row e inner ih =>
      intro other e' rest more second same _ _
      cases second with
      | test wanted =>
          obtain ⟨letters, others, start⟩ := wanted.tokens_start
          rw [start] at same
          cases same
      | @parentheses wanted _ second =>
          have shorter : row ++ (.closing :: rest) = wanted ++ (.closing :: more) := by
            simpa using same
          obtain ⟨rfl, rfl⟩ := ih second shorter ⟨by simp, by simp⟩ ⟨by simp, by simp⟩
          exact ⟨rfl, rfl⟩
  | factor alone ih =>
      intro other e' rest more second same stops _
      cases second with
      | factor second => exact ih second same trivial trivial
      | and begun continued =>
          -- the other reading goes on with `AND`, where this one may not end
          rw [List.append_assoc, List.cons_append] at same
          obtain ⟨rfl, -⟩ := ih begun same trivial trivial
          rw [List.append_cancel_left same] at stops
          exact absurd rfl stops
  | and begun continued ihFirst ihRest =>
      intro other e' rest more second same stops ends
      rw [List.append_assoc, List.cons_append] at same
      cases second with
      | factor second =>
          obtain ⟨rfl, -⟩ := ihFirst second same trivial trivial
          rw [← List.append_cancel_left same] at ends
          exact absurd rfl ends
      | and started carried =>
          rw [List.append_assoc, List.cons_append] at same
          obtain ⟨rfl, rfl⟩ := ihFirst started same trivial trivial
          have behind := (List.cons.inj (List.append_cancel_left same)).2
          obtain ⟨rfl, rfl⟩ := ihRest carried behind stops ends
          exact ⟨rfl, rfl⟩
  | conjunction alone ih =>
      intro other e' rest more second same stops ends
      cases second with
      | conjunction second => exact ih second same stops.1 ends.1
      | or begun continued =>
          -- `OR` ends a conjunction, so the first halves agree and `OR` would follow this one
          rw [List.append_assoc, List.cons_append] at same
          obtain ⟨rfl, -⟩ := ih begun same stops.1 (by simp [Level.Stops])
          rw [List.append_cancel_left same] at stops
          exact absurd rfl stops.2
  | or begun continued ihFirst ihRest =>
      intro other e' rest more second same stops ends
      rw [List.append_assoc, List.cons_append] at same
      cases second with
      | conjunction second =>
          obtain ⟨rfl, -⟩ := ihFirst second same (by simp [Level.Stops]) ends.1
          rw [← List.append_cancel_left same] at ends
          exact absurd rfl ends.2
      | or started carried =>
          rw [List.append_assoc, List.cons_append] at same
          obtain ⟨rfl, rfl⟩ :=
            ihFirst started same (by simp [Level.Stops]) (by simp [Level.Stops])
          have behind := (List.cons.inj (List.append_cancel_left same)).2
          obtain ⟨rfl, rfl⟩ := ihRest carried behind stops ends
          exact ⟨rfl, rfl⟩

/-- A row of tokens spells at most one predicate. -/
theorem Spells.unique {row : List Token} {e e' : Expression} (first : Spells .disjunction row e)
    (second : Spells .disjunction row e') : e = e' :=
  have stops : Level.Stops .disjunction [] := ⟨by simp, by simp⟩
  (first.prefix_unique second rfl stops stops).2

end Multicall.Filter
