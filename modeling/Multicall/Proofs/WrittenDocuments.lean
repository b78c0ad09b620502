import Multicall.Json.Parser
import Multicall.Proofs.RepeatedNames
/-!
Documents as they are written. A written object lists its members as they come, each name as often as
it occurs; the document keeps each name once, in its first place with its last value. The grammar says
which texts spell a written document: what strings and number literals are is up to their scanners, and
blanks, brackets and marks are spelled out. Reading accepts exactly the texts of this grammar that
nest no deeper than allowed, and yields their documents.
-/
namespace Multicall.Json

inductive Written
  | scalar (value : Json)
  | array (items : List Written)
  | object (members : List (String × Written))

namespace Written

mutual
def document : Written → Json
  | .scalar value => value
  | .array items => .array (documents items)
  | .object members => .object (Assoc.collect (memberDocuments members))

def documents : List Written → List Json
  | [] => []
  | item :: rest => document item :: documents rest

def memberDocuments : List (String × Written) → Members
  | [] => []
  | (name, value) :: rest => (name, document value) :: memberDocuments rest
end

mutual
/-- How many brackets are open at once at most. -/
def depth : Written → Nat
  | .scalar _ => 0
  | .array items => depthOfItems items + 1
  | .object members => depthOfMembers members + 1

def depthOfItems : List Written → Nat
  | [] => 0
  | item :: rest => max (depth item) (depthOfItems rest)

def depthOfMembers : List (String × Written) → Nat
  | [] => 0
  | (_, value) :: rest => max (depth value) (depthOfMembers rest)
end

end Written

/-! The grammar. A text spells something if it begins with it; the second text is what follows. -/

def Blanks (text rest : List Char) : Prop :=
  ∃ blanks, text = blanks ++ rest ∧ ∀ c ∈ blanks, isBlank c = true

inductive SpellsScalar : Json → List Char → List Char → Prop
  | null {rest} : SpellsScalar .null ('n' :: 'u' :: 'l' :: 'l' :: rest) rest
  | yes {rest} : SpellsScalar (.bool true) ('t' :: 'r' :: 'u' :: 'e' :: rest) rest
  | no {rest} : SpellsScalar (.bool false) ('f' :: 'a' :: 'l' :: 's' :: 'e' :: rest) rest
  | string {s text rest} (inside : scanString text = .ok (s, rest)) :
      SpellsScalar (.string s) ('"' :: text) rest
  | number {n c text rest} (begins : c = '-' ∨ c.isDigit = true)
      (literal : scanNumber (c :: text) = .ok (n, rest)) :
      SpellsScalar (.number n) (c :: text) rest

/-- What is spelled: a value, or what is in brackets that have items or members, up to the closing
bracket. -/
inductive Piece
  | value (w : Written)
  | items (ws : List Written)
  | members (ms : List (String × Written))

inductive Spells : Piece → List Char → List Char → Prop
  | scalar {v text rest} (spelled : SpellsScalar v text rest) :
      Spells (.value (.scalar v)) text rest
  | emptyArray {text rest} (closes : Blanks text (']' :: rest)) :
      Spells (.value (.array [])) ('[' :: text) rest
  | array {ws text inside rest} (opens : Blanks text inside) (items : Spells (.items ws) inside rest) :
      Spells (.value (.array ws)) ('[' :: text) rest
  | emptyObject {text rest} (closes : Blanks text ('\x7d' :: rest)) :
      Spells (.value (.object [])) ('\x7b' :: text) rest
  | object {ms text inside rest} (opens : Blanks text inside)
      (members : Spells (.members ms) inside rest) :
      Spells (.value (.object ms)) ('\x7b' :: text) rest
  | lastItem {w text behind rest} (item : Spells (.value w) text behind)
      (closes : Blanks behind (']' :: rest)) : Spells (.items [w]) text rest
  | item {w ws text behind next inside rest} (item : Spells (.value w) text behind)
      (goesOn : Blanks behind (',' :: next)) (opens : Blanks next inside)
      (items : Spells (.items ws) inside rest) : Spells (.items (w :: ws)) text rest
  | lastMember {name w text colon next value behind rest} (named : scanString text = .ok (name, colon))
      (separated : Blanks colon (':' :: next)) (opens : Blanks next value)
      (spelled : Spells (.value w) value behind) (closes : Blanks behind ('\x7d' :: rest)) :
      Spells (.members [(name, w)]) ('"' :: text) rest
  | member {name w ms text colon next value behind more inside rest}
      (named : scanString text = .ok (name, colon)) (separated : Blanks colon (':' :: next))
      (opens : Blanks next value) (spelled : Spells (.value w) value behind)
      (goesOn : Blanks behind (',' :: more)) (opensNext : Blanks more inside)
      (members : Spells (.members ms) inside rest) :
      Spells (.members ((name, w) :: ms)) ('"' :: text) rest

/-- The octets are the text of a written document, with blanks around it and no more brackets open at
once than allowed. -/
def IsWritten (bytes : Octets) (w : Written) : Prop :=
  ∃ text rest, Blanks (units bytes) text ∧ Spells (.value w) text rest ∧ Blanks rest [] ∧
    w.depth ≤ maxDepth

/-! What scanners leave of a text. -/

theorem scanWord_eq_ok_iff (word cs rest : List Char) :
    scanWord word cs = .ok rest ↔ cs = word ++ rest := by
  induction word generalizing cs with
  | nil => simp [scanWord]
  | cons w word ih =>
      cases cs with
      | nil => simp [scanWord, stop]
      | cons c cs =>
          by_cases same : c = w
          · simp [scanWord, same, ih]
          · simp [scanWord, same, stop]

theorem length_scanOctets {read bytes : Octets} {cs rest : List Char}
    (found : scanOctets read cs = .ok (bytes, rest)) : rest.length < cs.length := by
  fun_induction scanOctets read cs with
  | case1 | case4 | case5 => cases found
  | case2 =>
      cases found
      exact Nat.lt_succ_self _
  | case3 read text c inside escape ih =>
      have behind := ih found
      have shorter := length_scanEscape escape
      rw [List.length_cons]
      omega
  | case6 read c text _ _ _ ih =>
      have behind := ih found
      rw [List.length_cons]
      omega

theorem length_scanString {s : String} {cs rest : List Char}
    (found : scanString cs = .ok (s, rest)) : rest.length < cs.length := by
  obtain ⟨⟨bytes, behind⟩, scanned, told⟩ := ok_of_bind found
  have shorter := length_scanOctets scanned
  cases spelled : bytes.text? with
  | none => simp [spelled] at told
  | some own =>
      simp only [spelled, pure, Except.pure, Except.ok.injEq, Prod.mk.injEq] at told
      exact told.2 ▸ shorter

theorem length_scanDigits {ds cs rest : List Char} (found : scanDigits cs = .ok (ds, rest)) :
    rest.length < cs.length := by
  rw [scanDigits] at found
  split at found
  · simp [stopAt] at found
  · next digits =>
      cases found
      have whole := congrArg List.length (List.takeWhile_append_dropWhile (p := Char.isDigit) (l := cs))
      rw [List.length_append] at whole
      have some := List.length_pos_iff.mpr (fun none => digits (List.isEmpty_iff.mpr none))
      omega

theorem length_scanWhole {ds cs rest : List Char} (found : scanWhole cs = .ok (ds, rest)) :
    rest.length < cs.length := by
  rw [scanWhole.eq_def] at found
  split at found
  · split at found
    · simp [stopAt] at found
    · cases found
      exact Nat.lt_succ_self _
  · exact length_scanDigits found

theorem length_scanFraction {ds : Option (List Char)} {cs rest : List Char}
    (found : scanFraction cs = .ok (ds, rest)) : rest.length ≤ cs.length := by
  rw [scanFraction.eq_def] at found
  split at found
  · obtain ⟨⟨own, behind⟩, scanned, told⟩ := ok_of_bind found
    cases told
    exact Nat.le_succ_of_le (Nat.le_of_lt (length_scanDigits scanned))
  · cases found
    exact Nat.le_refl _

theorem length_splitSign (cs : List Char) : (Ascii.splitSign cs).2.length ≤ cs.length := by
  rw [Ascii.splitSign.eq_def]
  split <;> simp

theorem length_scanExponent {e : Option (Bool × List Char)} {cs rest : List Char}
    (found : scanExponent cs = .ok (e, rest)) : rest.length ≤ cs.length := by
  cases cs with
  | nil =>
      cases found
      exact Nat.le_refl _
  | cons c cs =>
      rw [scanExponent] at found
      split at found
      · obtain ⟨⟨own, behind⟩, scanned, told⟩ := ok_of_bind found
        cases told
        have digits : rest.length < (Ascii.splitSign cs).2.length := length_scanDigits scanned
        have sign := length_splitSign cs
        rw [List.length_cons]
        omega
      · cases found
        exact Nat.le_refl _

theorem length_scanLiteral {l : NumberLiteral} {cs rest : List Char}
    (found : scanLiteral cs = .ok (l, rest)) : rest.length < cs.length := by
  rw [scanLiteral.eq_def] at found
  obtain ⟨⟨whole, behindWhole⟩, scannedWhole, found⟩ := ok_of_bind found
  obtain ⟨⟨fraction, behindFraction⟩, scannedFraction, found⟩ := ok_of_bind found
  obtain ⟨⟨exponent, behind⟩, scannedExponent, told⟩ := ok_of_bind found
  cases told
  have first : behindWhole.length < cs.length := by
    split at scannedWhole
    · exact Nat.lt_succ_of_lt (length_scanWhole scannedWhole)
    · exact length_scanWhole scannedWhole
  have second := length_scanFraction scannedFraction
  have third := length_scanExponent scannedExponent
  omega

/-- A number is what a literal stands for. -/
theorem scanNumber_eq_ok {n : Number} {cs rest : List Char}
    (found : scanNumber cs = .ok (n, rest)) :
    ∃ l, scanLiteral cs = .ok (l, rest) ∧ l.value = some n := by
  obtain ⟨⟨l, behind⟩, scanned, told⟩ := ok_of_bind found
  cases value : l.value with
  | none => simp [value, stop] at told
  | some own =>
      simp only [value, pure, Except.pure, Except.ok.injEq, Prod.mk.injEq] at told
      obtain ⟨rfl, rfl⟩ := told
      exact ⟨l, scanned, value⟩

theorem length_scanNumber {n : Number} {cs rest : List Char}
    (found : scanNumber cs = .ok (n, rest)) : rest.length < cs.length := by
  obtain ⟨_, scanned, -⟩ := scanNumber_eq_ok found
  exact length_scanLiteral scanned

/-! What is spelled, seen from the document. -/

/-- A literal that stays an integer fits a word, with a sign or without one. -/
theorem value_eq_int {l : NumberLiteral} {n : Int} (own : l.value = some (.int n)) :
    Integer64.least ≤ n ∧ n ≤ Integer64.greatestUnsigned := by
  rw [NumberLiteral.value] at own
  split at own
  · next exact =>
      cases own
      simp only [Bool.and_eq_true, decide_eq_true_eq] at exact
      exact ⟨Int.le_trans (by decide) (Int.natCast_nonneg _), Int.ofNat_le.mpr exact.2⟩
  · split at own
    · next exact =>
        cases own
        simp only [Integer64.fits, Bool.and_eq_true, decide_eq_true_eq] at exact
        exact ⟨exact.2.1, Int.le_trans exact.2.2 (by decide)⟩
    · obtain ⟨x, -, other⟩ := Option.map_eq_some_iff.mp own
      cases other

theorem scanNumber_eq_int {n : Int} {text rest : List Char}
    (literal : scanNumber text = .ok (.int n, rest)) :
    Integer64.least ≤ n ∧ n ≤ Integer64.greatestUnsigned := by
  obtain ⟨_, -, value⟩ := scanNumber_eq_ok literal
  exact value_eq_int value

theorem Spells.int_range {w : Written} {n : Int} {text rest : List Char}
    (spelled : Spells (.value w) text rest) (own : w.document = .number (.int n)) :
    Integer64.least ≤ n ∧ n ≤ Integer64.greatestUnsigned := by
  cases spelled with
  | scalar scalar =>
      rw [Written.document] at own
      subst own
      cases scalar with
      | number _ literal => exact scanNumber_eq_int literal
  | emptyArray | array | emptyObject | object =>
      rw [Written.document] at own
      cases own

theorem Spells.eq_object {w : Written} {members : Members} {text rest : List Char}
    (spelled : Spells (.value w) text rest) (own : w.document = .object members) :
    ∃ ms, w = .object ms ∧ Assoc.collect (Written.memberDocuments ms) = members := by
  cases spelled with
  | scalar scalar =>
      rw [Written.document] at own
      subst own
      cases scalar
  | emptyArray | array =>
      rw [Written.document] at own
      cases own
  | emptyObject | object =>
      rw [Written.document] at own
      cases own
      exact ⟨_, rfl, rfl⟩

/-- The members of an object are spelled one by one. -/
theorem Spells.each_member {p : Piece} {text rest : List Char} (spelled : Spells p text rest)
    {ms : List (String × Written)} (own : p = .members ms) :
    ∀ m ∈ ms, ∃ value behind, Spells (.value m.2) value behind := by
  induction spelled generalizing ms with
  | scalar | emptyArray | array | emptyObject | object | lastItem | item => cases own
  | lastMember _ _ _ spelled _ _ =>
      cases own
      exact List.forall_mem_singleton.mpr ⟨_, _, spelled⟩
  | member _ _ _ spelled _ _ _ _ ih =>
      cases own
      exact List.forall_mem_cons.mpr ⟨⟨_, _, spelled⟩, ih rfl⟩

theorem IsWritten.member {bytes : Octets} {ms : List (String × Written)} {name : String} {w : Written}
    (written : IsWritten bytes (.object ms)) (among : (name, w) ∈ ms) :
    ∃ value behind, Spells (.value w) value behind := by
  obtain ⟨text, rest, -, spelled, -, -⟩ := written
  cases spelled with
  | emptyObject => cases among
  | object _ members => exact members.each_member rfl _ among

theorem Written.memberDocuments_eq_map (ms : List (String × Written)) :
    memberDocuments ms = ms.map fun m => (m.1, m.2.document) := by
  induction ms with
  | nil => rfl
  | cons m ms ih => rw [memberDocuments, ih, List.map_cons]

theorem Written.get?_collect_eq_some_iff (ms : List (String × Written)) (name : String) (doc : Json) :
    Assoc.get? name (Assoc.collect (memberDocuments ms)) = some doc ↔
      ∃ w, Assoc.HasLast ms name w ∧ w.document = doc := by
  rw [Assoc.get?_collect_eq_some_iff, memberDocuments_eq_map]
  constructor
  · exact Assoc.HasLast.of_map
  · rintro ⟨w, last, rfl⟩
    exact last.map Written.document

theorem Written.eq_collect_iff (table : Members) (ms : List (String × Written)) :
    table = Assoc.collect (memberDocuments ms) ↔ Assoc.keys table = (Assoc.keys ms).eraseDups ∧
      ∀ name w, Assoc.HasLast ms name w → Assoc.get? name table = some w.document := by
  have names : Assoc.keys (memberDocuments ms) = Assoc.keys ms := by
    simp [memberDocuments_eq_map, Assoc.keys]
  rw [Assoc.eq_collect_iff, names]
  refine and_congr_right fun _ => ⟨fun values name w last => ?_, fun values name doc last => ?_⟩
  · exact values name _ (memberDocuments_eq_map ms ▸ last.map Written.document)
  · obtain ⟨w, own, rfl⟩ := (memberDocuments_eq_map ms ▸ last).of_map
    exact values name w own

end Multicall.Json
