import Multicall.Filter.Parameter
import Multicall.Proofs.Rounding
import Multicall.Proofs.Trimming
import Mathlib.Data.List.Basic
import Mathlib.Data.List.Induction
import Mathlib.Data.Nat.Digits.Defs
/-!
Integers that conditions bind. A text is tried as an integer, then as a double, and at last for the digits
at its start; a number is taken as it is or through its double. Whichever of these gives the integer, it is
the one that the text or the number spells, or the end of the signed word on its side.
-/
namespace Multicall

namespace Ascii

theorem digitsValue_concat (front : List Char) (d : Char) :
    digitsValue (front ++ [d]) = 10 * digitsValue front + digitValue d := by
  rw [digitsValue, List.foldl_append]
  rfl

/-- Each digit counts for ten to the number of digits behind it. -/
theorem digitsValue_eq_ofDigits (ds : List Char) :
    digitsValue ds = Nat.ofDigits 10 (ds.map digitValue).reverse := by
  induction ds using List.reverseRecOn with
  | nil => rfl
  | append_singleton front d ih =>
      rw [digitsValue_concat, ih, List.map_append, List.reverse_append, List.map_singleton,
        List.reverse_singleton, List.singleton_append, Nat.ofDigits_cons, Nat.add_comm]

theorem toLower_of_digit {c : Char} (digit : c.isDigit = true) : c.toLower = c := by
  have high : c.toNat ≤ 57 := (Char.isDigit_iff_toNat.mp digit).2
  refine dif_neg fun upper => ?_
  have low : 65 ≤ c.toNat := UInt32.le_iff_toNat_le.mp upper.1
  omega

theorem lower_integer (n : Int) : lower (String.ofList (integer n)) = String.ofList (integer n) := by
  have digit : ∀ c ∈ digits n.natAbs, c.toLower = c := fun _ member =>
    toLower_of_digit (isDigit_of_digits member)
  have each : ∀ c ∈ integer n, c.toLower = c := by
    rw [integer]
    split
    · exact List.forall_mem_cons.mpr ⟨rfl, digit⟩
    · exact digit
  rw [lower, String.toList_ofList, List.map_congr_left each, List.map_id']

/-- A sign, or none. -/
def IsSign (sign : List Char) : Prop := sign = [] ∨ sign = ['+'] ∨ sign = ['-']

theorem splitSign_append {sign cs : List Char} (signs : IsSign sign)
    (digit : ∀ c ∈ cs.head?, c.isDigit = true) : splitSign (sign ++ cs) = (sign == ['-'], cs) := by
  rcases signs with rfl | rfl | rfl
  · cases cs with
    | nil => rfl
    | cons c rest =>
        have own := digit c rfl
        rw [List.nil_append, splitSign.eq_3]
        · rfl
        · rintro _ ⟨⟩
          cases own
        · rintro _ ⟨⟩
          cases own
  · rfl
  · rfl

end Ascii

theorem Blank.not_blank_of_digit {c : Char} (digit : c.isDigit = true) : isBlank c = false := by
  have low : 48 ≤ c.toNat := (Char.isDigit_iff_toNat.mp digit).1
  have high : c.toNat ≤ 57 := (Char.isDigit_iff_toNat.mp digit).2
  simp only [isBlank, ranges, List.any_cons, List.any_nil, Bool.or_false, Bool.or_eq_false_iff,
    Bool.and_eq_false_iff, decide_eq_false_iff_not]
  omega

theorem Binary64.ofDecimal_whole (negative : Bool) {n : Nat} (width : Nat) (positive : n ≠ 0) :
    ofDecimal negative n width 0 = ofRatio negative n 1 := by
  rw [ofDecimal, if_neg positive, if_neg (by decide : ¬ (400 : Int) < 0),
    if_neg (by omega : ¬ (0 + width : Int) < -400)]
  show ofRatio negative (n * 1) 1 = _
  rw [Nat.mul_one]

/-- What comes behind the digits of an integer: neither another digit nor a fraction or an exponent. -/
def BreaksOff (rest : List Char) : Prop :=
  ∀ c ∈ rest.head?, c.isDigit = false ∧ c ≠ '.' ∧ c ≠ 'e' ∧ c ≠ 'E'

theorem BreaksOff.of_prefix {rest front : List Char} (breaks : BreaksOff rest)
    (shorter : front <+: rest) : BreaksOff front := by
  intro c first
  obtain ⟨behind, rfl⟩ := shorter
  refine breaks c ?_
  rw [Option.mem_def, List.head?_append, Option.mem_def.mp first]
  rfl

/-- Digits that break off are read as a double only where nothing is behind them. -/
theorem Extended.eq_of_magnitude? {negative : Bool} {ds rest : List Char} {x : Binary64}
    (digits : ∀ c ∈ ds, c.isDigit = true) (breaks : BreaksOff rest)
    (read : magnitude? negative (ds ++ rest) = some (.finite x)) :
    rest = [] ∧ Binary64.ofDecimal negative (Ascii.digitsValue ds) ds.length 0 = some x := by
  obtain ⟨whole, behind⟩ := span_append digits fun c first => (breaks c first).1
  cases rest with
  | nil =>
      -- digits alone, with the exponent of a text that has none
      refine ⟨rfl, ?_⟩
      rw [List.append_nil] at whole behind read
      simp only [magnitude?, whole, behind, List.append_nil, exponent?] at read
      split at read
      · cases read
      · dsimp only [bind, Option.bind] at read
        split at read
        · next own =>
            cases read
            exact own
        · cases read
  | cons c more =>
      -- what is left behind the digits would have to be a fraction or an exponent
      obtain ⟨-, point, lower, upper⟩ := breaks c rfl
      have none : exponent? (c :: more) = none := by
        simp [exponent?, lower, upper]
      simp only [magnitude?, behind] at read
      split at read
      · next opens =>
          cases opens
          exact absurd rfl point
      · simp [none] at read

namespace Filter

/-- A text that begins with an integer. -/
structure IntegerText where
  blanks : List Char
  sign : List Char
  digits : List Char
  rest : List Char
  are_blank : ∀ c ∈ blanks, Blank.isBlank c = true
  is_sign : Ascii.IsSign sign
  some_digit : digits ≠ []
  are_digits : ∀ c ∈ digits, c.isDigit = true
  breaks_off : BreaksOff rest

namespace IntegerText

variable (t : IntegerText)

/-- The text without the blanks in front. -/
def opened : List Char := t.sign ++ (t.digits ++ t.rest)

def text : String := String.ofList (t.blanks ++ t.opened)

/-- The integer that sign and digits spell. -/
def value : Int :=
  let magnitude : Nat := Nat.ofDigits 10 (t.digits.map Ascii.digitValue).reverse
  if t.sign = ['-'] then -magnitude else magnitude

def negative : Bool := t.sign == ['-']

theorem value_eq :
    t.value = if t.negative then -(Ascii.digitsValue t.digits : Int) else Ascii.digitsValue t.digits := by
  simp only [value, negative, Ascii.digitsValue_eq_ofDigits, beq_iff_eq]

/-- The text without the blanks at either end. -/
def trimmed : IntegerText where
  blanks := []
  sign := t.sign
  digits := t.digits
  rest := Blank.dropTrailing t.rest
  are_blank := List.forall_mem_nil _
  is_sign := t.is_sign
  some_digit := t.some_digit
  are_digits := t.are_digits
  breaks_off := t.breaks_off.of_prefix (Blank.dropTrailing_prefix t.rest)

theorem digit_first (behind : List Char) : ∀ c ∈ (t.digits ++ behind).head?, c.isDigit = true := by
  intro c first
  cases spelled : t.digits with
  | nil => exact absurd spelled t.some_digit
  | cons d more =>
      rw [spelled] at first
      cases first
      exact t.are_digits c (spelled ▸ List.mem_cons_self)

theorem splitSign_opened : Ascii.splitSign t.opened = (t.negative, t.digits ++ t.rest) :=
  Ascii.splitSign_append t.is_sign (t.digit_first t.rest)

theorem opened_not_blank : ∀ c ∈ t.opened.head?, Blank.isBlank c = false := by
  intro c first
  rw [opened] at first
  rcases t.is_sign with sign | sign | sign <;> rw [sign] at first
  · exact Blank.not_blank_of_digit (t.digit_first t.rest c first)
  · cases first
    decide
  · cases first
    decide

theorem dropLeading_text : Blank.dropLeading t.text.toList = t.opened := by
  rw [text, String.toList_ofList]
  exact Blank.dropLeading_append t.are_blank t.opened_not_blank

theorem trim_text : Blank.trim t.text = String.ofList t.trimmed.opened := by
  have ends : ∀ c ∈ (t.sign ++ t.digits).getLast?, Blank.isBlank c = false := by
    intro c last
    rw [List.getLast?_append_of_ne_nil _ t.some_digit] at last
    exact Blank.not_blank_of_digit (t.are_digits c (List.mem_of_getLast? last))
  rw [Blank.trim, Blank.strip, t.dropLeading_text, opened, ← List.append_assoc,
    Blank.dropTrailing_append t.rest ends, List.append_assoc]
  rfl

/-- The digits at the start alone. -/
theorem leadingInteger_opened : leadingInteger t.opened = Integer64.clamp t.value := by
  have digits := (span_append t.are_digits fun c first => (t.breaks_off c first).1).1
  simp only [leadingInteger, t.splitSign_opened, digits, t.value_eq]

theorem signedDigits?_opened :
    Ascii.signedDigits? t.opened = if t.rest = [] then some t.value else none := by
  rw [Ascii.signedDigits?, t.splitSign_opened]
  dsimp only
  cases behind : t.rest with
  | nil =>
      have digits : t.digits.all Char.isDigit = true := List.all_eq_true.mpr t.are_digits
      have there : t.digits.isEmpty = false := List.isEmpty_eq_false_iff.mpr t.some_digit
      simp [digits, there, t.value_eq]
  | cons c more =>
      have digit : c.isDigit = false := (t.breaks_off c (by rw [behind]; rfl)).1
      simp [digit]

/-- What begins with a digit is none of the words that doubles have. -/
theorem parse?_opened :
    Extended.parse? (String.ofList t.opened) = Extended.magnitude? t.negative (t.digits ++ t.rest) := by
  have differs {word : String} (letter : word.toList.head?.any (!·.isDigit) = true) :
      (String.ofList ((t.digits ++ t.rest).map Char.toLower) == word) = false := by
    rw [beq_eq_false_iff_ne]
    rintro rfl
    rw [String.toList_ofList, List.head?_map, Option.any_map] at letter
    obtain ⟨c, first, other⟩ := Option.any_eq_true _ _ |>.mp letter
    have digit := t.digit_first t.rest c first
    simp [Ascii.toLower_of_digit digit, digit] at other
  rw [Extended.parse?, String.toList_ofList, t.splitSign_opened]
  dsimp only
  rw [differs (by decide +kernel), differs (by decide +kernel), differs (by decide +kernel)]
  rfl

/-! The three ways to read a text as an integer. -/

theorem eq_of_parse? {n : Int} (read : Integer64.parse? (Blank.trim t.text) = some n) :
    n = Integer64.clamp t.value := by
  rw [t.trim_text, Integer64.parse?_ofList, Option.filter_eq_some_iff, signedDigits?_opened] at read
  obtain ⟨whole, fits⟩ := read
  obtain ⟨-, same⟩ := Option.ite_none_right_eq_some.mp whole
  cases same
  exact (Integer64.clamp_of_fits fits).symm

/-- A double that is taken only because the integer does not fit is beyond the word as the integer is. -/
theorem clamp_trunc_of_parse? {x : Binary64}
    (unfit : Integer64.parse? (Blank.trim t.text) = none)
    (read : Extended.parse? (Blank.trim t.text) = some (.finite x)) :
    Integer64.clamp x.trunc = Integer64.clamp t.value := by
  rw [t.trim_text, parse?_opened] at read
  obtain ⟨whole, own⟩ := Extended.eq_of_magnitude? t.are_digits t.trimmed.breaks_off read
  rw [t.trim_text, Integer64.parse?_ofList, signedDigits?_opened, if_pos whole,
    Option.filter_eq_none_iff] at unfit
  have outside : ¬ Integer64.fits t.value = true := unfit t.value rfl
  rw [Integer64.fits_iff, t.value_eq] at outside
  have far : 2 ^ 63 ≤ Ascii.digitsValue t.digits := by
    simp only [Integer64.least, Integer64.greatest] at outside
    split at outside <;> omega
  have positive : Ascii.digitsValue t.digits ≠ 0 := by omega
  change Binary64.ofDecimal t.negative (Ascii.digitsValue t.digits) t.digits.length 0 = some x at own
  rw [Binary64.ofDecimal_whole _ _ positive] at own
  rw [t.value_eq]
  exact Binary64.clamp_trunc_of_beyond far own

/-- Whichever way is taken, the integer is the one at the start of the text, or the end of the word. -/
theorem integerOfText_eq : integerOfText t.text = Integer64.clamp t.value := by
  have whole : String.ofList (Blank.dropTrailing (Blank.dropLeading t.text.toList)) =
      Blank.trim t.text := rfl
  unfold integerOfText
  dsimp only
  rw [whole]
  split
  · next n read => exact t.eq_of_parse? read
  · next unfit =>
      split
      · next x read => exact t.clamp_trunc_of_parse? unfit read
      · rw [t.dropLeading_text]
        exact t.leadingInteger_opened

/-- The decimal text of an integer. -/
def decimal (n : Int) : IntegerText where
  blanks := []
  sign := if n < 0 then ['-'] else []
  digits := Ascii.digits n.natAbs
  rest := []
  are_blank := List.forall_mem_nil _
  is_sign := by
    split
    · exact .inr (.inr rfl)
    · exact .inl rfl
  some_digit := Nat.toDigits_ne_nil
  are_digits := fun _ => Ascii.isDigit_of_digits
  breaks_off := by rintro _ ⟨⟩

theorem decimal_opened (n : Int) : (decimal n).opened = Ascii.integer n := by
  rw [opened, Ascii.integer]
  simp only [decimal, List.append_nil]
  split <;> rfl

theorem decimal_text (n : Int) : (decimal n).text = String.ofList (Ascii.integer n) := by
  rw [text, decimal_opened]
  rfl

theorem decimal_value (n : Int) : (decimal n).value = n := by
  rw [value_eq]
  simp only [decimal, negative, Ascii.digitsValue_digits]
  by_cases below : n < 0
  · rw [if_pos below, beq_self_eq_true, if_pos rfl]
    omega
  · rw [if_neg below, if_neg (by decide)]
    omega

end IntegerText

theorem integerOfNumber_int {n : Int} (low : Integer64.least ≤ n)
    (high : n ≤ Integer64.greatestUnsigned) : integerOfNumber (.int n) = Integer64.clamp n := by
  rw [integerOfNumber]
  by_cases fits : Integer64.fits n = true
  · rw [if_pos fits, Integer64.clamp_of_fits fits]
  · obtain ⟨x, came, same⟩ := Binary64.exists_ofInt_of_unfit fits low high
    rw [if_neg fits, came]
    exact same

/-- Of all integers only zero has a decimal text that stands for false. -/
theorem booleanOfText_integer (n : Int) :
    booleanOfText (String.ofList (Ascii.integer n)) = (n != 0) := by
  have spelled : Ascii.signedDigits? (Ascii.integer n) = some n := by
    rw [← IntegerText.decimal_opened, IntegerText.signedDigits?_opened,
      IntegerText.decimal_value]
    rfl
  -- zero is the only integer among those words
  have each : falseTexts.all (fun word => Ascii.signedDigits? word.toList ∈ [none, some 0]) = true := by
    decide +kernel
  rw [booleanOfText, Ascii.lower_integer]
  by_cases zero : n = 0
  · subst zero
    decide +kernel
  · have absent : falseTexts.contains (String.ofList (Ascii.integer n)) = false := by
      rw [Bool.eq_false_iff]
      intro among
      have shape := List.all_eq_true.mp each _ (List.contains_iff_mem.mp among)
      simp [spelled, zero] at shape
    rw [absent]
    simp [zero]

/-- For every text of blanks, perhaps a sign, digits and a rest that does not go on as a number: as an
integer it is what sign and digits spell, or the end of the signed word on that side. So is each of the
answers that are tried for in turn, the text as an integer, else as a double, and the digits at its start.
An integer that a signed or an unsigned word holds is bound the same as a number and as its decimal text,
whatever type is declared. -/
theorem coerced_integers_saturate :
    (∀ t : IntegerText,
      coerce? (.string t.text) .integer = some (.integer (Integer64.clamp t.value)) ∧
      (∀ n, Integer64.parse? (Blank.trim t.text) = some n → n = Integer64.clamp t.value) ∧
      (∀ x, Integer64.parse? (Blank.trim t.text) = none →
        Extended.parse? (Blank.trim t.text) = some (.finite x) →
        Integer64.clamp x.trunc = Integer64.clamp t.value) ∧
      leadingInteger (Blank.dropLeading t.text.toList) = Integer64.clamp t.value) ∧
    ∀ n : Int, Integer64.least ≤ n → n ≤ Integer64.greatestUnsigned → ∀ type,
      coerce? (.number (.int n)) type = coerce? (.string (String.ofList (Ascii.integer n))) type := by
  constructor
  · intro t
    refine ⟨?_, fun n => t.eq_of_parse?, fun x => t.clamp_trunc_of_parse?, ?_⟩
    · rw [← t.integerOfText_eq]
      rfl
    · rw [t.dropLeading_text, t.leadingInteger_opened]
  · intro n low high type
    have decimal := (IntegerText.decimal n).integerOfText_eq
    rw [IntegerText.decimal_text, IntegerText.decimal_value] at decimal
    cases type with
    | null => rfl
    | string => rfl
    | float => rfl
    | integer =>
        show some (Parameter.integer (integerOfNumber (.int n))) =
          some (.integer (integerOfText (String.ofList (Ascii.integer n))))
        rw [decimal, integerOfNumber_int low high]
    | boolean =>
        show some (Parameter.boolean (n != 0)) =
          some (.boolean (booleanOfText (String.ofList (Ascii.integer n))))
        rw [booleanOfText_integer]

/-- A text one beyond the least integer, between blanks and other things, and the greatest number that a
word without a sign holds. -/
theorem integers_beyond_the_word_saturate :
    coerce? (.string "\t -9223372036854775809 of them") .integer =
      some (.integer (-9223372036854775808)) ∧
    Integer64.least ≤ 18446744073709551615 ∧ 18446744073709551615 ≤ (Integer64.greatestUnsigned : Int) ∧
    coerce? (.number (.int 18446744073709551615)) .integer =
      coerce? (.string "18446744073709551615") .integer := by
  let t : IntegerText :=
    { blanks := ['\t', ' ']
      sign := ['-']
      digits := "9223372036854775809".toList
      rest := ' ' :: "of them".toList
      are_blank := List.all_eq_true.mp (by decide)
      is_sign := .inr (.inr rfl)
      some_digit := by decide +kernel
      are_digits := List.all_eq_true.mp (by decide +kernel)
      breaks_off := by
        rintro _ ⟨⟩
        decide }
  have text : t.text = "\t -9223372036854775809 of them" := by decide +kernel
  have value : Integer64.clamp t.value = -9223372036854775808 := by decide +kernel
  have low : Integer64.least ≤ 18446744073709551615 := by decide
  have high : 18446744073709551615 ≤ (Integer64.greatestUnsigned : Int) := by decide
  have bound := (coerced_integers_saturate.1 t).1
  rw [text, value] at bound
  have number : String.ofList (Ascii.integer 18446744073709551615) = "18446744073709551615" := by
    decide +kernel
  have same := coerced_integers_saturate.2 _ low high .integer
  rw [number] at same
  exact ⟨bound, low, high, same⟩

end Filter
end Multicall
