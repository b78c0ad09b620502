import Multicall.Json.Printer
/-!
Texts of one line. The compact text of a document has no control character anywhere, whatever its
names and values hold, and UTF-8 makes no octet of one out of any other character. So a document on
the wire has no line end in it.
-/
namespace Multicall

def IsPlain (c : Char) : Prop := 0x20 ≤ c.toNat

instance (c : Char) : Decidable (IsPlain c) := inferInstanceAs (Decidable (0x20 ≤ c.toNat))

namespace Octets

theorem longForm_large {n k m : Nat} (positive : 0 < k) (big : 128 ≤ m) (room : k + m ≤ 256) :
    128 ≤ (UInt8.ofNat (n % k + m)).toNat := by
  have remainder := Nat.mod_lt n positive
  rw [UInt8.toNat_ofNat_of_lt' (by simp only [UInt8.size]; omega)]
  omega

/-- An octet of seven bits stands for the character of its own number. -/
theorem number_of_mem {c : Char} {b : UInt8} (member : b ∈ String.utf8EncodeChar c)
    (small : b.toNat < 128) : b.toNat = c.toNat := by
  simp only [String.utf8EncodeChar] at member
  split at member
  case isTrue short =>
    obtain rfl := List.mem_singleton.mp member
    rw [UInt8.toNat_ofNat_of_lt' (by simp only [UInt8.size]; omega), Char.toNat_val]
  -- every octet of a longer form has its highest bit set
  case isFalse =>
    have large : 128 ≤ b.toNat := by
      split at member
      · simp only [List.mem_cons, List.not_mem_nil, or_false] at member
        rcases member with rfl | rfl <;>
          exact longForm_large (by decide) (by decide) (by decide)
      · split at member
        · simp only [List.mem_cons, List.not_mem_nil, or_false] at member
          rcases member with rfl | rfl | rfl <;>
            exact longForm_large (by decide) (by decide) (by decide)
        · simp only [List.mem_cons, List.not_mem_nil, or_false] at member
          rcases member with rfl | rfl | rfl | rfl <;>
            exact longForm_large (by decide) (by decide) (by decide)
    omega

theorem no_return {cs : List Char} (none : '\r' ∉ cs) : (13 : UInt8) ∉ ofChars cs := by
  intro member
  obtain ⟨c, among, within⟩ := List.mem_flatMap.mp member
  have number := number_of_mem within (by decide)
  have same : c = '\r' := Char.toNat_inj.mp number.symm
  exact none (same ▸ among)

end Octets

def ArePlain (cs : List Char) : Prop := ∀ c ∈ cs, IsPlain c

instance (cs : List Char) : Decidable (ArePlain cs) := List.decidableBAll IsPlain cs

section ArePlain

variable {cs ds : List Char}

theorem arePlain_cons {c : Char} : ArePlain (c :: cs) ↔ IsPlain c ∧ ArePlain cs :=
  List.forall_mem_cons

theorem arePlain_append : ArePlain (cs ++ ds) ↔ ArePlain cs ∧ ArePlain ds :=
  List.forall_mem_append

theorem ArePlain.no_return (plain : ArePlain cs) : '\r' ∉ cs :=
  fun member => absurd (plain _ member) (by decide)

theorem arePlain_digits (n : Nat) : ArePlain (Ascii.digits n) := by
  intro c member
  have digit := Ascii.isDigit_of_digits member
  simp only [Char.isDigit, Bool.and_eq_true, decide_eq_true_eq] at digit
  have least : '0'.val.toNat ≤ c.val.toNat := UInt32.le_iff_toNat_le.mp digit.1
  exact Nat.le_trans (by decide) least

theorem arePlain_zeros (n : Nat) : ArePlain (List.replicate n '0') := by
  intro c member
  rw [List.eq_of_mem_replicate member]
  decide

end ArePlain

namespace Decimal

theorem positionalText_plain (d : Decimal) {wholeMark : String} (mark : ArePlain wholeMark.toList) :
    ArePlain (d.positionalText wholeMark) := by
  have taken (n : Nat) : ArePlain ((Ascii.digits d.coefficient).take n) :=
    fun c member => arePlain_digits _ c (List.mem_of_mem_take member)
  have left (n : Nat) : ArePlain ((Ascii.digits d.coefficient).drop n) :=
    fun c member => arePlain_digits _ c (List.mem_of_mem_drop member)
  rw [positionalText]
  split
  · exact arePlain_append.mpr ⟨arePlain_append.mpr ⟨arePlain_digits _, arePlain_zeros _⟩, mark⟩
  · dsimp only
    split
    · exact arePlain_append.mpr ⟨taken _, arePlain_cons.mpr ⟨by decide, left _⟩⟩
    · exact arePlain_cons.mpr ⟨by decide, arePlain_cons.mpr ⟨by decide,
        arePlain_append.mpr ⟨arePlain_zeros _, arePlain_digits _⟩⟩⟩

theorem scientificText_plain (d : Decimal) : ArePlain d.scientificText := by
  have mantissa := arePlain_digits d.coefficient
  have exponent : ArePlain ('e' :: (if d.magnitude < 0 then '-' else '+') ::
      Ascii.digits d.magnitude.natAbs) := by
    refine arePlain_cons.mpr ⟨by decide, arePlain_cons.mpr ⟨?_, arePlain_digits _⟩⟩
    split <;> decide
  rw [scientificText]
  refine arePlain_append.mpr ⟨?_, exponent⟩
  split
  case _ first second more same =>
    rw [same, arePlain_cons, arePlain_cons] at mantissa
    exact arePlain_cons.mpr ⟨mantissa.1, arePlain_cons.mpr ⟨by decide,
      arePlain_cons.mpr mantissa.2⟩⟩
  case _ => exact mantissa

theorem text_plain (layout : Layout) (mark : ArePlain layout.wholeMark.toList) (d : Decimal) :
    ArePlain (d.text layout) := by
  have magnitude : ArePlain (if layout.positional d.magnitude then
      d.positionalText layout.wholeMark else d.scientificText) := by
    split
    · exact positionalText_plain d mark
    · exact scientificText_plain d
  rw [text]
  split
  · exact arePlain_cons.mpr ⟨by decide, magnitude⟩
  · exact magnitude

end Decimal

theorem Number.text_plain (n : Number) : ArePlain n.text := by
  cases n with
  | int n =>
    rw [text, Ascii.integer]
    split
    · exact arePlain_cons.mpr ⟨by decide, arePlain_digits _⟩
    · exact arePlain_digits _
  | double x => exact Decimal.text_plain _ (by decide) _

namespace Json

theorem escape_plain (c : Char) : ArePlain (escape c) := by
  have digit : ∀ n < 16, IsPlain (hexDigit n) := by decide
  unfold escape
  split
  case h_8 =>
    split
    case isTrue control =>
      refine arePlain_cons.mpr ⟨by decide, arePlain_cons.mpr ⟨by decide, arePlain_cons.mpr
        ⟨by decide, arePlain_cons.mpr ⟨by decide, arePlain_cons.mpr ⟨digit _ (by omega),
          arePlain_cons.mpr ⟨digit _ (by omega), nofun⟩⟩⟩⟩⟩⟩
    case isFalse shown => exact arePlain_cons.mpr ⟨Nat.le_of_not_lt shown, nofun⟩
  all_goals decide

theorem quote_plain (s : String) : ArePlain (quote s) := by
  refine arePlain_cons.mpr ⟨by decide, arePlain_append.mpr ⟨?_, by decide⟩⟩
  intro d member
  obtain ⟨c, -, within⟩ := List.mem_flatMap.mp member
  exact escape_plain c d within

theorem commaSeparated_plain {pieces : List (List Char)} (each : ∀ piece ∈ pieces, ArePlain piece) :
    ArePlain (commaSeparated pieces) := by
  induction pieces with
  | nil => exact nofun
  | cons piece rest ih =>
    obtain ⟨first, others⟩ := List.forall_mem_cons.mp each
    cases rest with
    | nil => exact first
    | cons next more =>
      exact arePlain_append.mpr ⟨first, arePlain_cons.mpr ⟨by decide, ih others⟩⟩

mutual

/-- No document has a control character in its text. -/
theorem chars_plain (j : Json) : ArePlain j.chars := by
  match j with
  | .null => exact (by decide : ArePlain ['n', 'u', 'l', 'l'])
  | .bool true => exact (by decide : ArePlain ['t', 'r', 'u', 'e'])
  | .bool false => exact (by decide : ArePlain ['f', 'a', 'l', 's', 'e'])
  | .number n => exact n.text_plain
  | .string s => exact quote_plain s
  | .array items =>
    exact arePlain_cons.mpr ⟨by decide, arePlain_append.mpr
      ⟨commaSeparated_plain (itemTexts_plain items), by decide⟩⟩
  | .object members =>
    exact arePlain_cons.mpr ⟨by decide, arePlain_append.mpr
      ⟨commaSeparated_plain (memberTexts_plain members), by decide⟩⟩

theorem itemTexts_plain (items : List Json) : ∀ piece ∈ itemTexts items, ArePlain piece := by
  match items with
  | [] => exact nofun
  | item :: rest => exact List.forall_mem_cons.mpr ⟨chars_plain item, itemTexts_plain rest⟩

theorem memberTexts_plain (members : List (String × Json)) :
    ∀ piece ∈ memberTexts members, ArePlain piece := by
  match members with
  | [] => exact nofun
  | (name, value) :: rest =>
    exact List.forall_mem_cons.mpr ⟨arePlain_append.mpr ⟨quote_plain name,
      arePlain_cons.mpr ⟨by decide, chars_plain value⟩⟩, memberTexts_plain rest⟩

end

theorem octets_no_return (j : Json) : (13 : UInt8) ∉ j.octets :=
  Octets.no_return (chars_plain j).no_return

end Json
end Multicall
