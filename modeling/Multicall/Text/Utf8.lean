/-!
Octets on the wire. Texts leave as UTF-8 and arrive as UTF-8; a body that is no UTF-8 is no text,
and how much of its start is sound says where it stops to be one.
-/
namespace Multicall

abbrev Octets := List UInt8

namespace Octets

def ofChars (cs : List Char) : Octets := cs.flatMap String.utf8EncodeChar

def ofText (s : String) : Octets := ofChars s.toList

/-- The text that the octets spell, if they are UTF-8. -/
def text? (bytes : Octets) : Option String := String.fromUTF8? ⟨bytes.toArray⟩

def isTail (b : UInt8) : Bool := 0x80 ≤ b && b ≤ 0xBF

/-- Whether a second octet may follow a first: no form is longer than it has to be, and none stands
for a surrogate or for a number above the last character. -/
def isSecond (a b : UInt8) : Bool :=
  if a = 0xE0 then 0xA0 ≤ b && b ≤ 0xBF
  else if a = 0xED then 0x80 ≤ b && b ≤ 0x9F
  else if a = 0xF0 then 0x90 ≤ b && b ≤ 0xBF
  else if a = 0xF4 then 0x80 ≤ b && b ≤ 0x8F
  else isTail b

def leadingLength : Octets → Nat
  | [] => 0
  | a :: rest =>
      if a < 0x80 then 1
      else
        match rest with
        | [] => 0
        | b :: rest =>
            if a < 0xC2 || 0xF4 < a || !isSecond a b then 0
            else if a < 0xE0 then 2
            else
              match rest with
              | [] => 0
              | c :: rest =>
                  if !isTail c then 0
                  else if a < 0xF0 then 3
                  else if (rest.head?.map isTail).getD false then 4
                  else 0

/-- How many octets at the start spell whole characters. -/
def soundLength (bytes : Octets) : Nat :=
  match _h : leadingLength bytes with
  | 0 => 0
  | n + 1 => n + 1 + soundLength (bytes.drop (n + 1))
termination_by bytes.length
decreasing_by
  cases bytes with
  | nil => simp [leadingLength] at _h
  | cons b rest => simp only [List.length_drop, List.length_cons]; omega

example : soundLength [0x61, 0xC3, 0xA9, 0xC3, 0x28] = 3 := by decide +kernel
example : soundLength [0xED, 0xA0, 0x80] = 0 := by decide +kernel

@[simp] theorem ofChars_nil : ofChars [] = [] := rfl

@[simp] theorem ofChars_append (a b : List Char) : ofChars (a ++ b) = ofChars a ++ ofChars b := by
  simp [ofChars]

theorem toList_toByteArray (s : String) : s.toByteArray.data.toList = ofText s := by
  have h : s.toByteArray = s.toList.utf8Encode := by
    conv => lhs; rw [← String.ofList_toList (s := s)]
    rfl
  rw [h]
  simp [List.utf8Encode, ofText, ofChars]

/-- Every text reads back from its own octets. -/
theorem text?_ofText (s : String) : text? (ofText s) = some s := by
  have h : (⟨(ofText s).toArray⟩ : ByteArray) = s.toByteArray := by
    rw [← toList_toByteArray]
  simp only [text?, h, String.fromUTF8?]
  rw [dif_pos s.isValidUTF8]
  rfl

end Octets
end Multicall
