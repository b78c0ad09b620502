/-!
ASCII classes and case over texts. Names on the wire and operator words are compared without
regard to ASCII case only; every character above U+007F stands for itself.
-/
namespace Multicall.Ascii

/-- The text with the letters `A` to `Z` in lower case and all else unchanged. -/
def lower (s : String) : String := String.ofList (s.toList.map Char.toLower)

def consistsOf (inClass : Char → Bool) (s : String) : Bool :=
  !s.toList.isEmpty && s.toList.all inClass

/-- Whether a text starts with a letter or digit and goes on within the class. -/
def startsAlnumThen (inClass : Char → Bool) (s : String) : Bool :=
  match s.toList with
  | [] => false
  | c :: rest => c.isAlphanum && rest.all inClass

def dropWord? (word s : String) : Option String :=
  if word.toList.isPrefixOf s.toList then
    some (String.ofList (s.toList.drop word.toList.length))
  else
    none

def before (stop : Char) (s : String) : String :=
  String.ofList (s.toList.takeWhile (· != stop))

/-- The parts of a text between the places where it has a mark. There is one more than marks. -/
def split (mark : Char) : List Char → List (List Char)
  | [] => [[]]
  | c :: rest =>
      if c = mark then [] :: split mark rest
      else
        match split mark rest with
        | [] => [[c]]
        | part :: parts => (c :: part) :: parts

def digitValue (c : Char) : Nat := c.toNat - '0'.toNat

def digitsValue (ds : List Char) : Nat := ds.foldl (fun n c => 10 * n + digitValue c) 0

def digits (n : Nat) : List Char := Nat.toDigits 10 n

theorem isDigit_of_digits {n : Nat} {c : Char} (member : c ∈ digits n) : c.isDigit = true :=
  Nat.isDigit_of_mem_toDigits (by decide) (by decide) member

theorem digitsValue_digits (n : Nat) : digitsValue (digits n) = n := Nat.ofDigitChars_ten_toDigits

def decimal (n : Nat) : String := String.ofList (digits n)

def integer (n : Int) : List Char :=
  if n < 0 then '-' :: digits n.natAbs else digits n.natAbs

def splitSign : List Char → Bool × List Char
  | '-' :: rest => (true, rest)
  | '+' :: rest => (false, rest)
  | cs => (false, cs)

def signedDigits? (cs : List Char) : Option Int :=
  let (negative, ds) := splitSign cs
  if ds.isEmpty || !ds.all Char.isDigit then none
  else
    let n : Int := digitsValue ds
    some (if negative then -n else n)

def hexDigit? (c : Char) : Option Nat :=
  if c.isDigit then some (c.toNat - '0'.toNat)
  else if 'a' ≤ c ∧ c ≤ 'f' then some (c.toNat - 'a'.toNat + 10)
  else if 'A' ≤ c ∧ c ≤ 'F' then some (c.toNat - 'A'.toNat + 10)
  else none

def isDigitIn (base : Nat) (c : Char) : Bool := (hexDigit? c).any (· < base)

def valueIn? (base : Nat) (ds : List Char) : Option Nat :=
  ds.foldlM (fun n c => ((hexDigit? c).filter (· < base)).map (base * n + ·)) 0

def hexValue? (ds : List Char) : Option Nat := valueIn? 16 ds

/-- The character with a given number, if there is one. -/
def charNumbered? (n : Nat) : Option Char := if n.isValidChar then some (Char.ofNat n) else none

def hexChar? (ds : List Char) : Option Char := (hexValue? ds).bind charNumbered?

end Multicall.Ascii
