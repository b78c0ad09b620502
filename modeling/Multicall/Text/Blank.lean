/-!
Blank characters: those with the Unicode property White_Space, all twenty-five of them. Trimming
takes them off the ends of a text and leaves the inside as it is.
-/
namespace Multicall.Blank

/-- The ranges of the property, in order. -/
def ranges : List (Nat × Nat) :=
  [(0x09, 0x0D), (0x20, 0x20), (0x85, 0x85), (0xA0, 0xA0), (0x1680, 0x1680), (0x2000, 0x200A),
   (0x2028, 0x2029), (0x202F, 0x202F), (0x205F, 0x205F), (0x3000, 0x3000)]

def isBlank (c : Char) : Bool := ranges.any fun r => r.1 ≤ c.toNat && c.toNat ≤ r.2

example : (ranges.map fun r => r.2 - r.1 + 1).sum = 25 := by decide
example : ranges.Pairwise (fun a b => a.2 < b.1) := by decide

def dropLeading (cs : List Char) : List Char := cs.dropWhile isBlank

def dropTrailing (cs : List Char) : List Char := (cs.reverse.dropWhile isBlank).reverse

def strip (cs : List Char) : List Char := dropTrailing (dropLeading cs)

/-- The text without blanks at either end. -/
def trim (s : String) : String := String.ofList (strip s.toList)

end Multicall.Blank
