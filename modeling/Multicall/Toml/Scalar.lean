import Multicall.Integer64
import Multicall.Toml.Basic
import Multicall.Toml.Moment
/-!
The scalars of TOML text that are no strings: integers in four bases, floats, booleans and moments.
A scalar is the whole of a word, so no part of a word is a scalar of its own.
-/
namespace Multicall.Toml

/-- Digits with single underscores between them, without the underscores. -/
def digitRow? (isDigit : Char → Bool) (needed : Bool) : List Char → Option (List Char)
  | [] => if needed then none else some []
  | '_' :: rest => if needed then none else digitRow? isDigit true rest
  | c :: rest => if isDigit c then (digitRow? isDigit false rest).map (c :: ·) else none

def wholeRow? (cs : List Char) : Option (List Char) :=
  match digitRow? Char.isDigit true cs with
  | some ('0' :: _ :: _) => none
  | row => row

def based? (base : Nat) (cs : List Char) : Option Int := do
  let ds ← digitRow? (Ascii.isDigitIn base) true cs
  (Ascii.valueIn? base ds).map Int.ofNat

def integer? (cs : List Char) : Option Int := do
  let n ← match cs with
    | '0' :: 'x' :: ds => based? 16 ds
    | '0' :: 'o' :: ds => based? 8 ds
    | '0' :: 'b' :: ds => based? 2 ds
    | _ => do
        let (negative, ds) := Ascii.splitSign cs
        let n : Int := Ascii.digitsValue (← wholeRow? ds)
        pure (if negative then -n else n)
  if Integer64.fits n then some n else none

def floatRow? (cs : List Char) : Option (List Char) := do
  let isMark (c : Char) : Bool := c == '.' || c == 'e' || c == 'E'
  let whole ← wholeRow? (cs.takeWhile (!isMark ·))
  let rest := cs.dropWhile (!isMark ·)
  let isExponentMark (c : Char) : Bool := c == 'e' || c == 'E'
  let (fraction, rest) ← match rest with
    | '.' :: more => do
        let ds ← digitRow? Char.isDigit true (more.takeWhile (!isExponentMark ·))
        pure ('.' :: ds, more.dropWhile (!isExponentMark ·))
    | _ => some ([], rest)
  let exponent ← match rest with
    | [] => if fraction.isEmpty then none else some []
    | _ :: '-' :: ds => do pure ('e' :: '-' :: (← digitRow? Char.isDigit true ds))
    | _ :: '+' :: ds => do pure ('e' :: (← digitRow? Char.isDigit true ds))
    | _ :: ds => do pure ('e' :: (← digitRow? Char.isDigit true ds))
  some (whole ++ fraction ++ exponent)

/-- A float. A positive one that is too large to be finite is refused, unless it is spelled `inf`;
a negative one becomes infinite. -/
def float? (cs : List Char) : Option Extended := do
  let (negative, rest) := Ascii.splitSign cs
  match rest with
  | ['i', 'n', 'f'] => some (.infinite negative)
  | ['n', 'a', 'n'] => some .nan
  | _ =>
      let row ← floatRow? rest
      match Extended.parse? (String.ofList row) with
      | some (.finite x) => some (.finite { x with negative := negative })
      | some (.infinite _) => if negative then some (.infinite true) else none
      | _ => none

def isWordChar (c : Char) : Bool :=
  c.isAlphanum || c == '+' || c == '-' || c == '_' || c == '.' || c == ':'

/-- The word at the start of a text. A date and a time may have one space between them. -/
def word (cs : List Char) : List Char × List Char :=
  let first := cs.takeWhile isWordChar
  let rest := cs.dropWhile isWordChar
  match MomentRules.calendar.date? first, rest with
  | some (_, []), ' ' :: d :: more =>
      if d.isDigit then
        (first ++ ' ' :: (d :: more).takeWhile isWordChar, (d :: more).dropWhile isWordChar)
      else (first, rest)
  | _, _ => (first, rest)

def wordValue? (cs : List Char) : Option Value :=
  if cs = "true".toList then some (.boolean true)
  else if cs = "false".toList then some (.boolean false)
  else
    match integer? cs with
    | some n => some (.integer n)
    | none =>
        match float? cs with
        | some x => some (.float x)
        | none => (MomentRules.calendar.moment? cs).map .moment

def scalar? (cs : List Char) : Option (Value × List Char) := do
  let (first, rest) := word cs
  some (← wordValue? first, rest)

end Multicall.Toml
