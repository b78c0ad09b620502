import Multicall.Integer64
import Multicall.Toml.Moment
import Multicall.Toml.Syntax
/-!
The scalars of the early edition. They are read word by word, where a word is a row of characters
that a bare key may hold: a plus sign, a point, a colon or one space may join words to one scalar.
A plus sign may stand in front of any number, one with a minus sign included. What looks like a
moment is taken as it stands; whether it is one is seen only when the value is used.
-/
namespace Multicall.Toml.Early

def word? (cs : List Char) : Option (List Char × List Char) :=
  let word := cs.takeWhile Edition.isBareChar
  if word.isEmpty then none else some (word, cs.dropWhile Edition.isBareChar)

def joined (mark : Char) : List Char → Option (List Char × List Char)
  | [] => some ([], [])
  | c :: rest =>
      if c = mark then do
        let (word, rest) ← word? rest
        some (mark :: word, rest)
      else some ([], c :: rest)

def digitsAfter (isDigit : Char → Bool) (alone pending : Bool) (read : List Char) :
    List Char → Option (List Char × List Char)
  | [] => if pending then none else some (read.reverse, [])
  | c :: rest =>
      if isDigit c then
        if alone then none else digitsAfter isDigit alone false (c :: read) rest
      else if c == '_' && !pending then digitsAfter isDigit alone true read rest
      else if pending then none
      else some (read.reverse, c :: rest)

/-- A row of digits, without its underscores, and the rest. If `zeros` does not hold, a leading
zero is a digit that stands alone. -/
def digits? (isDigit : Char → Bool) (zeros : Bool) : List Char → Option (List Char × List Char)
  | [] => none
  | c :: rest =>
      if isDigit c then digitsAfter isDigit (c == '0' && !zeros) false [c] rest else none

def splitMinus : List Char → Bool × List Char
  | '-' :: rest => (true, rest)
  | cs => (false, cs)

def fitting? (n : Int) : Option Value := if Integer64.fits n then some (.integer n) else none

def integer? (word : List Char) : Option Value := do
  let (negative, cs) := splitMinus word
  let (ds, rest) ← digits? Char.isDigit false cs
  let n : Int := Ascii.digitsValue ds
  if rest.isEmpty then fitting? (if negative then -n else n) else none

def based? (base : Nat) (cs : List Char) : Option Value := do
  let (ds, rest) ← digits? (Ascii.isDigitIn base) true cs
  if rest.isEmpty then fitting? (← Ascii.valueIn? base ds) else none

/-- The exponent of a float at the end of a word, with a plus sign and another word if the word
ends with the mark of the exponent. -/
def exponent? (word rest : List Char) : Option (List Char × List Char) :=
  match word with
  | [] => some ([], rest)
  | mark :: more =>
      if mark == 'e' || mark == 'E' then do
        let (sign, cs, rest) ← match more with
          | [] => do
              let (word, rest) ← word? (match rest with
                | '+' :: rest => rest
                | rest => rest)
              some ([], word, rest)
          | '-' :: cs => some (['-'], cs, rest)
          | cs => some ([], cs, rest)
        let (ds, left) ← digits? Char.isDigit true cs
        if left.isEmpty then some ('e' :: sign ++ ds, rest) else none
      else none

def float? (word : List Char) (fraction : Option (List Char)) (rest : List Char) :
    Option (Value × List Char) := do
  let (negative, cs) := splitMinus word
  let (whole, left) ← digits? Char.isDigit false cs
  let (point, left) ← match fraction with
    | none => some ([], left)
    | some word => do
        let (ds, more) ← digits? Char.isDigit true word
        if left.isEmpty then some ('.' :: ds, more) else none
  let (exponent, rest) ← exponent? left rest
  match Extended.parse? (String.ofList (whole ++ point ++ exponent)) with
  | some (.finite x) => some (.float (.finite { x with negative := negative }), rest)
  | _ => none

def number? (word rest : List Char) : Option (Value × List Char) :=
  match word, rest with
  | '0' :: 'x' :: cs, _ => do return (← based? 16 cs, rest)
  | '0' :: 'o' :: cs, _ => do return (← based? 8 cs, rest)
  | '0' :: 'b' :: cs, _ => do return (← based? 2 cs, rest)
  | _, _ =>
      if word.contains 'e' || word.contains 'E' then float? word none rest
      else
        match rest with
        | '.' :: more => do
            let (fraction, rest) ← word? more
            float? word (some fraction) rest
        | _ =>
            let (negative, cs) := splitMinus word
            if cs = ['i', 'n', 'f'] then some (.float (.infinite negative), rest)
            else if cs = ['n', 'a', 'n'] then some (.float .nan, rest)
            else do return (← integer? word, rest)

/-- The text of what looks like a moment, from its first word on. A space may stand in front of the
hour, and the clock has to have minutes and seconds. -/
def moment? (first rest : List Char) : Option (Value × List Char) := do
  let (hour, rest) := match rest with
    | ' ' :: more =>
        match word? more with
        | some (hour, rest) => (' ' :: hour, rest)
        | none => ([], rest)
    | _ => ([], rest)
  let (minute, rest) ← joined ':' rest
  let (clock, rest) ←
    if minute.isEmpty then some ([], rest)
    else do
      let (second, rest) ← joined ':' rest
      if second.isEmpty then none
      let (fraction, rest) ← joined '.' rest
      let (offset, rest) ← joined '+' rest
      let (offsetMinute, rest) ← joined ':' rest
      some (minute ++ second ++ fraction ++ offset ++ offsetMinute, rest)
  some (.moment (String.ofList (first ++ hour ++ clock)), rest)

/-- Whether a word is the start of a moment: it has the mark between a date and a time, or a hyphen
behind its first character that belongs to no exponent. -/
def startsMoment (word : List Char) : Bool :=
  let hasPair (mark : Char) : Bool := (word.zip word.tail).contains (mark, '-')
  word.contains 'T' || word.contains 't' ||
    (word.tail.contains '-' && !hasPair 'e' && !hasPair 'E')

def scalar? : List Char → Option (Value × List Char)
  | '+' :: cs => do
      let (word, rest) ← word? cs
      number? word rest
  | cs => do
      let (word, rest) ← word? cs
      if word = "true".toList then return (.boolean true, rest)
      else if word = "false".toList then return (.boolean false, rest)
      else if word = ['i', 'n', 'f'] || word = ['n', 'a', 'n'] ||
          word.head?.any (fun c => c == '-' || c.isDigit) then
        if startsMoment word || rest.head? == some ':' then moment? word rest
        else number? word rest
      else none

/-- The early edition of the format: only line ends and controls end a comment, and nothing is
nested too deep. -/
def edition : Edition where
  scalar? := scalar?
  inComment c := c == '\t' || 0x20 ≤ c.toNat
  limit := none

end Multicall.Toml.Early
