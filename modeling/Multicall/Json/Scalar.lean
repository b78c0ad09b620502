import Multicall.Json.Fault
import Multicall.Json.Number
import Multicall.Text.Utf8
/-!
The parts of a JSON text that hold no other value: words, strings and number literals. A string
holds no raw control character, its escapes name whole characters, and its octets are UTF-8; a
number literal has no leading zero and at least one digit after a point and in an exponent. The
text is a row of octets, each as the character of its number.
-/
namespace Multicall.Json

/-- Each octet as the character of its number. -/
def units (bytes : Octets) : List Char := bytes.map fun b => Char.ofNat b.toNat

def scanWord : (word : List Char) → List Char → Except Stop (List Char)
  | [], cs => .ok cs
  | _ :: _, [] => stop .endInValue []
  | w :: word, c :: cs => if c = w then scanWord word cs else stop .noWord cs

def simpleEscape? : Char → Option Char
  | '"' => some '"'
  | '\\' => some '\\'
  | '/' => some '/'
  | 'b' => some '\x08'
  | 'f' => some '\x0c'
  | 'n' => some '\n'
  | 'r' => some '\r'
  | 't' => some '\t'
  | _ => none

def isHighSurrogate (n : Nat) : Bool := 0xD800 ≤ n && n < 0xDC00

def isLowSurrogate (n : Nat) : Bool := 0xDC00 ≤ n && n < 0xE000

def joinSurrogates (high low : Nat) : Char :=
  Char.ofNat (0x10000 + (high - 0xD800) * 0x400 + (low - 0xDC00))

def scanHex : Scan Nat
  | a :: b :: c :: d :: rest =>
      match Ascii.hexValue? [a, b, c, d] with
      | some n => .ok (n, rest)
      | none => stop .badEscape rest
  | _ => stop .endInString []

def scanLow : Scan Nat
  | '\\' :: 'u' :: rest => do
      let (n, rest) ← scanHex rest
      if isLowSurrogate n then return (n, rest) else stop .loneSurrogate rest
  | '\\' :: _ :: rest => stop .noSecondSurrogate rest
  | [] | ['\\'] => stop .endInString []
  | _ :: rest => stop .noSecondSurrogate rest

def scanEscape : Scan Char
  | [] => stop .endInString []
  | 'u' :: rest => do
      let (n, rest) ← scanHex rest
      if isLowSurrogate n then stop .loneSurrogate rest
      else if isHighSurrogate n then do
        let (low, rest) ← scanLow rest
        return (joinSurrogates n low, rest)
      else return (Char.ofNat n, rest)
  | c :: rest =>
      match simpleEscape? c with
      | some e => .ok (e, rest)
      | none => stop .badEscape rest

theorem length_scanHex {cs rest : List Char} {n : Nat} (h : scanHex cs = .ok (n, rest)) :
    rest.length < cs.length := by
  unfold scanHex at h
  split at h
  · split at h
    · simp only [Except.ok.injEq, Prod.mk.injEq] at h
      simp [← h.2]
      omega
    · simp [stop] at h
  · simp [stop] at h

theorem length_scanLow {cs rest : List Char} {n : Nat} (h : scanLow cs = .ok (n, rest)) :
    rest.length < cs.length := by
  unfold scanLow at h
  split at h
  · next text =>
    cases found : scanHex text with
    | error e => simp [found, bind, Except.bind] at h
    | ok pair =>
        have shorter : pair.2.length < text.length := length_scanHex found
        simp only [found, bind, Except.bind] at h
        split at h
        · simp only [pure, Except.pure, Except.ok.injEq, Prod.mk.injEq] at h
          simp only [List.length_cons, ← h.2]
          omega
        · simp [stop] at h
  all_goals simp [stop] at h

theorem length_scanEscape {cs rest : List Char} {c : Char} (h : scanEscape cs = .ok (c, rest)) :
    rest.length < cs.length := by
  unfold scanEscape at h
  split at h
  · simp [stop] at h
  · next text =>
    cases found : scanHex text with
    | error e => simp [found, bind, Except.bind] at h
    | ok pair =>
        have shorter : pair.2.length < text.length := length_scanHex found
        simp only [found, bind, Except.bind] at h
        split at h
        · simp [stop] at h
        · split at h
          · cases low : scanLow pair.2 with
            | error e => simp [low] at h
            | ok second =>
                have below : second.2.length < pair.2.length := length_scanLow low
                simp only [low, pure, Except.pure, Except.ok.injEq, Prod.mk.injEq] at h
                simp only [List.length_cons, ← h.2]
                omega
          · simp only [pure, Except.pure, Except.ok.injEq, Prod.mk.injEq] at h
            simp only [List.length_cons, ← h.2]
            omega
  · split at h
    · simp only [Except.ok.injEq, Prod.mk.injEq] at h
      simp [← h.2]
    · simp [stop] at h

/-- The octets of a string up to its closing quote. Those read so far come last one first. -/
def scanOctets (read : Octets) : Scan Octets
  | [] => stop .endInString []
  | '"' :: rest => .ok (read.reverse, rest)
  | '\\' :: rest =>
      match _h : scanEscape rest with
      | .ok (c, rest) => scanOctets ((String.utf8EncodeChar c).reverse ++ read) rest
      | .error s => .error s
  | c :: rest =>
      if c.toNat < 0x20 then stop .controlCharacter rest
      else scanOctets (c.toNat.toUInt8 :: read) rest
termination_by cs => cs.length
decreasing_by
  · have := length_scanEscape _h
    simp only [List.length_cons]
    omega
  · simp

/-- The inside of a string, behind its opening quote. Octets that are no text are reported as many
octets before the closing quote as are left of them after their sound start, escapes undone. -/
def scanString : Scan String := fun cs => do
  let (bytes, rest) ← scanOctets [] cs
  match bytes.text? with
  | some s => return (s, rest)
  | none => .error ⟨.notUnicode, rest.length + (bytes.length - bytes.soundLength)⟩

def scanDigits : Scan (List Char) := fun cs =>
  let ds := cs.takeWhile Char.isDigit
  if ds.isEmpty then stopAt (if cs.isEmpty then .endInValue else .badNumber) cs
  else .ok (ds, cs.dropWhile Char.isDigit)

/-- The whole part of a number literal: one zero, or digits that do not start with one. -/
def scanWhole : Scan (List Char)
  | '0' :: rest =>
      if (rest.head?.map Char.isDigit).getD false then stopAt .badNumber rest else .ok (['0'], rest)
  | cs => scanDigits cs

def scanFraction : Scan (Option (List Char))
  | '.' :: rest => do
      let (ds, rest) ← scanDigits rest
      return (some ds, rest)
  | cs => .ok (none, cs)

def scanExponent : Scan (Option (Bool × List Char))
  | [] => .ok (none, [])
  | c :: rest =>
      if c == 'e' || c == 'E' then do
        let (down, rest) := Ascii.splitSign rest
        let (ds, rest) ← scanDigits rest
        return (some (down, ds), rest)
      else .ok (none, c :: rest)

def scanLiteral : Scan NumberLiteral := fun cs => do
  let (negative, cs) := match cs with
    | '-' :: rest => (true, rest)
    | _ => (false, cs)
  let (whole, cs) ← scanWhole cs
  let (fraction, cs) ← scanFraction cs
  let (exponent, cs) ← scanExponent cs
  return (⟨negative, whole, fraction, exponent⟩, cs)

/-- A number. An exponent that is too long is noticed before its last digits. -/
def scanNumber : Scan Number := fun cs => do
  let (literal, rest) ← scanLiteral cs
  match literal.value with
  | some n => return (n, rest)
  | none => stop .numberTooLarge (literal.unread ++ rest)

end Multicall.Json
