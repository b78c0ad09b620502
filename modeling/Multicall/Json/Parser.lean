import Multicall.Json.Scalar
/-!
Reading documents. A stack of open arrays and objects says what the text has to go on with, and
each step takes one mark or one scalar off the text. A name that an object repeats keeps its first
place and takes its last value. More than a fixed number of open brackets is refused. The first
fault ends the reading and is reported with its place.
-/
namespace Multicall.Json

def isBlank (c : Char) : Bool := c == ' ' || c == '\t' || c == '\n' || c == '\r'

def maxDepth : Nat := 127

/-- An open bracket: the items read so far, last one first, or the members read so far and the
name whose value is being read. -/
inductive Frame
  | items (read : List Json)
  | members (read : Members) (name : String)

inductive Expected
  | value
  | item
  | itemOrClose
  | name (read : Members)
  | nameOrClose
  | colon (read : Members) (name : String)
  | separator
  | nothing (document : Json)

structure Reader where
  frames : List Frame
  expected : Expected

namespace Reader

def start : Reader := ⟨[], .value⟩

def accept (value : Json) : List Frame → Reader
  | [] => ⟨[], .nothing value⟩
  | .items read :: outer => ⟨.items (value :: read) :: outer, .separator⟩
  | .members read name :: outer => ⟨.members (Assoc.set name value read) name :: outer, .separator⟩

def stepValue (frames : List Frame) (c : Char) (rest : List Char) :
    Except Stop (Reader × List Char) :=
  match c with
  | 'n' => do return (accept .null frames, ← scanWord ['u', 'l', 'l'] rest)
  | 't' => do return (accept (.bool true) frames, ← scanWord ['r', 'u', 'e'] rest)
  | 'f' => do return (accept (.bool false) frames, ← scanWord ['a', 'l', 's', 'e'] rest)
  | '"' => do
      let (s, rest) ← scanString rest
      return (accept (.string s) frames, rest)
  | '[' =>
      if frames.length < maxDepth then .ok (⟨.items [] :: frames, .itemOrClose⟩, rest)
      else stop .tooDeep rest
  | '\x7b' =>
      if frames.length < maxDepth then .ok (⟨frames, .nameOrClose⟩, rest) else stop .tooDeep rest
  | c =>
      if c == '-' || c.isDigit then do
        let (n, rest) ← scanNumber (c :: rest)
        return (accept (.number n) frames, rest)
      else stop .noValue rest

def stepName (frames : List Frame) (read : Members) (c : Char) (rest : List Char) :
    Except Stop (Reader × List Char) :=
  if c = '"' then do
    let (name, rest) ← scanString rest
    return (⟨frames, .colon read name⟩, rest)
  else stop .nameNoString rest

def stepSeparator (frames : List Frame) (c : Char) (rest : List Char) :
    Except Stop (Reader × List Char) :=
  match frames, c with
  | .items _ :: _, ',' => .ok (⟨frames, .item⟩, rest)
  | .items read :: outer, ']' => .ok (accept (.array read.reverse) outer, rest)
  | .members read _ :: outer, ',' => .ok (⟨outer, .name read⟩, rest)
  | .members read _ :: outer, '\x7d' => .ok (accept (.object read) outer, rest)
  | .members _ _ :: _, _ => stop .noObjectSeparator rest
  | _, _ => stop .noListSeparator rest

def step (r : Reader) (c : Char) (rest : List Char) : Except Stop (Reader × List Char) :=
  match r.expected, c, r.frames with
  | .itemOrClose, ']', .items _ :: outer => .ok (accept (.array []) outer, rest)
  | .item, ']', _ => stop .trailingComma rest
  | .nameOrClose, '\x7d', frames => .ok (accept (.object []) frames, rest)
  | .name _, '\x7d', _ => stop .trailingComma rest
  | .colon read name, ':', frames => .ok (⟨.members read name :: frames, .value⟩, rest)
  | .value, c, frames | .item, c, frames | .itemOrClose, c, frames => stepValue frames c rest
  | .nameOrClose, c, frames => stepName frames [] c rest
  | .name read, c, frames => stepName frames read c rest
  | .colon _ _, _, _ => stop .noColon rest
  | .separator, c, frames => stepSeparator frames c rest
  | .nothing _, _, _ => stop .trailingText rest

def finish (r : Reader) : Except Stop Json :=
  match r.expected, r.frames with
  | .nothing document, _ => .ok document
  | .value, _ | .item, _ | .name _, _ => stop .endInValue []
  | .nameOrClose, _ | .colon _ _, _ | .separator, .members _ _ :: _ => stop .endInObject []
  | .itemOrClose, _ | .separator, _ => stop .endInList []

/-- Reads on to the end of the text. Each step takes at least one octet, so as many steps as there
are octets suffice. -/
def run : (steps : Nat) → Reader → List Char → Except Stop Json
  | 0, r, _ => r.finish
  | _, r, [] => r.finish
  | steps + 1, r, c :: rest =>
      if isBlank c then run steps r rest
      else do
        let (r, rest) ← r.step c rest
        run steps r rest

end Reader

/-- The document that the octets spell, or the first fault in them. -/
def read (bytes : Octets) : Except Fault Json :=
  let text := units bytes
  (Reader.run text.length .start text).mapError (.ofStop text)

def parse? (s : String) : Option Json := (read (Octets.ofText s)).toOption

end Multicall.Json
