import Multicall.Batch.Envelope
import Multicall.Text.Blank
/-!
Header fields and what a request says through them. Names are compared without regard to ASCII
case and the first field of a name counts; a value with anything but visible ASCII, spaces and
tabs cannot be read and counts as absent.
-/
namespace Multicall.Http

structure Field where
  name : String
  value : Octets

abbrev Headers := List Field

def isReadable (b : UInt8) : Bool := b == 9 || (32 ≤ b.toNat && b.toNat < 127)

/-- The text of a value that can be read. -/
def readable? (value : Octets) : Option String :=
  if value.all isReadable then some (String.ofList (value.map fun b => Char.ofNat b.toNat)) else none

namespace Headers

/-- The first value of a name. -/
def first? (name : String) (headers : Headers) : Option Octets :=
  (headers.find? fun field => Ascii.lower field.name == name).map (·.value)

def text? (name : String) (headers : Headers) : Option String :=
  (headers.first? name).bind readable?

def contentType? (headers : Headers) : Option String := headers.text? "content-type"

/-- Whether the connection is secure: by assumption, or because the first proxy says so. -/
def isSecure (assumed : Bool) (headers : Headers) : Bool :=
  assumed || (headers.text? "x-forwarded-proto").any fun value =>
    Ascii.lower (Blank.trim (Ascii.before ',' value)) == "https"

def requestInfo (assumeSecure : Bool) (headers : Headers) : RequestInfo :=
  ⟨headers.contentType?, headers.isSecure assumeSecure⟩

end Headers

/-- A value as it arrives over a connection: spaces and tabs around it are not part of it. -/
def trimValue (value : Octets) : Octets :=
  let isPadding (b : UInt8) : Bool := b == 32 || b == 9
  ((value.dropWhile isPadding).reverse.dropWhile isPadding).reverse

end Multicall.Http
