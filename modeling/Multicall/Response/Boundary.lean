import Multicall.Text.Utf8
/-!
The token that separates the parts of a response. A random one is a fixed word and URL-safe
base64 of a seed; the length of the seed is a multiple of three, so no padding is needed and the
token stands in a header without quotes.
-/
namespace Multicall

structure Boundary where
  token : String
  deriving DecidableEq, Repr

namespace Boundary

/-- Octets behind a random token. -/
def seedLength : Nat := 9

def leadingWord : String := "BATCH-"

/-- The sixty-four letters of URL-safe base64. -/
def alphabet : List Char :=
  "ABCDEFGHIJKLMNOPQRSTUVWXYZabcdefghijklmnopqrstuvwxyz0123456789-_".toList

def letter (n : Nat) : Char := alphabet.getD n '='

/-- Three octets become four letters of six bits each; shorter ends are padded. -/
def base64 : Octets → List Char
  | a :: b :: c :: rest =>
      let n := a.toNat * 65536 + b.toNat * 256 + c.toNat
      letter (n / 262144) :: letter (n / 4096 % 64) :: letter (n / 64 % 64) :: letter (n % 64) ::
        base64 rest
  | [a, b] =>
      let n := a.toNat * 65536 + b.toNat * 256
      [letter (n / 262144), letter (n / 4096 % 64), letter (n / 64 % 64), '=']
  | [a] =>
      let n := a.toNat * 65536
      [letter (n / 262144), letter (n / 4096 % 64), '=', '=']
  | [] => []

def ofSeed (seed : Octets) : Boundary := ⟨leadingWord ++ String.ofList (base64 seed)⟩

def contentType (b : Boundary) : String := "multipart/mixed; boundary=" ++ b.token

def delimiter (b : Boundary) : String := "--" ++ b.token

def terminator (b : Boundary) : String := "--" ++ b.token ++ "--\r\n"

/-- The head of a part: the delimiter line, its media type and the blank line. -/
def preamble (b : Boundary) (mime : String) : String :=
  b.delimiter ++ "\r\nContent-Type: " ++ mime ++ "\r\n\r\n"

example : (ofSeed [0, 0, 0, 255, 255, 255, 1, 2, 3]).token = "BATCH-AAAA____AQID" := by decide +kernel

end Boundary

/-- Media types of parts. -/
def jsonMime : String := "application/json"

def textMime : String := "text/plain"

/-- The media types that modules can give to parts of their own. -/
inductive MediaType
  | text
  | json
  deriving DecidableEq, Repr

def MediaType.name : MediaType → String
  | text => textMime
  | json => jsonMime

instance : Coe MediaType String := ⟨MediaType.name⟩

end Multicall
