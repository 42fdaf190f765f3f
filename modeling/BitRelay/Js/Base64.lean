import BitRelay.Js.Text

/-!
# Base64 of the host

`atob` is the forgiving base64 decoder of the web platform: it skips ASCII
whitespace and optional padding, and fails on any other character outside the
alphabet and on a length that no byte string has. Failure is the exception the
source runs into, so it is `none` here.
-/

namespace BitRelay

abbrev Bytes := List UInt8

/-- The six bits of a base64 digit. -/
def base64Digit (c : Char) : Option Nat :=
  let n := c.toNat
  if c.isUpper then some (n - 'A'.toNat)
  else if c.isLower then some (n - 'a'.toNat + 26)
  else if c.isDigit then some (n - '0'.toNat + 52)
  else if c = '+' then some 62
  else if c = '/' then some 63
  else none

def isAsciiSpace (c : Char) : Bool :=
  c == '\t' || c == '\n' || c == '\x0c' || c == '\r' || c == ' '

/-- Remove one or two trailing `=` from a text whose length is a multiple of four. -/
def stripPadding (l : List Char) : List Char :=
  if l.length % 4 = 0 then
    match l.reverse with
    | '=' :: '=' :: rest => rest.reverse
    | '=' :: rest => rest.reverse
    | _ => l
  else l

/-- The bytes of a list of digits: four digits make three bytes, and the spare bits of a last
group of two or three digits are dropped. -/
def digitsToBytes : List Nat → Bytes
  | a :: b :: c :: d :: rest =>
    UInt8.ofNat (a * 4 + b / 16) :: UInt8.ofNat (b % 16 * 16 + c / 4) ::
      UInt8.ofNat (c % 4 * 64 + d) :: digitsToBytes rest
  | [a, b, c] => [UInt8.ofNat (a * 4 + b / 16), UInt8.ofNat (b % 16 * 16 + c / 4)]
  | [a, b] => [UInt8.ofNat (a * 4 + b / 16)]
  | _ => []

/-- `atob(s)` as bytes; `none` is the `InvalidCharacterError`. -/
def atob (s : String) : Option Bytes :=
  let l := stripPadding (s.toList.filter fun c => !isAsciiSpace c)
  if l.length % 4 = 1 then none
  else (l.mapM base64Digit).map digitsToBytes

/-- `base64UrlDecode`: the URL alphabet is mapped to the plain one, then padded. -/
def base64UrlDecode (value : String) : Option Bytes :=
  let normalized := replaceChar (replaceChar value '-' '+') '_' '/'
  let padLength := (4 - jsLength normalized % 4) % 4
  atob (normalized ++ String.ofList (List.replicate padLength '='))

example : atob "aGk=" = some [104, 105] := by decide

end BitRelay
