import BitRelay.Js.Base64
import BitRelay.Js.Json
import BitRelay.Lib.OrdMap

/-!
# Web interfaces of the host

The parts of `btoa`, `TextDecoder`, `URLSearchParams`, `Headers` and `Response`
that the git relay calls. Where a constructor or a setter throws, the definition
here has no value.
-/

namespace BitRelay

/-! ## `btoa` -/

def base64Char (n : Nat) : Char :=
  if n < 26 then Char.ofNat ('A'.toNat + n)
  else if n < 52 then Char.ofNat ('a'.toNat + (n - 26))
  else if n < 62 then Char.ofNat ('0'.toNat + (n - 52))
  else if n = 62 then '+' else '/'

def btoaChars : Bytes → List Char
  | a :: b :: c :: rest =>
    base64Char (a.toNat / 4) :: base64Char (a.toNat % 4 * 16 + b.toNat / 16) ::
      base64Char (b.toNat % 16 * 4 + c.toNat / 64) :: base64Char (c.toNat % 64) :: btoaChars rest
  | [a, b] => [base64Char (a.toNat / 4), base64Char (a.toNat % 4 * 16 + b.toNat / 16),
      base64Char (b.toNat % 16 * 4), '=']
  | [a] => [base64Char (a.toNat / 4), base64Char (a.toNat % 4 * 16), '=', '=']
  | [] => []

/-- `toBase64`: `btoa` of the bytes. -/
def toBase64 (data : Bytes) : String := String.ofList (btoaChars data)

example : atob (toBase64 [104, 105, 0, 255]) = some [104, 105, 0, 255] := by decide

/-! ## `TextDecoder` -/

/-- The state of the UTF-8 decoder: how many bytes of a character are missing, its bits so far,
and the bounds of the next byte. -/
inductive Utf8State
  | idle
  | need (missing codePoint lower upper : Nat)

/-- A byte that starts a character; one that cannot is replaced. -/
def utf8Start (b : Nat) : List Char × Utf8State :=
  if b ≤ 0x7f then ([Char.ofNat b], .idle)
  else if 0xc2 ≤ b ∧ b ≤ 0xdf then ([], .need 1 (b - 0xc0) 0x80 0xbf)
  else if 0xe0 ≤ b ∧ b ≤ 0xef then
    ([], .need 2 (b - 0xe0) (if b = 0xe0 then 0xa0 else 0x80) (if b = 0xed then 0x9f else 0xbf))
  else if 0xf0 ≤ b ∧ b ≤ 0xf4 then
    ([], .need 3 (b - 0xf0) (if b = 0xf0 then 0x90 else 0x80) (if b = 0xf4 then 0x8f else 0xbf))
  else ([Char.ofNat 0xfffd], .idle)

/-- A byte that does not continue the character replaces it and is read again as a first one. -/
def utf8Step (state : Utf8State) (b : Nat) : List Char × Utf8State :=
  match state with
  | .idle => utf8Start b
  | .need missing codePoint lower upper =>
    if lower ≤ b ∧ b ≤ upper then
      let codePoint := codePoint * 64 + (b - 0x80)
      if missing ≤ 1 then ([Char.ofNat codePoint], .idle)
      else ([], .need (missing - 1) codePoint 0x80 0xbf)
    else
      let (chars, state) := utf8Start b
      (Char.ofNat 0xfffd :: chars, state)

def utf8Chars (state : Utf8State) : Bytes → List Char
  | [] =>
    match state with
    | .idle => []
    | .need .. => [Char.ofNat 0xfffd]
  | b :: rest =>
    let (chars, state) := utf8Step state b.toNat
    chars ++ utf8Chars state rest

def dropBom : Bytes → Bytes
  | 0xef :: 0xbb :: 0xbf :: rest => rest
  | bytes => bytes

/-- `new TextDecoder().decode(bytes)` -/
def textDecode (bytes : Bytes) : String := String.ofList (utf8Chars .idle (dropBom bytes))

example : textDecode [0xef, 0xbb, 0xbf, 0xc3, 0xa9, 0x80, 0x41] = "é\ufffdA" := by decide

/-! ## `URLSearchParams` -/

def percentDigit (n : Nat) : Char :=
  if n < 10 then Char.ofNat ('0'.toNat + n) else Char.ofNat ('A'.toNat + (n - 10))

def percentValue (c : Char) : Option Nat :=
  if c.isDigit then some (c.toNat - '0'.toNat)
  else if 'a' ≤ c ∧ c ≤ 'f' then some (c.toNat - 'a'.toNat + 10)
  else if 'A' ≤ c ∧ c ≤ 'F' then some (c.toNat - 'A'.toNat + 10)
  else none

/-- One byte of a form-urlencoded text. -/
def formByte (b : UInt8) : List Char :=
  let c := Char.ofNat b.toNat
  if b = 0x20 then ['+']
  else if b.toNat < 0x80 ∧ (c.isAlphanum ∨ c ∈ ['*', '-', '.', '_']) then [c]
  else ['%', percentDigit (b.toNat / 16), percentDigit (b.toNat % 16)]

def formEncode (s : String) : String :=
  String.ofList ((s.toList.flatMap String.utf8EncodeChar).flatMap formByte)

/-- The bytes of a form-urlencoded text; a `%` without two hex digits stands for itself. -/
def formBytes : List Char → Bytes
  | '+' :: rest => 0x20 :: formBytes rest
  | '%' :: h :: l :: rest =>
    match percentValue h, percentValue l with
    | some high, some low => UInt8.ofNat (high * 16 + low) :: formBytes rest
    | _, _ => 0x25 :: formBytes (h :: l :: rest)
  | c :: rest => String.utf8EncodeChar c ++ formBytes rest
  | [] => []

def formDecode (s : String) : String := String.ofList (utf8Chars .idle (formBytes s.toList))

/-- `url.search` of the parameters -/
def searchOf (query : List (String × String)) : String :=
  if query = [] then ""
  else "?" ++ "&".intercalate (query.map fun p => formEncode p.1 ++ "=" ++ formEncode p.2)

/-- One piece of a search text: the name up to the first `=`, and the value. -/
def parsePair (piece : String) : String × String :=
  (formDecode (splitFirst piece '='),
    formDecode (sliceFrom piece ((splitFirst piece '=').toList.length + 1)))

/-- `new URLSearchParams(search)` -/
def parseSearch (search : String) : List (String × String) :=
  ((search.splitOn "&").filter fun piece => piece ≠ "").map parsePair

/-! ## `Headers` -/

/-- The characters of a header name. -/
def isTokenChar (c : Char) : Bool :=
  c.isAlphanum || c ∈ "!#$%&'*+-.^_`|~".toList

def isHeaderName (name : String) : Bool := name != "" && name.toList.all isTokenChar

def isHttpSpace (c : Char) : Bool := c == '\t' || c == '\n' || c == '\r' || c == ' '

/-- A header value is stored without the whitespace at its ends. -/
def normalizeHeaderValue (value : String) : String :=
  String.ofList ((value.toList.dropWhile isHttpSpace).reverse.dropWhile isHttpSpace).reverse

/-- A value is a byte string without NUL and without a line break inside. -/
def isHeaderValue (value : String) : Bool :=
  (normalizeHeaderValue value).toList.all (fun c => c != '\x00' && c != '\n' && c != '\r') &&
    value.toList.all fun c => decide (c.toNat ≤ 0xff)

abbrev Headers := OrdMap String String

def lowerName (name : String) : String := String.ofList (name.toList.map Char.toLower)

/-- `headers.set(name, value)`; `none` is the `TypeError`. -/
def Headers.put (headers : Headers) (name value : String) : Option Headers :=
  if isHeaderName name ∧ isHeaderValue value then
    some (OrdMap.set headers (lowerName name) (normalizeHeaderValue value))
  else none

/-! ## `Response` -/

/-- The conversion to `unsigned short`: truncated, then modulo 2^16. -/
def toUint16 (n : JsNumber) : Nat :=
  match n.truncInt? with
  | some value => (value % 65536).toNat
  | none => 0

def isNullBodyStatus (status : Nat) : Bool := status ∈ [101, 103, 204, 205, 304]

/-- A response that is no JSON of the relay. -/
structure RawResponse where
  status : Nat
  headers : Headers
  body : Option Bytes
  deriving DecidableEq

/-- The constructor takes this status, with or without a body. -/
def acceptsStatus (status : JsNumber) (hasBody : Bool) : Bool :=
  decide (200 ≤ toUint16 status ∧ toUint16 status ≤ 599) &&
    !(hasBody && isNullBodyStatus (toUint16 status))

/-- `new Response(body, { status, headers })`; `none` is the exception. -/
def RawResponse.new (body : Option Bytes) (status : JsNumber) (headers : Headers) :
    Option RawResponse :=
  if acceptsStatus status body.isSome then some ⟨toUint16 status, headers, body⟩ else none

end BitRelay
