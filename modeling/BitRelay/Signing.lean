import BitRelay.Platform

/-!
# Signing messages

The texts that a client signs, and the canonical JSON whose hash goes into
them (`signing.ts`).
-/

namespace BitRelay

/-! ## Canonical JSON -/

def hexDigit (n : Nat) : Char := if n < 10 then Char.ofNat (48 + n) else Char.ofNat (87 + n)

/-- The escape of a character in `JSON.stringify`. -/
def quoteChar (c : Char) : List Char :=
  if c = '"' then ['\\', '"']
  else if c = '\\' then ['\\', '\\']
  else if c = '\x08' then ['\\', 'b']
  else if c = '\x0c' then ['\\', 'f']
  else if c = '\n' then ['\\', 'n']
  else if c = '\r' then ['\\', 'r']
  else if c = '\t' then ['\\', 't']
  else if c.toNat < 0x20 then
    ['\\', 'u', '0', '0', hexDigit (c.toNat / 16), hexDigit (c.toNat % 16)]
  else [c]

/-- `JSON.stringify(s)` -/
def quoteJson (s : String) : String := "\"" ++ String.ofList (s.toList.flatMap quoteChar) ++ "\""

mutual
/-- `canonicalizeJson`: object keys sorted, no whitespace, non-finite numbers as `null`. -/
def canonicalizeJson (P : Platform) : JsonValue → String
  | .null => "null"
  | .str s => quoteJson s
  | .num .posInf => "null"
  | .num .negInf => "null"
  | .num n => P.renderNumber n
  | .bool b => if b then "true" else "false"
  | .arr items => "[" ++ ",".intercalate (canonicalizeItems P items) ++ "]"
  | .obj fields =>
    let sorted := (canonicalizeFields P fields).insertionSort fun a b => codeUnitLe a.1 b.1
    "\x7b" ++ ",".intercalate (sorted.map fun p => quoteJson p.1 ++ ":" ++ p.2) ++ "\x7d"

def canonicalizeItems (P : Platform) : List JsonValue → List String
  | [] => []
  | v :: vs => canonicalizeJson P v :: canonicalizeItems P vs

def canonicalizeFields (P : Platform) : List (String × JsonValue) → List (String × String)
  | [] => []
  | (k, v) :: rest => (k, canonicalizeJson P v) :: canonicalizeFields P rest
end

/-! ## The signed texts -/

structure PublishSigningInput where
  sender : String
  room : String
  id : String
  topic : String
  ts : Int
  nonce : String
  payloadHash : String
  deriving DecidableEq

structure RotateSigningInput where
  sender : String
  newPublicKey : String
  ts : Int
  nonce : String
  deriving DecidableEq

structure ReviewSigningInput where
  sender : String
  room : String
  prId : String
  verdict : String
  ts : Int
  nonce : String
  deriving DecidableEq

def buildPublishSigningMessage (input : PublishSigningInput) : String :=
  "\n".intercalate [
    "v1",
    "sender=" ++ input.sender,
    "room=" ++ input.room,
    "id=" ++ input.id,
    "topic=" ++ input.topic,
    "ts=" ++ toString input.ts,
    "nonce=" ++ input.nonce,
    "payload_sha256=" ++ input.payloadHash]

def buildReviewSigningMessage (input : ReviewSigningInput) : String :=
  "\n".intercalate [
    "v1",
    "op=review",
    "sender=" ++ input.sender,
    "room=" ++ input.room,
    "pr_id=" ++ input.prId,
    "verdict=" ++ input.verdict,
    "ts=" ++ toString input.ts,
    "nonce=" ++ input.nonce]

def buildRotateSigningMessage (input : RotateSigningInput) : String :=
  "\n".intercalate [
    "v1",
    "op=rotate",
    "sender=" ++ input.sender,
    "new_public_key=" ++ input.newPublicKey,
    "ts=" ++ toString input.ts,
    "nonce=" ++ input.nonce]

/-- `/^[A-Za-z0-9_-]+$/` -/
def isLikelyBase64Url (value : String) : Bool :=
  !value.toList.isEmpty && value.toList.all isBase64UrlChar

end BitRelay
