import BitRelay.Js.Json

/-!
# The host

The functions of the runtime that the relay calls and whose bodies are not in
the repository. A result about the relay is about every `Platform`; where a
result needs more of one, it says so.
-/

namespace BitRelay

structure Platform where
  /-- `sha256Hex(text)` -/
  sha256Hex : String → String
  /-- `verifyEd25519Signature(publicKey, message, signature)` -/
  verifyEd25519Signature : String → String → String → Bool
  /-- `hmacSha256Hex(secret, message)` -/
  hmacSha256Hex : String → String → String
  /-- `JSON.stringify(n)` of a finite number -/
  renderNumber : JsNumber → String
  /-- `Number(s)`; `none` is `NaN` -/
  toNumber : String → Option JsNumber
  /-- `s.toLowerCase()` -/
  toLowerCase : String → String
  /-- `Date.parse(s)`, truncated; `none` is `NaN` -/
  dateParse : String → Option Int
  /-- The text of `JSON.stringify(v)` -/
  stringifyText : JsonValue → String

/-- `JSON.stringify(v)` as a body. -/
def Platform.stringify (P : Platform) (v : JsonValue) : Body :=
  ⟨P.stringifyText v, some v.normalize⟩

/-- A host for runs on fixed inputs: hashes are the text itself, and a signature is valid when it
spells the key. -/
def Platform.toy : Platform where
  sha256Hex text := text
  verifyEd25519Signature publicKey _ signature := decide (signature = publicKey)
  hmacSha256Hex secret message := secret ++ message
  renderNumber
    | .finite q => if q.den = 1 then toString q.num else "?"
    | _ => "0"
  toNumber s := (parseInt10 s).elim (if trim s = "" then some (.ofNat 0) else none)
    fun n => some (.ofInt n)
  toLowerCase s := String.ofList (s.toList.map Char.toLower)
  dateParse _ := none
  stringifyText _ := ""

end BitRelay
