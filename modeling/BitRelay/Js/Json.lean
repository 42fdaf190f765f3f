import BitRelay.Js.Text
import Mathlib.Data.List.Sort
import Mathlib.Data.Rat.Defs

/-!
# JSON values

`JsonValue` is what `JSON.parse` can return. An object is the list of its own
properties in enumeration order; a number is a double, so `JSON.parse` can also
give an infinity (`1e999`) or a negative zero, but never `NaN`.

`Body` is the text of a request body together with what `JSON.parse` makes of
it. `JSON.stringify` turns the numbers that JSON cannot spell into `null` and
drops the sign of a zero (`JsonValue.normalize`).
-/

namespace BitRelay

/-! ## Numbers -/

inductive JsNumber
  | finite (q : Rat)
  | negZero
  | posInf
  | negInf
  deriving DecidableEq

namespace JsNumber

def ofInt (n : Int) : JsNumber := .finite ⟨n, 1, by decide, by simp [Nat.Coprime]⟩

def ofNat (n : Nat) : JsNumber := ofInt n

/-- `Number.isFinite(n) ? Math.trunc(n) : none`; the sign of a zero is dropped. -/
def truncInt? : JsNumber → Option Int
  | finite q => some (q.num.tdiv q.den)
  | negZero => some 0
  | posInf => none
  | negInf => none

/-- `Math.trunc(n)` as a number. -/
def trunc : JsNumber → JsNumber
  | finite q => if q.num < 0 ∧ q.num.tdiv q.den = 0 then negZero else ofInt (q.num.tdiv q.den)
  | n => n

@[simp] theorem truncInt?_ofInt (n : Int) : (ofInt n).truncInt? = some n := by
  simp [ofInt, truncInt?]

end JsNumber

/-! ## Values -/

inductive JsonValue
  | null
  | bool (b : Bool)
  | num (n : JsNumber)
  | str (s : String)
  | arr (items : List JsonValue)
  | obj (fields : List (String × JsonValue))
  deriving Inhabited

namespace JsonValue

mutual
def decEq : (a b : JsonValue) → Decidable (a = b)
  | null, b => match b with
    | null => isTrue rfl
    | bool _ | num _ | str _ | arr _ | obj _ => isFalse nofun
  | bool x, b => match b with
    | bool y => if h : x = y then isTrue (h ▸ rfl) else isFalse fun e => h (bool.inj e)
    | null | num _ | str _ | arr _ | obj _ => isFalse nofun
  | num x, b => match b with
    | num y => if h : x = y then isTrue (h ▸ rfl) else isFalse fun e => h (num.inj e)
    | null | bool _ | str _ | arr _ | obj _ => isFalse nofun
  | str x, b => match b with
    | str y => if h : x = y then isTrue (h ▸ rfl) else isFalse fun e => h (str.inj e)
    | null | bool _ | num _ | arr _ | obj _ => isFalse nofun
  | arr x, b => match b with
    | arr y => match decEqItems x y with
      | isTrue h => isTrue (h ▸ rfl)
      | isFalse h => isFalse fun e => h (arr.inj e)
    | null | bool _ | num _ | str _ | obj _ => isFalse nofun
  | obj x, b => match b with
    | obj y => match decEqFields x y with
      | isTrue h => isTrue (h ▸ rfl)
      | isFalse h => isFalse fun e => h (obj.inj e)
    | null | bool _ | num _ | str _ | arr _ => isFalse nofun

def decEqItems : (a b : List JsonValue) → Decidable (a = b)
  | [], [] => isTrue rfl
  | [], _ :: _ => isFalse nofun
  | _ :: _, [] => isFalse nofun
  | x :: xs, y :: ys => match decEq x y with
    | isFalse h => isFalse fun e => h (List.cons.inj e).1
    | isTrue h => match decEqItems xs ys with
      | isTrue h' => isTrue (by rw [h, h'])
      | isFalse h' => isFalse fun e => h' (List.cons.inj e).2

def decEqFields : (a b : List (String × JsonValue)) → Decidable (a = b)
  | [], [] => isTrue rfl
  | [], _ :: _ => isFalse nofun
  | _ :: _, [] => isFalse nofun
  | (k, x) :: xs, (k', y) :: ys =>
    if hk : k = k' then match decEq x y with
      | isFalse h => isFalse fun e => h (Prod.mk.inj (List.cons.inj e).1).2
      | isTrue h => match decEqFields xs ys with
        | isTrue h' => isTrue (by rw [hk, h, h'])
        | isFalse h' => isFalse fun e => h' (List.cons.inj e).2
    else isFalse fun e => hk (Prod.mk.inj (List.cons.inj e).1).1
end

instance : DecidableEq JsonValue := decEq

/-- A natural number as a JSON value. -/
def ofNat (n : Nat) : JsonValue := .num (.ofNat n)

def ofInt (n : Int) : JsonValue := .num (.ofInt n)

/-- `string | null` -/
def ofString? : Option String → JsonValue
  | some s => .str s
  | none => .null

/-- `number | null` -/
def ofInt? : Option Int → JsonValue
  | some n => ofInt n
  | none => .null

/-- `isObjectRecord`: the properties of a plain object. -/
def fields? : JsonValue → Option (List (String × JsonValue))
  | obj fields => some fields
  | _ => none

/-- The own property `key` of a value; `none` is `undefined`. -/
def get? (v : JsonValue) (key : String) : Option JsonValue :=
  match v with
  | obj fields => fields.lookup key
  | _ => none

/-- `typeof v[key] === 'string' ? v[key] : ''` -/
def strField (v : JsonValue) (key : String) : String :=
  match v.get? key with
  | some (.str s) => s
  | _ => ""

/-- `Array.isArray(v[key]) ? v[key] : none` -/
def arrField? (v : JsonValue) (key : String) : Option (List JsonValue) :=
  match v.get? key with
  | some (.arr items) => some items
  | _ => none

/-- `isObjectRecord(v[key]) ? v[key] : none` -/
def objField? (v : JsonValue) (key : String) : Option JsonValue :=
  match v.get? key with
  | some (.obj fields) => some (.obj fields)
  | _ => none

/-- `typeof v[key] === 'number' ? v[key] : none` -/
def numField? (v : JsonValue) (key : String) : Option JsNumber :=
  match v.get? key with
  | some (.num n) => some n
  | _ => none

/-- Whether a JSON value counts as true. -/
def truthy : JsonValue → Bool
  | null => false
  | bool b => b
  | num n => decide (n ≠ .ofInt 0 ∧ n ≠ .negZero)
  | str s => decide (s ≠ "")
  | arr _ => true
  | obj _ => true

/-- `typeof v[key] === 'number' ? Math.trunc(v[key]) : none`. An infinity counts as no number. -/
def truncField? (v : JsonValue) (key : String) : Option Int :=
  (v.numField? key).bind JsNumber.truncInt?

/-! ## `JSON.stringify` then `JSON.parse` -/

mutual
/-- What a value reads back as after `JSON.stringify`: an infinity is written as `null` and a
negative zero as `0`. -/
def normalize : JsonValue → JsonValue
  | num .posInf => null
  | num .negInf => null
  | num .negZero => ofInt 0
  | num (.finite q) => num (.finite q)
  | arr items => arr (normalizeItems items)
  | obj fields => obj (normalizeFields fields)
  | null => null
  | bool b => bool b
  | str s => str s

def normalizeItems : List JsonValue → List JsonValue
  | [] => []
  | v :: vs => normalize v :: normalizeItems vs

def normalizeFields : List (String × JsonValue) → List (String × JsonValue)
  | [] => []
  | (k, v) :: rest => (k, normalize v) :: normalizeFields rest
end

theorem normalizeItems_eq_map (items : List JsonValue) :
    normalizeItems items = items.map normalize := by
  induction items with
  | nil => rfl
  | cons v vs ih => rw [normalizeItems, ih, List.map_cons]

mutual
/-- A value that was read back is written and read without a change. -/
theorem normalize_normalize : (v : JsonValue) → v.normalize.normalize = v.normalize
  | num .posInf => rfl
  | num .negInf => rfl
  | num .negZero => rfl
  | num (.finite _) => rfl
  | arr items => congrArg arr (normalizeItems_normalizeItems items)
  | obj fields => congrArg obj (normalizeFields_normalizeFields fields)
  | null => rfl
  | bool _ => rfl
  | str _ => rfl

theorem normalizeItems_normalizeItems : (items : List JsonValue) →
    normalizeItems (normalizeItems items) = normalizeItems items
  | [] => rfl
  | v :: vs => congrArg₂ List.cons (normalize_normalize v) (normalizeItems_normalizeItems vs)

theorem normalizeFields_normalizeFields : (fields : List (String × JsonValue)) →
    normalizeFields (normalizeFields fields) = normalizeFields fields
  | [] => rfl
  | (k, v) :: rest => congrArg₂ (fun x y => (k, x) :: y) (normalize_normalize v)
      (normalizeFields_normalizeFields rest)
end

theorem lookup_normalizeFields (fields : List (String × JsonValue)) (key : String) :
    (normalizeFields fields).lookup key = (fields.lookup key).map normalize := by
  induction fields with
  | nil => rfl
  | cons e rest ih =>
    obtain ⟨k, v⟩ := e
    rw [normalizeFields, List.lookup_cons, List.lookup_cons, ih]
    cases key == k <;> rfl

theorem get?_normalize (v : JsonValue) (key : String) :
    v.normalize.get? key = (v.get? key).map normalize := by
  cases v with
  | obj fields =>
    simp only [normalize, get?]
    exact lookup_normalizeFields fields key
  | num n => cases n <;> rfl
  | null | bool _ | str _ | arr _ => simp [normalize, get?]

theorem strField_normalize (v : JsonValue) (key : String) :
    v.normalize.strField key = v.strField key := by
  unfold strField
  rw [get?_normalize]
  cases v.get? key with
  | none => rfl
  | some x =>
    cases x with
    | num n => cases n <;> rfl
    | null | bool _ | str _ | arr _ | obj _ => rfl

end JsonValue

/-! ## Bodies -/

/-- The text of a body and the value `JSON.parse` reads from it (`none`: it throws). -/
structure Body where
  text : String
  json : Option JsonValue
  deriving DecidableEq, Inhabited

/-- The byte length of a text in UTF-8 (`new TextEncoder().encode(text).byteLength`). -/
def jsonByteLength (text : String) : Nat := text.utf8ByteSize

end BitRelay
