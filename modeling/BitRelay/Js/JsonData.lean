import BitRelay.Js.CodeUnits
import BitRelay.Js.Json
import Mathlib.Data.List.Sort

/-!
# JSON data

What JSON can say of a value: a number is finite, and an object is a map, whose keys have no order.
`SameData` compares two values as data. `JsonData` has one element for each data, with the keys of
every object in the order of their code units.

Results:
1. `data_eq_iff`: values are the same data if and only if they have the same element.
-/

namespace BitRelay

namespace JsonValue

/-! ## Values that are the same data -/

mutual
/-- The values are equal, up to the order of object keys at every depth. -/
def SameData : JsonValue → JsonValue → Prop
  | null, null => True
  | bool b, bool c => b = c
  | num m, num n => m = n
  | str s, str t => s = t
  | arr items, arr items' => SameItems items items'
  | obj fields, obj fields' => fields.length = fields'.length ∧ SameFields fields fields'
  | _, _ => False

def SameItems : List JsonValue → List JsonValue → Prop
  | [], [] => True
  | v :: vs, w :: ws => SameData v w ∧ SameItems vs ws
  | _, _ => False

/-- Each field is one of `fields'`. -/
def SameFields : List (String × JsonValue) → List (String × JsonValue) → Prop
  | [], _ => True
  | (k, v) :: rest, fields' => (∃ w, (k, w) ∈ fields' ∧ SameData v w) ∧ SameFields rest fields'
end

mutual
/-- No object has a key twice, as in all that `JSON.parse` returns. -/
def DistinctKeys : JsonValue → Prop
  | arr items => DistinctKeysItems items
  | obj fields => (fields.map Prod.fst).Nodup ∧ DistinctKeysFields fields
  | _ => True

def DistinctKeysItems : List JsonValue → Prop
  | [] => True
  | v :: vs => DistinctKeys v ∧ DistinctKeysItems vs

def DistinctKeysFields : List (String × JsonValue) → Prop
  | [] => True
  | (_, v) :: rest => DistinctKeys v ∧ DistinctKeysFields rest
end

end JsonValue

/-! ## Data -/

inductive JsonData
  | null
  | bool (b : Bool)
  | num (q : Rat)
  | str (s : String)
  | arr (items : List JsonData)
  | obj (fields : List (String × JsonData))

namespace JsonData

/-- Induction over data, with a hypothesis for every item and every field. -/
@[elab_as_elim]
theorem memInduction {Q : JsonData → Prop} (null : Q null) (bool : ∀ b, Q (bool b))
    (num : ∀ q, Q (num q)) (str : ∀ s, Q (str s))
    (arr : ∀ items, (∀ d ∈ items, Q d) → Q (arr items))
    (obj : ∀ fields, (∀ e ∈ fields, Q e.2) → Q (obj fields)) (d : JsonData) : Q d := by
  refine @JsonData.rec Q (fun items => ∀ d ∈ items, Q d) (fun fields => ∀ e ∈ fields, Q e.2)
    (fun e => Q e.2) null bool num str arr obj ?_ ?_ ?_ ?_ (fun _ _ h => h) d
  · intro d hd
    cases hd
  · intro v vs hv hvs d hd
    rcases List.mem_cons.mp hd with rfl | hrest
    · exact hv
    · exact hvs d hrest
  · intro e he
    cases he
  · intro e rest he hrest e' he'
    rcases List.mem_cons.mp he' with rfl | hmem
    · exact he
    · exact hrest e' hmem

end JsonData

/-- The order of the fields of an object. -/
def fieldLe {α : Type} (a b : String × α) : Bool := codeUnitLe a.1 b.1

namespace JsonValue

mutual
/-- What JSON can say of a value. -/
def data : JsonValue → JsonData
  | null => .null
  | bool b => .bool b
  | num (.finite q) => .num q
  | num .negZero => .num 0
  | num .posInf => .null
  | num .negInf => .null
  | str s => .str s
  | arr items => .arr (dataItems items)
  | obj fields => .obj ((dataFields fields).insertionSort fun a b => fieldLe a b)

def dataItems : List JsonValue → List JsonData
  | [] => []
  | v :: vs => data v :: dataItems vs

def dataFields : List (String × JsonValue) → List (String × JsonData)
  | [] => []
  | (k, v) :: rest => (k, data v) :: dataFields rest
end

namespace DataLemmas

instance fieldLe_total {α : Type} : Std.Total fun a b : String × α => fieldLe a b = true where
  total a b := codeUnitLe_total a.1 b.1

instance fieldLe_trans {α : Type} : IsTrans (String × α) fun a b => fieldLe a b = true where
  trans _ _ _ := codeUnitLe_trans

theorem dataFields_eq_map (fields : List (String × JsonValue)) :
    dataFields fields = fields.map fun e => (e.1, data e.2) := by
  induction fields with
  | nil => rfl
  | cons e rest ih => rw [dataFields, ih, List.map_cons]

theorem normalizeFields_eq_map (fields : List (String × JsonValue)) :
    normalizeFields fields = fields.map fun e => (e.1, normalize e.2) := by
  induction fields with
  | nil => rfl
  | cons e rest ih => rw [normalizeFields, ih, List.map_cons]

mutual
theorem data_normalize : (v : JsonValue) → v.normalize.data = v.data
  | null => rfl
  | bool _ => rfl
  | num .posInf => rfl
  | num .negInf => rfl
  | num .negZero => rfl
  | num (.finite _) => rfl
  | str _ => rfl
  | arr items => congrArg JsonData.arr (dataItems_normalizeItems items)
  | obj fields => by
    rw [normalize, data, dataFields_normalizeFields fields, data]

theorem dataItems_normalizeItems : (items : List JsonValue) →
    dataItems (normalizeItems items) = dataItems items
  | [] => rfl
  | v :: vs => congrArg₂ List.cons (data_normalize v) (dataItems_normalizeItems vs)

theorem dataFields_normalizeFields : (fields : List (String × JsonValue)) →
    dataFields (normalizeFields fields) = dataFields fields
  | [] => rfl
  | (k, v) :: rest => congrArg₂ (fun x y => (k, x) :: y) (data_normalize v)
      (dataFields_normalizeFields rest)
end

mutual
theorem distinctKeys_normalize : (v : JsonValue) → v.DistinctKeys → v.normalize.DistinctKeys
  | null, _ => trivial
  | bool _, _ => trivial
  | num .posInf, _ => trivial
  | num .negInf, _ => trivial
  | num .negZero, _ => trivial
  | num (.finite _), _ => trivial
  | str _, _ => trivial
  | arr items, h => distinctKeysItems_normalize items h
  | obj fields, h => by
    refine ⟨?_, distinctKeysFields_normalize fields h.2⟩
    rw [normalizeFields_eq_map, List.map_map]
    exact h.1

theorem distinctKeysItems_normalize : (items : List JsonValue) → DistinctKeysItems items →
    DistinctKeysItems (normalizeItems items)
  | [], _ => trivial
  | v :: vs, h => ⟨distinctKeys_normalize v h.1, distinctKeysItems_normalize vs h.2⟩

theorem distinctKeysFields_normalize : (fields : List (String × JsonValue)) →
    DistinctKeysFields fields → DistinctKeysFields (normalizeFields fields)
  | [], _ => trivial
  | (_, v) :: rest, h => ⟨distinctKeys_normalize v h.1, distinctKeysFields_normalize rest h.2⟩
end

/-- The fields of an object in order are determined by which fields it has. -/
theorem sorted_eq_of_perm {α : Type} {l l' : List (String × α)} (hkeys : (l.map Prod.fst).Nodup)
    (hperm : l.Perm l') : (l.insertionSort fun a b => fieldLe a b) =
      l'.insertionSort fun a b => fieldLe a b := by
  have hsorted := List.perm_insertionSort (fun a b : String × α => fieldLe a b) l
  have hsorted' := List.perm_insertionSort (fun a b : String × α => fieldLe a b) l'
  refine (hsorted.trans (hperm.trans hsorted'.symm)).eq_of_pairwise (fun a b ha hb hab hba => ?_)
    (List.pairwise_insertionSort _ l) (List.pairwise_insertionSort _ l')
  exact List.inj_on_of_nodup_map hkeys (hsorted.subset ha)
    (hperm.symm.subset (hsorted'.subset hb)) (codeUnitLe_antisymm hab hba)

mutual
theorem data_of_same : (a b : JsonValue) → a.DistinctKeys → SameData a b → a.data = b.data
  | null, b, _, h => by
    cases b <;> first | rfl | exact absurd h id
  | bool x, b, _, h => by
    cases b <;> first | exact congrArg JsonData.bool h | exact absurd h id
  | num m, b, _, h => by
    cases b <;> first | exact congrArg (fun n => data (num n)) h | exact absurd h id
  | str s, b, _, h => by
    cases b <;> first | exact congrArg JsonData.str h | exact absurd h id
  | arr items, b, hkeys, h => by
    cases b with
    | arr items' => exact congrArg JsonData.arr (dataItems_of_same items items' hkeys h)
    | _ => exact absurd h id
  | obj fields, b, hkeys, h => by
    cases b with
    | obj fields' =>
      refine congrArg JsonData.obj (sorted_eq_of_perm ?_ ?_)
      · rw [dataFields_eq_map, List.map_map]
        exact hkeys.1
      · have hsub := dataFields_of_same fields fields' hkeys.2 h.2
        have hnodup : (dataFields fields).Nodup := by
          refine List.Nodup.of_map Prod.fst ?_
          rw [dataFields_eq_map, List.map_map]
          exact hkeys.1
        -- As many fields, each of them in the other object.
        refine (List.subperm_of_subset hnodup hsub).perm_of_length_le ?_
        rw [dataFields_eq_map, dataFields_eq_map, List.length_map, List.length_map, h.1]
    | _ => exact absurd h id

theorem dataItems_of_same : (as bs : List JsonValue) → DistinctKeysItems as → SameItems as bs →
    dataItems as = dataItems bs
  | [], bs, _, h => by
    cases bs with
    | nil => rfl
    | cons w ws => exact absurd h id
  | v :: vs, bs, hkeys, h => by
    cases bs with
    | nil => exact absurd h id
    | cons w ws =>
      exact congrArg₂ List.cons (data_of_same v w hkeys.1 h.1)
        (dataItems_of_same vs ws hkeys.2 h.2)

theorem dataFields_of_same : (fields fields' : List (String × JsonValue)) →
    DistinctKeysFields fields → SameFields fields fields' → dataFields fields ⊆ dataFields fields'
  | [], _, _, _ => by
    intro e he
    cases he
  | (k, v) :: rest, fields', hkeys, h => by
    obtain ⟨⟨w, hw, hsame⟩, hrest⟩ := h
    intro e he
    rcases List.mem_cons.mp he with rfl | hmem
    · rw [data_of_same v w hkeys.1 hsame, dataFields_eq_map]
      exact List.mem_map_of_mem hw
    · exact dataFields_of_same rest fields' hkeys.2 hrest hmem
end

mutual
theorem same_of_data : (a b : JsonValue) → a.data = b.data → SameData a.normalize b.normalize
  | null, b, h => by
    cases b with
    | null => trivial
    | num n =>
      cases n with
      | posInf | negInf => trivial
      | finite q | negZero => cases h
    | bool c | str t | arr items' | obj fields' => cases h
  | bool x, b, h => by
    cases b with
    | bool c => exact JsonData.bool.inj h
    | num n => cases n <;> cases h
    | null | str t | arr items' | obj fields' => cases h
  | num m, b, h => by
    cases m with
    | finite q =>
      cases b with
      | num n =>
        cases n with
        | finite q' => exact congrArg JsNumber.finite (JsonData.num.inj h)
        | negZero => exact congrArg JsNumber.finite (JsonData.num.inj h)
        | posInf | negInf => cases h
      | null | bool c | str t | arr items' | obj fields' => cases h
    | negZero =>
      cases b with
      | num n =>
        cases n with
        | finite q' => exact congrArg JsNumber.finite (JsonData.num.inj h)
        | negZero => rfl
        | posInf | negInf => cases h
      | null | bool c | str t | arr items' | obj fields' => cases h
    | posInf | negInf =>
      cases b with
      | null => trivial
      | num n =>
        cases n with
        | posInf | negInf => trivial
        | finite q | negZero => cases h
      | bool c | str t | arr items' | obj fields' => cases h
  | str s, b, h => by
    cases b with
    | str t => exact JsonData.str.inj h
    | num n => cases n <;> cases h
    | null | bool c | arr items' | obj fields' => cases h
  | arr items, b, h => by
    cases b with
    | arr items' => exact sameItems_of_data items items' (JsonData.arr.inj h)
    | num n => cases n <;> cases h
    | null | bool c | str t | obj fields' => cases h
  | obj fields, b, h => by
    cases b with
    | obj fields' =>
      -- The fields in order are the fields of both objects.
      have hperm : (dataFields fields).Perm (dataFields fields') :=
        ((List.perm_insertionSort _ _).symm.trans (List.Perm.of_eq (JsonData.obj.inj h))).trans
          (List.perm_insertionSort _ _)
      have hlength := hperm.length_eq
      rw [dataFields_eq_map, dataFields_eq_map, List.length_map, List.length_map] at hlength
      refine ⟨?_, sameFields_of_data fields fields' hperm.subset⟩
      rw [normalizeFields_eq_map, normalizeFields_eq_map, List.length_map, List.length_map, hlength]
    | num n => cases n <;> cases h
    | null | bool c | str t | arr items' => cases h

theorem sameItems_of_data : (as bs : List JsonValue) → dataItems as = dataItems bs →
    SameItems (normalizeItems as) (normalizeItems bs)
  | [], bs, h => by
    cases bs with
    | nil => trivial
    | cons w ws => cases h
  | v :: vs, bs, h => by
    cases bs with
    | nil => cases h
    | cons w ws =>
      obtain ⟨hhead, htail⟩ := List.cons.inj h
      exact ⟨same_of_data v w hhead, sameItems_of_data vs ws htail⟩

theorem sameFields_of_data : (fields fields' : List (String × JsonValue)) →
    dataFields fields ⊆ dataFields fields' →
    SameFields (normalizeFields fields) (normalizeFields fields')
  | [], _, _ => trivial
  | (k, v) :: rest, fields', h => by
    have hmem := h List.mem_cons_self
    rw [dataFields_eq_map] at hmem
    obtain ⟨⟨k', w⟩, hw, hsame⟩ := List.mem_map.mp hmem
    obtain ⟨rfl, hdata⟩ := Prod.mk.inj hsame
    refine ⟨⟨w.normalize, ?_, same_of_data v w hdata.symm⟩,
      sameFields_of_data rest fields' fun e he => h (List.mem_cons_of_mem _ he)⟩
    rw [normalizeFields_eq_map]
    exact List.mem_map_of_mem hw
end

end DataLemmas

open DataLemmas

/-! ## Results -/

/-- Values are the same data, infinities being `null` and a negative zero being zero, if and only
if they have one element in `JsonData`. -/
theorem data_eq_iff {a b : JsonValue} (ha : a.DistinctKeys) :
    a.data = b.data ↔ SameData a.normalize b.normalize := by
  refine ⟨same_of_data a b, fun h => ?_⟩
  rw [← data_normalize a, ← data_normalize b]
  exact data_of_same a.normalize b.normalize (distinctKeys_normalize a ha) h

end JsonValue

end BitRelay
