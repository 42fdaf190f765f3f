import Mathlib.Data.List.Nodup
import Mathlib.Data.List.Lookmap

/-!
# Finite maps that remember insertion order

`OrdMap κ ν` is the map of an insertion-ordered language: a list of entries with
distinct keys. Writing a present key keeps its place, writing a new key appends
it, and an iteration meets the keys in that order. The distinctness of the keys
is a field, so no lemma below carries it as a hypothesis.

Results:
1. `get?_set`, `get?_erase`, `get?_filter`, `get?_dropOldest`: what each
   operation does to a lookup.
2. `keys_set_of_has`, `keys_set_of_not_has`: what a write does to the order.
3. `size_set_le`, `size_dropOldest`: how many entries are left.
4. `get?_ofList_of_mem`: filling a map from a list with distinct keys.
5. `mapValues_set` and its companions: a view of the values goes through every
   operation.
6. `Agree.set` and its companions: maps with the same lookups keep them.
-/

/-- A finite map whose entries stand in insertion order. -/
structure OrdMap (κ ν : Type) where
  entries : List (κ × ν)
  nodup : (entries.map Prod.fst).Nodup
  deriving DecidableEq

namespace OrdMap

variable {κ ν μ : Type}

/-! ## Definitions -/

def empty : OrdMap κ ν := ⟨[], List.nodup_nil⟩

instance : EmptyCollection (OrdMap κ ν) := ⟨empty⟩

instance : Inhabited (OrdMap κ ν) := ⟨empty⟩

def keys (m : OrdMap κ ν) : List κ := m.entries.map Prod.fst

def values (m : OrdMap κ ν) : List ν := m.entries.map Prod.snd

def size (m : OrdMap κ ν) : Nat := m.entries.length

/-- Keep the entries that satisfy `p`, in their order. -/
def filter (m : OrdMap κ ν) (p : κ → ν → Bool) : OrdMap κ ν :=
  ⟨m.entries.filter fun e => p e.1 e.2, m.nodup.sublist (List.filter_sublist.map _)⟩

/-- Delete the `n` oldest entries. -/
def dropOldest (m : OrdMap κ ν) (n : Nat) : OrdMap κ ν :=
  ⟨m.entries.drop n, m.nodup.sublist ((List.drop_sublist n _).map _)⟩

/-- The same keys in the same order, with the values under a view. -/
def mapValues (m : OrdMap κ ν) (f : ν → μ) : OrdMap κ μ :=
  ⟨m.entries.map fun e => (e.1, f e.2), by
    rw [List.map_map]
    exact m.nodup⟩

@[ext] theorem ext {m m' : OrdMap κ ν} (h : m.entries = m'.entries) : m = m' := by
  cases m
  cases m'
  simp only [mk.injEq]
  exact h

@[simp] theorem dropOldest_zero (m : OrdMap κ ν) : m.dropOldest 0 = m := rfl

theorem values_mapValues (m : OrdMap κ ν) (f : ν → μ) :
    (m.mapValues f).values = m.values.map f := by
  simp [values, mapValues]

/-- A filter that can be decided on the view. -/
theorem mapValues_filter {m : OrdMap κ ν} {f : ν → μ} {p : κ → ν → Bool} {q : κ → μ → Bool}
    (h : ∀ k v, p k v = q k (f v)) : (m.filter p).mapValues f = (m.mapValues f).filter q := by
  apply ext
  simp only [mapValues, filter, List.filter_map, Function.comp_def, h]

theorem size_eq_length_keys (m : OrdMap κ ν) : m.size = m.keys.length := by
  simp [size, keys]

theorem size_filter_le (m : OrdMap κ ν) (p : κ → ν → Bool) : (m.filter p).size ≤ m.size :=
  List.length_filter_le _ _

theorem size_dropOldest (m : OrdMap κ ν) (n : Nat) : (m.dropOldest n).size = m.size - n := by
  simp [size, dropOldest]

section DecidableKeys
variable [DecidableEq κ]

def get? (m : OrdMap κ ν) (k : κ) : Option ν := m.entries.lookup k

def has (m : OrdMap κ ν) (k : κ) : Bool := (m.get? k).isSome

def getD (m : OrdMap κ ν) (k : κ) (v : ν) : ν := (m.get? k).getD v

/-- Write `v` under `k` in a list of entries: in place, or at the end. -/
def setEntries (k : κ) (v : ν) : List (κ × ν) → List (κ × ν)
  | [] => [(k, v)]
  | (k', v') :: rest => if k' = k then (k, v) :: rest else (k', v') :: setEntries k v rest

theorem map_fst_setEntries (k : κ) (v : ν) (l : List (κ × ν)) :
    (setEntries k v l).map Prod.fst =
      if k ∈ l.map Prod.fst then l.map Prod.fst else l.map Prod.fst ++ [k] := by
  induction l with
  | nil => rfl
  | cons e rest ih =>
    obtain ⟨k', v'⟩ := e
    by_cases hk : k' = k
    · simp [setEntries, hk]
    · have hk' : ¬ k = k' := fun h => hk h.symm
      simp only [setEntries, if_neg hk, List.map_cons, ih, List.mem_cons, hk', false_or]
      split <;> simp

theorem nodup_setEntries {l : List (κ × ν)} (h : (l.map Prod.fst).Nodup) (k : κ) (v : ν) :
    ((setEntries k v l).map Prod.fst).Nodup := by
  rw [map_fst_setEntries]
  split
  · exact h
  · next hk =>
    refine List.nodup_append.mpr ⟨h, List.nodup_singleton k, ?_⟩
    intro a ha b hb hab
    simp only [List.mem_singleton] at hb
    subst hb
    subst hab
    exact hk ha

/-- Write `v` under `k`: a present key keeps its place, a new key goes last. -/
def set (m : OrdMap κ ν) (k : κ) (v : ν) : OrdMap κ ν :=
  ⟨setEntries k v m.entries, nodup_setEntries m.nodup k v⟩

/-- Delete the entry of `k`. -/
def erase (m : OrdMap κ ν) (k : κ) : OrdMap κ ν := m.filter fun k' _ => !decide (k' = k)

/-! ## Lookups -/

@[simp] theorem get?_empty (k : κ) : (∅ : OrdMap κ ν).get? k = none := rfl

theorem lookup_cons_ite (k k' : κ) (v : ν) (l : List (κ × ν)) :
    ((k', v) :: l).lookup k = if k = k' then some v else l.lookup k := by
  rw [List.lookup_cons]
  by_cases h : k = k'
  · rw [if_pos h, beq_iff_eq.mpr h]
  · rw [if_neg h, beq_eq_false_iff_ne.mpr h]

theorem lookup_eq_some_iff {l : List (κ × ν)} (h : (l.map Prod.fst).Nodup) {k : κ} {v : ν} :
    l.lookup k = some v ↔ (k, v) ∈ l := by
  induction l with
  | nil => simp
  | cons e rest ih =>
    obtain ⟨k', v'⟩ := e
    simp only [List.map_cons, List.nodup_cons] at h
    by_cases hk : k = k'
    · subst hk
      simp only [List.lookup_cons_self, Option.some.injEq, List.mem_cons, Prod.mk.injEq, true_and]
      constructor
      · rintro rfl
        exact .inl rfl
      · rintro (hv | hmem)
        · exact hv.symm
        · exact absurd (List.mem_map_of_mem (f := Prod.fst) hmem) h.1
    · rw [lookup_cons_ite, if_neg hk]
      simp only [ih h.2, List.mem_cons, Prod.mk.injEq, hk, false_and, false_or]

theorem get?_eq_some_iff {m : OrdMap κ ν} {k : κ} {v : ν} :
    m.get? k = some v ↔ (k, v) ∈ m.entries :=
  lookup_eq_some_iff m.nodup

theorem has_iff_mem_keys {m : OrdMap κ ν} {k : κ} : m.has k = true ↔ k ∈ m.keys := by
  unfold has keys
  rw [Option.isSome_iff_exists, List.mem_map]
  constructor
  · rintro ⟨v, hv⟩
    exact ⟨(k, v), get?_eq_some_iff.mp hv, rfl⟩
  · rintro ⟨⟨k', v⟩, hmem, rfl⟩
    exact ⟨v, get?_eq_some_iff.mpr hmem⟩

theorem has_eq_false_iff {m : OrdMap κ ν} {k : κ} : m.has k = false ↔ m.get? k = none := by
  simp [has]

theorem lookup_setEntries (k k' : κ) (v : ν) (l : List (κ × ν)) :
    (setEntries k v l).lookup k' = if k' = k then some v else l.lookup k' := by
  induction l with
  | nil => simp only [setEntries, lookup_cons_ite]
  | cons e rest ih =>
    obtain ⟨a, b⟩ := e
    by_cases ha : a = k
    · subst ha
      simp only [setEntries, if_pos, lookup_cons_ite]
      split <;> rfl
    · rw [setEntries, if_neg ha, lookup_cons_ite, lookup_cons_ite, ih]
      by_cases h : k' = a
      · subst h
        rw [if_pos rfl, if_pos rfl, if_neg ha]
      · rw [if_neg h, if_neg h]

theorem get?_set (m : OrdMap κ ν) (k k' : κ) (v : ν) :
    (m.set k v).get? k' = if k' = k then some v else m.get? k' :=
  lookup_setEntries k k' v m.entries

@[simp] theorem get?_set_self (m : OrdMap κ ν) (k : κ) (v : ν) : (m.set k v).get? k = some v := by
  rw [get?_set, if_pos rfl]

theorem get?_set_of_ne (m : OrdMap κ ν) {k k' : κ} (h : k' ≠ k) (v : ν) :
    (m.set k v).get? k' = m.get? k' := by
  rw [get?_set, if_neg h]

theorem has_set {m : OrdMap κ ν} {k k' : κ} {v : ν} :
    (m.set k v).has k' = true ↔ k' = k ∨ m.has k' = true := by
  unfold has
  rw [get?_set]
  by_cases heq : k' = k
  · simp [heq]
  · simp [heq]

/-- Write a key that is not there yet. -/
def setNew (m : OrdMap κ ν) (k : κ) (v : ν) : OrdMap κ ν := if m.has k then m else m.set k v

theorem get?_setNew (m : OrdMap κ ν) (k k' : κ) (v : ν) :
    (m.setNew k v).get? k' = if k' = k then some ((m.get? k).getD v) else m.get? k' := by
  unfold setNew has
  cases hk : m.get? k with
  | some w =>
    by_cases h : k' = k
    · simp [h, hk]
    · simp [h]
  | none => simp [get?_set]

theorem setEntries_setEntries (k : κ) (v w : ν) (l : List (κ × ν)) :
    setEntries k w (setEntries k v l) = setEntries k w l := by
  induction l with
  | nil => simp [setEntries]
  | cons e rest ih =>
    obtain ⟨a, b⟩ := e
    by_cases ha : a = k
    · simp [setEntries, ha]
    · simp [setEntries, ha, ih]

@[simp] theorem set_set (m : OrdMap κ ν) (k : κ) (v w : ν) : (m.set k v).set k w = m.set k w :=
  ext (setEntries_setEntries k v w m.entries)

theorem getD_set_self (m : OrdMap κ ν) (k : κ) (v d : ν) : (m.set k v).getD k d = v := by
  simp [getD]

theorem getD_set_of_ne (m : OrdMap κ ν) {k k' : κ} (h : k' ≠ k) (v d : ν) :
    (m.set k v).getD k' d = m.getD k' d := by
  rw [getD, get?_set_of_ne m h, getD]

theorem get?_filter_eq_some_iff {m : OrdMap κ ν} {p : κ → ν → Bool} {k : κ} {v : ν} :
    (m.filter p).get? k = some v ↔ m.get? k = some v ∧ p k v = true := by
  rw [get?_eq_some_iff, get?_eq_some_iff]
  simp [filter]

theorem get?_filter (m : OrdMap κ ν) (p : κ → ν → Bool) (k : κ) :
    (m.filter p).get? k = (m.get? k).filter (p k) := by
  apply Option.ext
  intro v
  rw [get?_filter_eq_some_iff, Option.filter_eq_some_iff]

theorem get?_erase (m : OrdMap κ ν) (k k' : κ) :
    (m.erase k).get? k' = if k' = k then none else m.get? k' := by
  unfold erase
  rw [get?_filter]
  by_cases h : k' = k
  · cases hm : m.get? k' <;> simp [h]
  · cases hm : m.get? k' <;> simp [h]

theorem has_erase {m : OrdMap κ ν} {k k' : κ} :
    (m.erase k).has k' = true ↔ k' ≠ k ∧ m.has k' = true := by
  unfold has
  rw [get?_erase]
  by_cases heq : k' = k
  · simp [heq]
  · simp [heq]

/-- The entries after a write: the new one, and the old ones under other keys. -/
theorem mem_entries_set {m : OrdMap κ ν} {k : κ} {v : ν} {e : κ × ν} :
    e ∈ (m.set k v).entries ↔ e = (k, v) ∨ (e.1 ≠ k ∧ e ∈ m.entries) := by
  obtain ⟨k', v'⟩ := e
  rw [← get?_eq_some_iff, ← get?_eq_some_iff, get?_set]
  by_cases h : k' = k
  · simp [h, eq_comm]
  · simp [h]

theorem mem_entries_erase {m : OrdMap κ ν} {k : κ} {e : κ × ν} :
    e ∈ (m.erase k).entries ↔ e.1 ≠ k ∧ e ∈ m.entries := by
  obtain ⟨k', v'⟩ := e
  rw [← get?_eq_some_iff, ← get?_eq_some_iff, get?_erase]
  by_cases h : k' = k
  · simp [h]
  · simp [h]

/-- What survives the deletion of the oldest entries was there before it. -/
theorem get?_dropOldest_of_some {m : OrdMap κ ν} {n : Nat} {k : κ} {v : ν}
    (h : (m.dropOldest n).get? k = some v) : m.get? k = some v := by
  rw [get?_eq_some_iff] at h ⊢
  exact List.mem_of_mem_drop h

/-- An entry is among the oldest ones that are deleted, or it stays. -/
theorem mem_take_or_get?_dropOldest {m : OrdMap κ ν} {k : κ} {v : ν} (h : m.get? k = some v)
    (n : Nat) : (k, v) ∈ m.entries.take n ∨ (m.dropOldest n).get? k = some v := by
  rw [get?_eq_some_iff] at h ⊢
  rw [← List.take_append_drop n m.entries] at h
  exact List.mem_append.mp h

/-! ## Order and size -/

theorem keys_set_of_has {m : OrdMap κ ν} {k : κ} (h : m.has k = true) (v : ν) :
    (m.set k v).keys = m.keys := by
  have hk : k ∈ m.entries.map Prod.fst := has_iff_mem_keys.mp h
  unfold keys set
  rw [map_fst_setEntries, if_pos hk]

theorem keys_set_of_not_has {m : OrdMap κ ν} {k : κ} (h : m.has k = false) (v : ν) :
    (m.set k v).keys = m.keys ++ [k] := by
  have hk : k ∉ m.entries.map Prod.fst := by
    intro hmem
    rw [has_iff_mem_keys.mpr hmem] at h
    exact Bool.noConfusion h
  unfold keys set
  rw [map_fst_setEntries, if_neg hk]

theorem setEntries_of_notMem {l : List (κ × ν)} {k : κ} (h : k ∉ l.map Prod.fst) (v : ν) :
    setEntries k v l = l ++ [(k, v)] := by
  induction l with
  | nil => rfl
  | cons e rest ih =>
    obtain ⟨k', v'⟩ := e
    simp only [List.map_cons, List.mem_cons, not_or] at h
    rw [setEntries, if_neg fun hk => h.1 hk.symm, ih h.2, List.cons_append]

theorem entries_set_of_not_has {m : OrdMap κ ν} {k : κ} (h : m.has k = false) (v : ν) :
    (m.set k v).entries = m.entries ++ [(k, v)] := by
  refine setEntries_of_notMem (fun hmem => ?_) v
  rw [has_iff_mem_keys.mpr hmem] at h
  exact Bool.noConfusion h

theorem has_of_has_dropOldest {m : OrdMap κ ν} {n : Nat} {k : κ}
    (h : (m.dropOldest n).has k = true) : m.has k = true := by
  obtain ⟨v, hv⟩ := Option.isSome_iff_exists.mp h
  exact Option.isSome_iff_exists.mpr ⟨v, get?_dropOldest_of_some hv⟩

/-- A new key is the newest one, and stays when older ones are dropped. -/
theorem has_dropOldest_set {m : OrdMap κ ν} {k : κ} (h : m.has k = false) (v : ν) {n : Nat}
    (hn : n ≤ m.size) : ((m.set k v).dropOldest n).has k = true := by
  refine Option.isSome_iff_exists.mpr ⟨v, get?_eq_some_iff.mpr ?_⟩
  show (k, v) ∈ (m.set k v).entries.drop n
  rw [entries_set_of_not_has h, List.drop_append_of_le_length hn]
  exact List.mem_append_right _ List.mem_cons_self

theorem values_set_of_not_has {m : OrdMap κ ν} {k : κ} (h : m.has k = false) (v : ν) :
    (m.set k v).values = m.values ++ [v] := by
  unfold values
  rw [entries_set_of_not_has h, List.map_append]
  rfl

theorem filter_map_snd_setEntries {p : ν → Bool} {k : κ} {v : ν} {l : List (κ × ν)}
    (hv : p v = false) (hold : ∀ w, (k, w) ∈ l → p w = false) :
    ((setEntries k v l).map Prod.snd).filter p = (l.map Prod.snd).filter p := by
  induction l with
  | nil => simp [setEntries, hv]
  | cons e rest ih =>
    obtain ⟨k', v'⟩ := e
    unfold setEntries
    split
    · next hk =>
      subst hk
      have hv' : p v' = false := hold v' List.mem_cons_self
      simp [hv, hv']
    · simp only [List.map_cons, List.filter_cons,
        ih fun w hw => hold w (List.mem_cons_of_mem _ hw)]

/-- Values that a filter drops may be written over. -/
theorem filter_values_set {m : OrdMap κ ν} {p : ν → Bool} {k : κ} {v : ν} (hv : p v = false)
    (hold : ∀ w, m.get? k = some w → p w = false) :
    (m.set k v).values.filter p = m.values.filter p :=
  filter_map_snd_setEntries hv fun w hw => hold w (get?_eq_some_iff.mpr hw)

/-- Values that a map drops may be written over. -/
theorem filterMap_values_set {f : ν → Option μ} {m : OrdMap κ ν} {k : κ} {v : ν} (hv : f v = none)
    (hold : ∀ w, m.get? k = some w → f w = none) :
    (m.set k v).values.filterMap f = m.values.filterMap f := by
  have hkept : ∀ l : List ν, l.filterMap f = (l.filter fun w => (f w).isSome).filterMap f := by
    intro l
    rw [List.filterMap_filter]
    congr 1
    funext w
    cases f w with
    | none => rfl
    | some x => rfl
  have hfilter := filter_values_set (m := m) (k := k) (p := fun w => (f w).isSome) (v := v)
    (by rw [hv]; rfl) (fun w hw => by rw [hold w hw]; rfl)
  rw [hkept, hfilter, ← hkept]

theorem size_set_le (m : OrdMap κ ν) (k : κ) (v : ν) : (m.set k v).size ≤ m.size + 1 := by
  rw [size_eq_length_keys, size_eq_length_keys]
  cases h : m.has k with
  | true => rw [keys_set_of_has h]; omega
  | false => rw [keys_set_of_not_has h]; simp

/-! ## Filling a map from a list -/

/-- The map after `m.set(key, value)` for each entry of `l`, starting from the empty map. -/
def ofList (l : List (κ × ν)) : OrdMap κ ν := l.foldl (fun m e => m.set e.1 e.2) ∅

theorem get?_foldl_set_of_notMem {l : List (κ × ν)} {k : κ} (h : k ∉ l.map Prod.fst)
    (m : OrdMap κ ν) : (l.foldl (fun m e => m.set e.1 e.2) m).get? k = m.get? k := by
  induction l generalizing m with
  | nil => rfl
  | cons e rest ih =>
    simp only [List.map_cons, List.mem_cons, not_or] at h
    rw [List.foldl_cons, ih h.2, get?_set_of_ne _ h.1]

theorem get?_foldl_set_of_mem {l : List (κ × ν)} (hl : (l.map Prod.fst).Nodup) {k : κ} {v : ν}
    (h : (k, v) ∈ l) (m : OrdMap κ ν) :
    (l.foldl (fun m e => m.set e.1 e.2) m).get? k = some v := by
  induction l generalizing m with
  | nil => cases h
  | cons e rest ih =>
    simp only [List.map_cons, List.nodup_cons] at hl
    rw [List.foldl_cons]
    rcases List.mem_cons.mp h with rfl | hrest
    · rw [get?_foldl_set_of_notMem hl.1, get?_set_self]
    · exact ih hl.2 hrest _

/-- Filling from distinct keys keeps every entry. -/
theorem get?_ofList_of_mem {l : List (κ × ν)} (hl : (l.map Prod.fst).Nodup) {k : κ} {v : ν}
    (h : (k, v) ∈ l) : (ofList l).get? k = some v :=
  get?_foldl_set_of_mem hl h ∅

theorem mem_of_get?_foldl_set {l : List (κ × ν)} {m : OrdMap κ ν} {k : κ} {v : ν}
    (h : (l.foldl (fun m e => m.set e.1 e.2) m).get? k = some v) :
    (k, v) ∈ l ∨ m.get? k = some v := by
  induction l generalizing m with
  | nil => exact .inr h
  | cons e rest ih =>
    rcases ih h with hrest | hset
    · exact .inl (List.mem_cons_of_mem _ hrest)
    · rw [get?_set] at hset
      split at hset
      · next hk =>
        cases hset
        subst hk
        exact .inl List.mem_cons_self
      · exact .inr hset

theorem mem_of_get?_ofList {l : List (κ × ν)} {k : κ} {v : ν} (h : (ofList l).get? k = some v) :
    (k, v) ∈ l := by
  rcases mem_of_get?_foldl_set h with hmem | hempty
  · exact hmem
  · cases hempty

theorem has_foldl_set {l : List (κ × ν)} {m : OrdMap κ ν} {k : κ} :
    (l.foldl (fun m e => m.set e.1 e.2) m).has k = true ↔ m.has k = true ∨ k ∈ l.map Prod.fst := by
  induction l generalizing m with
  | nil => simp
  | cons e rest ih =>
    rw [List.foldl_cons, ih, has_set, List.map_cons, List.mem_cons, or_assoc, or_left_comm]

theorem size_foldl_set_le (l : List (κ × ν)) (m : OrdMap κ ν) :
    (l.foldl (fun m e => m.set e.1 e.2) m).size ≤ m.size + l.length := by
  induction l generalizing m with
  | nil => exact Nat.le_refl _
  | cons e rest ih =>
    have hset := size_set_le m e.1 e.2
    have hrest := ih (m.set e.1 e.2)
    simp only [List.foldl_cons, List.length_cons]
    omega

theorem size_ofList_le (l : List (κ × ν)) : (ofList l).size ≤ l.length := by
  have h := size_foldl_set_le l (∅ : OrdMap κ ν)
  have hempty : (∅ : OrdMap κ ν).size = 0 := rfl
  unfold ofList
  omega

/-! ## Views of the values -/

theorem setEntries_map (f : ν → μ) (k : κ) (v : ν) (l : List (κ × ν)) :
    (setEntries k v l).map (fun e => (e.1, f e.2)) =
      setEntries k (f v) (l.map fun e => (e.1, f e.2)) := by
  induction l with
  | nil => rfl
  | cons e rest ih =>
    obtain ⟨k', v'⟩ := e
    by_cases hk : k' = k
    · simp [setEntries, hk]
    · simp [setEntries, hk, ih]

theorem mapValues_set (m : OrdMap κ ν) (f : ν → μ) (k : κ) (v : ν) :
    (m.set k v).mapValues f = (m.mapValues f).set k (f v) :=
  ext (setEntries_map f k v m.entries)

theorem mapValues_erase (m : OrdMap κ ν) (f : ν → μ) (k : κ) :
    (m.erase k).mapValues f = (m.mapValues f).erase k :=
  mapValues_filter fun _ _ => rfl

theorem lookup_map_snd (f : ν → μ) (k : κ) (l : List (κ × ν)) :
    (l.map fun e => (e.1, f e.2)).lookup k = (l.lookup k).map f := by
  induction l with
  | nil => rfl
  | cons e rest ih =>
    obtain ⟨k', v'⟩ := e
    rw [List.map_cons, lookup_cons_ite, lookup_cons_ite, ih]
    split <;> rfl

theorem get?_mapValues (m : OrdMap κ ν) (f : ν → μ) (k : κ) :
    (m.mapValues f).get? k = (m.get? k).map f :=
  lookup_map_snd f k m.entries

theorem has_mapValues (m : OrdMap κ ν) (f : ν → μ) (k : κ) : (m.mapValues f).has k = m.has k := by
  unfold has
  rw [get?_mapValues, Option.isSome_map]

theorem get?_foldl_erase (m : OrdMap κ ν) (ks : List κ) (k : κ) :
    (ks.foldl (fun m k => m.erase k) m).get? k = if k ∈ ks then none else m.get? k := by
  induction ks generalizing m with
  | nil => simp
  | cons k' rest ih =>
    rw [List.foldl_cons, ih, get?_erase]
    by_cases hrest : k ∈ rest
    · simp [hrest]
    · by_cases hk : k = k'
      · simp [hk]
      · simp [hrest, hk]

/-! ## Maps with the same lookups -/

/-- The two maps give the same answer for every key; their orders may differ. -/
def Agree (m m' : OrdMap κ ν) : Prop := ∀ k, m.get? k = m'.get? k

namespace Agree

variable {m m' : OrdMap κ ν}

theorem refl (m : OrdMap κ ν) : m.Agree m := fun _ => rfl

theorem set (h : m.Agree m') (k : κ) (v : ν) : (m.set k v).Agree (m'.set k v) := by
  intro k'
  rw [get?_set, get?_set, h k']

theorem erase (h : m.Agree m') (k : κ) : (m.erase k).Agree (m'.erase k) := by
  intro k'
  rw [get?_erase, get?_erase, h k']

theorem getD (h : m.Agree m') (k : κ) (v : ν) : m.getD k v = m'.getD k v :=
  congrArg (Option.getD · v) (h k)

theorem has (h : m.Agree m') (k : κ) : m.has k = m'.has k := congrArg Option.isSome (h k)

theorem eraseAll (h : m.Agree m') (ks : List κ) :
    (ks.foldl (fun m k => m.erase k) m).Agree (ks.foldl (fun m k => m.erase k) m') := by
  induction ks generalizing m m' with
  | nil => exact h
  | cons k rest ih => exact ih (h.erase k)

end Agree

end DecidableKeys

end OrdMap
