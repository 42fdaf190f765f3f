import Mathlib.Data.List.Induction
import Mathlib.Data.List.Pairwise
import Mathlib.Data.List.Perm.Basic
import Mathlib.Order.Lattice

/-!
# A register that keeps one candidate

Candidates arrive one after the other. Each takes the place of the one that is
kept, or is dropped; `replaces a b` says whether `a` takes the place of `b`.
Nothing is asked of the relation: what is kept may depend on the order.

Results:
1. `champion_rank`: where a candidate takes the place of those of no higher
   rank, one of the highest rank is kept.
2. `champion_perm`: when the ranks are distinct, the order does not matter.
3. `foldl_keep_of_protected`: candidates of a class that no other may replace
   are kept as if the others had not come.
-/

variable {α β : Type}

/-- The candidate that is kept after `a` arrived. -/
def keepChampion (replaces : α → α → Bool) : Option α → α → Option α
  | none, a => some a
  | some b, a => some (if replaces a b then a else b)

/-- The candidate that is kept in the end. -/
def champion (replaces : α → α → Bool) (candidates : List α) : Option α :=
  candidates.foldl (keepChampion replaces) none

section
variable {replaces : α → α → Bool}

theorem champion_concat (l : List α) (a : α) :
    champion replaces (l ++ [a]) = keepChampion replaces (champion replaces l) a := by
  unfold champion
  rw [List.foldl_append]
  rfl

theorem keepChampion_isSome (kept : Option α) (a : α) :
    (keepChampion replaces kept a).isSome = true := by
  cases kept <;> rfl

theorem champion_isSome (replaces : α → α → Bool) {l : List α} (h : l ≠ []) :
    (champion replaces l).isSome = true := by
  rw [← List.dropLast_append_getLast h, champion_concat]
  exact keepChampion_isSome _ _

theorem champion_mem {l : List α} {m : α} (h : champion replaces l = some m) : m ∈ l := by
  induction l using List.reverseRecOn generalizing m with
  | nil => cases h
  | append_singleton l a ih =>
    rw [champion_concat] at h
    cases hkept : champion replaces l with
    | none =>
      rw [hkept] at h
      cases h
      simp
    | some b =>
      rw [hkept] at h
      have hm : (if replaces a b then a else b) = m := Option.some.inj h
      split at hm
      · simp [← hm]
      · rw [← hm]
        exact List.mem_append_left _ (ih hkept)

/-- A class whose members only members may replace. -/
def Protected (replaces : α → α → Bool) (p : α → Bool) : Prop :=
  ∀ a b, p b = true → p a = false → replaces a b = false

/-- Once a member is kept, the others might as well not come. -/
theorem foldl_keep_of_protected {p : α → Bool} (h : Protected replaces p) {b : α} (hb : p b = true)
    (l : List α) : l.foldl (keepChampion replaces) (some b) =
      champion replaces (b :: l.filter p) := by
  show _ = (l.filter p).foldl (keepChampion replaces) (some b)
  induction l generalizing b with
  | nil => rfl
  | cons a rest ih =>
    cases ha : p a with
    | false =>
      have hdropped : keepChampion replaces (some b) a = some b := by
        simp [keepChampion, h a b hb ha]
      rw [List.foldl_cons, hdropped, List.filter_cons_of_neg (by simp [ha])]
      exact ih hb
    | true =>
      have hmember : p (if replaces a b then a else b) = true := by
        split
        · exact ha
        · exact hb
      rw [List.foldl_cons, List.filter_cons_of_pos ha, List.foldl_cons]
      exact ih hmember

end

/-! ## Ranks -/

section
variable [LinearOrder β] {replaces : α → α → Bool} {rank : α → β}

/-- Among these candidates, one takes the place of those of no higher rank. -/
def Ranked (replaces : α → α → Bool) (rank : α → β) (candidates : List α) : Prop :=
  ∀ a ∈ candidates, ∀ b ∈ candidates, replaces a b = true ↔ rank b ≤ rank a

theorem champion_rank {l : List α} (h : Ranked replaces rank l) {m : α}
    (hm : champion replaces l = some m) : ∀ a ∈ l, rank a ≤ rank m := by
  induction l using List.reverseRecOn generalizing m with
  | nil => exact fun a ha => absurd ha List.not_mem_nil
  | append_singleton l a ih =>
    have hl : Ranked replaces rank l := fun x hx y hy =>
      h x (List.mem_append_left _ hx) y (List.mem_append_left _ hy)
    rw [champion_concat] at hm
    intro x hx
    rw [List.mem_append, List.mem_singleton] at hx
    cases hkept : champion replaces l with
    | none =>
      have hnil : l = [] := by
        by_contra hne
        have hsome := champion_isSome replaces hne
        rw [hkept] at hsome
        cases hsome
      rw [hkept] at hm
      cases hm
      rcases hx with hx | rfl
      · rw [hnil] at hx
        exact absurd hx List.not_mem_nil
      · exact le_refl _
    | some b =>
      rw [hkept] at hm
      have hm : (if replaces a b then a else b) = m := Option.some.inj hm
      have hreplaces := h a (by simp) b (List.mem_append_left _ (champion_mem hkept))
      split at hm
      · next hrepl =>
        subst hm
        rcases hx with hx | rfl
        · exact le_trans (ih hl hkept x hx) (hreplaces.mp hrepl)
        · exact le_refl _
      · next hrepl =>
        subst hm
        rcases hx with hx | rfl
        · exact ih hl hkept x hx
        · exact le_of_lt (not_le.mp fun hle => hrepl (hreplaces.mpr hle))

/-- With distinct ranks, the candidates may arrive in any order. -/
theorem champion_perm {l l' : List α} (hperm : l.Perm l') (h : Ranked replaces rank l)
    (hdistinct : l.Pairwise fun a b => rank a ≠ rank b) :
    champion replaces l = champion replaces l' := by
  have h' : Ranked replaces rank l' := fun a ha b hb =>
    h a (hperm.mem_iff.mpr ha) b (hperm.mem_iff.mpr hb)
  by_cases hnil : l = []
  · subst hnil
    rw [hperm.nil_eq]
  · have hnil' : l' ≠ [] := fun heq => hnil (heq ▸ hperm).eq_nil
    obtain ⟨m, hm⟩ := Option.isSome_iff_exists.mp (champion_isSome replaces hnil)
    obtain ⟨m', hm'⟩ := Option.isSome_iff_exists.mp (champion_isSome replaces hnil')
    have hmem := champion_mem hm
    have hmem' := hperm.mem_iff.mpr (champion_mem hm')
    have hrank : rank m = rank m' := le_antisymm
      (champion_rank h' hm' m (hperm.mem_iff.mp hmem)) (champion_rank h hm m' hmem')
    rw [hm, hm']
    by_contra hne
    have hne : m ≠ m' := fun heq => hne (congrArg some heq)
    have hsymm : Std.Symm fun a b : α => rank a ≠ rank b := ⟨fun _ _ hxy => hxy.symm⟩
    exact hdistinct.forall hmem hmem' hne hrank

end
