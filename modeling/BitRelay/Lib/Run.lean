import Mathlib.Data.List.Induction
import Mathlib.Data.List.Infix

/-!
# Runs of a machine under a condition

A machine is a function `step : σ → ℓ → σ`; a run is a list of labels. `Along`
says that every step of a run meets a condition on the state before it and its
label.

Results:
1. `Along.invariant`: what every step that meets the condition preserves holds
   after the run.
2. `along_append`: a condition along a run is a condition along its parts.
3. `along_congr`: conditions that agree under an invariant agree along every run.
4. `Along.imp_of_invariant`: one condition implies another along every run.
5. `prefixes_iff_along`: a property that a step preserves exactly under a condition holds in all
   states of a run exactly when the condition does along it.
6. `once_of_gained`: what holds after a run and not before it was gained at one of its steps, and
   `gained_and_kept`: kept since the last one.
7. `rank_runFrom_le`: what every step lowers is used up by a run that is long enough.
8. `runFrom_related`: two runs of the same labels keep what every step of both keeps.
-/

variable {σ ℓ : Type}

/-- The state after a run. -/
def runFrom (step : σ → ℓ → σ) (s : σ) (labels : List ℓ) : σ := labels.foldl step s

@[simp] theorem runFrom_nil (step : σ → ℓ → σ) (s : σ) : runFrom step s [] = s := rfl

@[simp] theorem runFrom_cons (step : σ → ℓ → σ) (s : σ) (l : ℓ) (labels : List ℓ) :
    runFrom step s (l :: labels) = runFrom step (step s l) labels := rfl

theorem runFrom_append (step : σ → ℓ → σ) (s : σ) (labels labels' : List ℓ) :
    runFrom step s (labels ++ labels') = runFrom step (runFrom step s labels) labels' :=
  List.foldl_append

theorem runFrom_concat (step : σ → ℓ → σ) (s : σ) (labels : List ℓ) (l : ℓ) :
    runFrom step s (labels ++ [l]) = step (runFrom step s labels) l := by
  rw [runFrom_append, runFrom_cons, runFrom_nil]

/-- Every step of the run meets `cond`. -/
def Along (step : σ → ℓ → σ) (cond : σ → ℓ → Prop) : σ → List ℓ → Prop
  | _, [] => True
  | s, l :: labels => cond s l ∧ Along step cond (step s l) labels

instance Along.decidable (step : σ → ℓ → σ) (cond : σ → ℓ → Prop)
    [∀ s l, Decidable (cond s l)] : (s : σ) → (labels : List ℓ) →
    Decidable (Along step cond s labels)
  | _, [] => isTrue trivial
  | s, l :: labels =>
    have := Along.decidable step cond (step s l) labels
    inferInstanceAs (Decidable (cond s l ∧ Along step cond (step s l) labels))

theorem along_append {step : σ → ℓ → σ} {cond : σ → ℓ → Prop} {s : σ} {labels labels' : List ℓ} :
    Along step cond s (labels ++ labels') ↔
      Along step cond s labels ∧ Along step cond (runFrom step s labels) labels' := by
  induction labels generalizing s with
  | nil => simp [Along]
  | cons l rest ih => simp only [List.cons_append, Along, ih, runFrom_cons, and_assoc]

theorem along_concat {step : σ → ℓ → σ} {cond : σ → ℓ → Prop} {s : σ} {labels : List ℓ} {l : ℓ} :
    Along step cond s (labels ++ [l]) ↔
      Along step cond s labels ∧ cond (runFrom step s labels) l := by
  rw [along_append]
  simp [Along]

theorem Along.invariant {step : σ → ℓ → σ} {cond : σ → ℓ → Prop} {I : σ → Prop}
    (hstep : ∀ s l, cond s l → I s → I (step s l)) {s : σ} {labels : List ℓ}
    (h : Along step cond s labels) (hs : I s) : I (runFrom step s labels) := by
  induction labels generalizing s with
  | nil => exact hs
  | cons l rest ih => exact ih h.2 (hstep s l h.1 hs)

/-- An invariant of every step holds after every run. -/
theorem runFrom_invariant {step : σ → ℓ → σ} {I : σ → Prop} (hstep : ∀ s l, I s → I (step s l))
    {s : σ} (labels : List ℓ) (hs : I s) : I (runFrom step s labels) := by
  induction labels generalizing s with
  | nil => exact hs
  | cons l rest ih => exact ih (hstep s l hs)

/-- Two runs under the same labels keep a relation that every step of both keeps. -/
theorem runFrom_related {τ : Type} {step : σ → ℓ → σ} {step' : τ → ℓ → τ} {I : σ → τ → Prop}
    (hstep : ∀ s t l, I s t → I (step s l) (step' t l)) {s : σ} {t : τ} (labels : List ℓ)
    (hst : I s t) : I (runFrom step s labels) (runFrom step' t labels) := by
  induction labels generalizing s t with
  | nil => exact hst
  | cons l rest ih => exact ih (hstep s t l hst)

/-- An invariant under which every step lowers a rank that is not yet zero. -/
theorem rank_runFrom_le {step : σ → ℓ → σ} {I : σ → Prop} (rank : σ → Nat)
    (hstep : ∀ s l, I s → I (step s l) ∧ rank (step s l) ≤ rank s - 1) {s : σ} (labels : List ℓ)
    (hs : I s) :
    I (runFrom step s labels) ∧ rank (runFrom step s labels) ≤ rank s - labels.length := by
  induction labels generalizing s with
  | nil => exact ⟨hs, Nat.le_refl _⟩
  | cons l rest ih =>
    obtain ⟨hnext, hlower⟩ := hstep s l hs
    obtain ⟨hend, hrank⟩ := ih hnext
    refine ⟨hend, ?_⟩
    rw [List.length_cons, runFrom_cons]
    omega

/-- Two conditions that agree where the invariant holds agree along every run. -/
theorem along_congr {step : σ → ℓ → σ} {cond cond' : σ → ℓ → Prop} {I : σ → Prop}
    (hstep : ∀ s l, I s → I (step s l)) (hcond : ∀ s l, I s → (cond s l ↔ cond' s l)) {s : σ}
    {labels : List ℓ} (hs : I s) : Along step cond s labels ↔ Along step cond' s labels := by
  induction labels generalizing s with
  | nil => exact Iff.rfl
  | cons l rest ih => exact and_congr (hcond s l hs) (ih (hstep s l hs))

/-- A condition that implies another one where the invariant holds, and preserves the invariant. -/
theorem Along.imp_of_invariant {step : σ → ℓ → σ} {cond cond' : σ → ℓ → Prop} {I : σ → Prop}
    (hstep : ∀ s l, cond s l → I s → cond' s l ∧ I (step s l)) {s : σ} {labels : List ℓ}
    (h : Along step cond s labels) (hs : I s) : Along step cond' s labels := by
  induction labels generalizing s with
  | nil => trivial
  | cons l rest ih => exact ⟨(hstep s l h.1 hs).1, ih h.2 (hstep s l h.1 hs).2⟩

/-- A property of all states of a run, by what each step needs to preserve it. -/
theorem prefixes_iff_along {step : σ → ℓ → σ} {cond : σ → ℓ → Prop} {P : σ → Prop}
    (hstep : ∀ s l, P s → (P (step s l) ↔ cond s l)) {s : σ} {labels : List ℓ} (hs : P s) :
    (∀ before, before <+: labels → P (runFrom step s before)) ↔ Along step cond s labels := by
  induction labels generalizing s with
  | nil =>
    refine iff_of_true (fun before hbefore => ?_) trivial
    rw [List.prefix_nil.mp hbefore]
    exact hs
  | cons l rest ih =>
    constructor
    · intro h
      have hfirst : P (step s l) := h [l] ((List.prefix_cons_inj l).mpr List.nil_prefix)
      refine ⟨(hstep s l hs).mp hfirst, (ih hfirst).mp fun before hbefore => ?_⟩
      exact h (l :: before) ((List.prefix_cons_inj l).mpr hbefore)
    · rintro ⟨hcond, hrest⟩ before hbefore
      have hfirst := (hstep s l hs).mpr hcond
      cases before with
      | nil => exact hs
      | cons l' before =>
        obtain ⟨rfl, hbefore'⟩ := List.cons_prefix_cons.mp hbefore
        exact (ih hfirst).mpr hrest before hbefore'

theorem Along.and {step : σ → ℓ → σ} {cond cond' : σ → ℓ → Prop} {s : σ} {labels : List ℓ}
    (h : Along step cond s labels) (h' : Along step cond' s labels) :
    Along step (fun s l => cond s l ∧ cond' s l) s labels := by
  induction labels generalizing s with
  | nil => trivial
  | cons l rest ih => exact ⟨⟨h.1, h'.1⟩, ih h.2 h'.2⟩

/-- Some step of the run meets `cond`. -/
def Once (step : σ → ℓ → σ) (cond : σ → ℓ → Prop) (s : σ) (labels : List ℓ) : Prop :=
  ∃ before l after, labels = before ++ l :: after ∧ cond (runFrom step s before) l

theorem Once.imp {step : σ → ℓ → σ} {cond cond' : σ → ℓ → Prop} {s : σ} {labels : List ℓ}
    (h : Once step cond s labels) (himp : ∀ s l, cond s l → cond' s l) :
    Once step cond' s labels := by
  obtain ⟨before, l, after, hlabels, hcond⟩ := h
  exact ⟨before, l, after, hlabels, himp _ _ hcond⟩

theorem once_of_gained {step : σ → ℓ → σ} {P : σ → Prop} {s : σ} {labels : List ℓ} (hs : ¬ P s)
    (h : P (runFrom step s labels)) :
    Once step (fun s l => ¬ P s ∧ P (step s l)) s labels := by
  induction labels generalizing s with
  | nil => exact absurd h hs
  | cons l rest ih =>
    by_cases hfirst : P (step s l)
    · exact ⟨[], l, rest, rfl, hs, hfirst⟩
    · obtain ⟨before, l', after, hrest, hgained⟩ := ih hfirst h
      exact ⟨l :: before, l', after, congrArg (l :: ·) hrest, hgained⟩

/-- What holds after a run and not before it was gained at one of its steps, and kept since. -/
theorem gained_and_kept {step : σ → ℓ → σ} {P : σ → Prop} {s : σ} {labels : List ℓ} (hs : ¬ P s)
    (h : P (runFrom step s labels)) :
    ∃ before l after, labels = before ++ l :: after ∧ ¬ P (runFrom step s before) ∧
      ∀ later, later <+: after → P (runFrom step s (before ++ l :: later)) := by
  induction labels using List.reverseRecOn with
  | nil => exact absurd h hs
  | append_singleton labels l ih =>
    rcases Classical.em (P (runFrom step s labels)) with hheld | hlost
    · obtain ⟨before, first, after, rfl, hbefore, hkept⟩ := ih hheld
      refine ⟨before, first, after ++ [l], ?_, hbefore, fun later hlater => ?_⟩
      · rw [List.append_assoc, List.cons_append]
      · rcases List.prefix_concat_iff.mp hlater with rfl | hlater
        · rw [← List.cons_append, ← List.append_assoc]
          exact h
        · exact hkept later hlater
    · refine ⟨labels, l, [], rfl, hlost, fun later hlater => ?_⟩
      rw [List.prefix_nil.mp hlater]
      exact h

/-- What one step establishes and all later steps keep holds after the run. -/
theorem Once.kept {step : σ → ℓ → σ} {cond : σ → ℓ → Prop} {I P : σ → Prop} {s : σ}
    {labels : List ℓ} (h : Once step cond s labels) (hinv : ∀ s l, I s → I (step s l)) (hs : I s)
    (hgain : ∀ s l, I s → cond s l → P (step s l)) (hkeep : ∀ s l, I s → P s → P (step s l)) :
    P (runFrom step s labels) := by
  obtain ⟨before, l, after, rfl, hcond⟩ := h
  have hbefore : I (runFrom step s before) := runFrom_invariant hinv before hs
  rw [runFrom_append, runFrom_cons]
  have hrun := runFrom_invariant (I := fun s => I s ∧ P s)
    (fun s l hs => ⟨hinv s l hs.1, hkeep s l hs.1 hs.2⟩) after
    ⟨hinv _ l hbefore, hgain _ l hbefore hcond⟩
  exact hrun.2
