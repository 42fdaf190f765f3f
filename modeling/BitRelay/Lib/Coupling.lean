import BitRelay.Lib.Proc

/-!
# Two computations side by side

A `Coupling` says when two states count as the same and when two early answers
do. Some early answers are odd: when one of the two computations leaves with an
odd answer, the two part and nothing is said about them. `Coupled K V x y`: from
related states the two computations part, or they end alike, with values related
by `V` and states that are related again.

Results:
1. `Coupled.bind` and its companions: one rule for each construct of a handler.
2. `Coupled.bind_eq`, `Coupled.failIf`, `Coupled.ofExcept`: the same construct
   in both.
-/

namespace Proc

variable {ε σ α β α' β' : Type}

/-- How the runs of two computations are compared. -/
structure Coupling (ε σ : Type) where
  state : σ → σ → Prop
  answer : ε → ε → Prop
  odd : ε → Prop
  answer_refl : ∀ e, answer e e

namespace Coupling

/-- What two coupled computations may end with. -/
inductive Outcome (K : Coupling ε σ) (V : α → β → Prop) :
    Except ε α × σ → Except ε β × σ → Prop
  | ok {a : α} {b : β} {s t : σ} : V a b → K.state s t → Outcome K V (.ok a, s) (.ok b, t)
  | error {e e' : ε} {s t : σ} :
      K.answer e e' → K.state s t → Outcome K V (.error e, s) (.error e', t)
  | oddLeft {e : ε} {s : σ} {r : Except ε β × σ} : K.odd e → Outcome K V (.error e, s) r
  | oddRight {e : ε} {t : σ} {r : Except ε α × σ} : K.odd e → Outcome K V r (.error e, t)

end Coupling

/-- From related states the two computations part with an odd answer, or end alike. -/
def Coupled (K : Coupling ε σ) (V : α → β → Prop) (x : Proc ε σ α) (y : Proc ε σ β) : Prop :=
  ∀ s t, K.state s t → K.Outcome V (x.run s) (y.run t)

namespace Coupled

variable {K : Coupling ε σ} {V : α → β → Prop} {W : α' → β' → Prop}

theorem mono {V' : α → β → Prop} {x : Proc ε σ α} {y : Proc ε σ β} (h : Coupled K V x y)
    (hV : ∀ a b, V a b → V' a b) : Coupled K V' x y := by
  intro s t hst
  have houtcome := h s t hst
  generalize x.run s = r at houtcome ⊢
  generalize y.run t = r' at houtcome ⊢
  cases houtcome with
  | ok hab hst' => exact .ok (hV _ _ hab) hst'
  | error he hst' => exact .error he hst'
  | oddLeft he => exact .oddLeft he
  | oddRight he => exact .oddRight he

theorem pure {a : α} {b : β} (h : V a b) :
    Coupled K V (Pure.pure a : Proc ε σ α) (Pure.pure b) :=
  fun _ _ hst => .ok h hst

theorem answer {e e' : ε} (h : K.answer e e') :
    Coupled K V (Proc.answer e : Proc ε σ α) (Proc.answer e') :=
  fun _ _ hst => .error h hst

theorem gets {f : σ → α} {g : σ → β} (h : ∀ s t, K.state s t → V (f s) (g t)) :
    Coupled K V (Proc.gets f) (Proc.gets g) :=
  fun s t hst => .ok (h s t hst) hst

theorem update {f : σ → α × σ} {g : σ → β × σ}
    (h : ∀ s t, K.state s t → V (f s).1 (g t).1 ∧ K.state (f s).2 (g t).2) :
    Coupled K V (Proc.update f) (Proc.update g) :=
  fun s t hst => .ok (h s t hst).1 (h s t hst).2

theorem modify {f g : σ → σ} {V : Unit → Unit → Prop} (hV : V () ())
    (h : ∀ s t, K.state s t → K.state (f s) (g t)) :
    Coupled K V (Proc.modify f) (Proc.modify g) :=
  fun s t hst => .ok hV (h s t hst)

theorem bind {x : Proc ε σ α} {y : Proc ε σ β} {f : α → Proc ε σ α'} {g : β → Proc ε σ β'}
    (hxy : Coupled K V x y) (hfg : ∀ a b, V a b → Coupled K W (f a) (g b)) :
    Coupled K W (x >>= f) (y >>= g) := by
  intro s t hst
  have h := hxy s t hst
  rw [run_bind, run_bind]
  generalize x.run s = r at h ⊢
  generalize y.run t = r' at h ⊢
  cases h with
  | ok hab hst' => exact hfg _ _ hab _ _ hst'
  | error he hst' => exact .error he hst'
  | oddLeft he => exact .oddLeft he
  | oddRight he => exact .oddRight he

theorem ite {c : Prop} [Decidable c] {x x' : Proc ε σ α} {y y' : Proc ε σ β}
    (h : c → Coupled K V x y) (h' : ¬ c → Coupled K V x' y') :
    Coupled K V (if c then x else x') (if c then y else y') := by
  split
  · next hc => exact h hc
  · next hc => exact h' hc

/-! One value, used in both computations. -/

/-- The two computations go on with the same value. -/
theorem bind_eq {x y : Proc ε σ α} {f : α → Proc ε σ α'} {g : α → Proc ε σ β'}
    (hxy : Coupled K (· = ·) x y) (hfg : ∀ a, Coupled K W (f a) (g a)) :
    Coupled K W (x >>= f) (y >>= g) :=
  hxy.bind fun a b hab => by
    subst hab
    exact hfg a

theorem failIf (c : Prop) [Decidable c] (e : ε) :
    Coupled K (· = ·) (Proc.failIf c e : Proc ε σ Unit) (Proc.failIf c e) := by
  unfold Proc.failIf
  split
  · exact answer (K.answer_refl e)
  · exact pure rfl

theorem failWith (o : Option ε) :
    Coupled K (· = ·) (Proc.failWith o : Proc ε σ Unit) (Proc.failWith o) := by
  cases o with
  | none => exact pure rfl
  | some e => exact answer (K.answer_refl e)

theorem ofExcept (v : Except ε α) :
    Coupled K (· = ·) (Proc.ofExcept v : Proc ε σ α) (Proc.ofExcept v) := by
  cases v with
  | ok a => exact pure rfl
  | error e => exact answer (K.answer_refl e)

theorem gets_eq {f : σ → α} (h : ∀ s t, K.state s t → f s = f t) :
    Coupled K (· = ·) (Proc.gets f) (Proc.gets f) :=
  gets h

end Coupled

end Proc
