import Mathlib.Logic.Relation

/-!
# Stateful computations that may leave early

`Proc ε σ α` is a computation over a state `σ`. It ends with a value of `α`, or
it leaves early with an answer of `ε`; the state reached so far is kept in both
cases. This is the shape of a request handler: every `return` in the middle of
its body is an early answer.

Rules:
1. `run_bind` and its companions evaluate a computation; `bind_ok` and its
   companions take a successful one apart, `bind_eq_ok` and its companions both ways.
2. `Leads R x`: whatever `x` does to the state is a chain of `R` steps, and
   `LeadsFrom P R x`: it is one from the states that satisfy `P`.
3. `Triple P x Q E`: from a state that satisfies `P`, a success of `x` satisfies
   `Q` and an early answer `E`.
4. `SameAnswer E x`: on two `E`-related states `x` gives the same result (the
   two-run property of an observer that cannot tell related states apart).
5. `Answers P x`: every early answer of `x` satisfies `P`; `AnswersFrom I P x`: it does from the
   states that satisfy `I`.
6. `Upholds I x Q`: `x` keeps the invariant `I`, and its value satisfies `Q`.
-/

/-- A computation over `σ` with early answers in `ε`. -/
def Proc (ε σ α : Type) : Type := σ → Except ε α × σ

namespace Proc

variable {ε σ α β : Type}

/-! ## The monad -/

def run (x : Proc ε σ α) (s : σ) : Except ε α × σ := x s

def ret (a : α) : Proc ε σ α := fun s => (.ok a, s)

/-- Go on with the value, or leave as `x` did. -/
def andThen (x : Proc ε σ α) (f : α → Proc ε σ β) : Proc ε σ β := fun s =>
  match x s with
  | (.ok a, s') => f a s'
  | (.error e, s') => (.error e, s')

instance : Monad (Proc ε σ) where
  pure := ret
  bind := andThen

/-- Leave with the answer `e`. -/
def answer (e : ε) : Proc ε σ α := fun s => (.error e, s)

/-- `if (c) return e;` -/
def failIf (c : Prop) [Decidable c] (e : ε) : Proc ε σ Unit := if c then answer e else pure ()

/-- Leave with the answer, if there is one. -/
def failWith : Option ε → Proc ε σ Unit
  | none => pure ()
  | some e => answer e

/-- Take the value, or leave with the answer. -/
def ofExcept : Except ε α → Proc ε σ α
  | .ok a => pure a
  | .error e => answer e

def gets (f : σ → α) : Proc ε σ α := fun s => (.ok (f s), s)

def modify (f : σ → σ) : Proc ε σ Unit := fun s => (.ok (), f s)

/-- Read a value and update the state in one step. -/
def update (f : σ → α × σ) : Proc ε σ α := fun s => (.ok (f s).1, (f s).2)

/-! ## Evaluation -/

@[simp] theorem run_pure (a : α) (s : σ) : (pure a : Proc ε σ α).run s = (.ok a, s) := rfl

@[simp] theorem run_answer (e : ε) (s : σ) : (answer e : Proc ε σ α).run s = (.error e, s) := rfl

@[simp] theorem run_gets (f : σ → α) (s : σ) : (gets f : Proc ε σ α).run s = (.ok (f s), s) := rfl

@[simp] theorem run_modify (f : σ → σ) (s : σ) :
    (modify f : Proc ε σ Unit).run s = (.ok (), f s) := rfl

@[simp] theorem run_update (f : σ → α × σ) (s : σ) :
    (update f : Proc ε σ α).run s = (.ok (f s).1, (f s).2) := rfl

theorem run_bind (x : Proc ε σ α) (f : α → Proc ε σ β) (s : σ) :
    (x >>= f).run s =
      match x.run s with
      | (.ok a, s') => (f a).run s'
      | (.error e, s') => (.error e, s') := rfl

theorem run_bind_of_ok {x : Proc ε σ α} {s s' : σ} {a : α} (h : x.run s = (.ok a, s'))
    (f : α → Proc ε σ β) : (x >>= f).run s = (f a).run s' := by
  rw [run_bind, h]

theorem run_bind_of_error {x : Proc ε σ α} {s s' : σ} {e : ε} (h : x.run s = (.error e, s'))
    (f : α → Proc ε σ β) : (x >>= f).run s = (.error e, s') := by
  rw [run_bind, h]

theorem run_failIf (c : Prop) [Decidable c] (e : ε) (s : σ) :
    (failIf c e : Proc ε σ Unit).run s = if c then (.error e, s) else (.ok (), s) := by
  unfold failIf
  split <;> rfl

@[simp] theorem run_failWith_none (s : σ) : (failWith none : Proc ε σ Unit).run s = (.ok (), s) :=
  rfl

@[simp] theorem run_failWith_some (e : ε) (s : σ) :
    (failWith (some e) : Proc ε σ Unit).run s = (.error e, s) := rfl

instance : LawfulMonad (Proc ε σ) := LawfulMonad.mk' _
  (fun x => by
    funext s
    change (x >>= fun a => Pure.pure a).run s = x.run s
    rw [run_bind]
    match x.run s with
    | (.ok a, s') => rfl
    | (.error e, s') => rfl)
  (fun _ _ => rfl)
  (fun x f g => by
    funext s
    change ((x >>= f) >>= g).run s = (x >>= fun a => f a >>= g).run s
    rw [run_bind, run_bind, run_bind]
    match x.run s with
    | (.ok a, s') => rfl
    | (.error e, s') => rfl)

/-- What follows reads the state only. -/
theorem run_bind_state {x : Proc ε σ α} {f : α → Proc ε σ β}
    (hf : ∀ a s, ((f a).run s).2 = s) (s : σ) : ((x >>= f).run s).2 = (x.run s).2 := by
  rw [run_bind]
  match x.run s with
  | (.ok a, s') => exact hf a s'
  | (.error e, s') => rfl

theorem answer_bind (e : ε) (f : α → Proc ε σ β) :
    (answer e : Proc ε σ α) >>= f = answer e := rfl

/-! ## Taking a successful computation apart -/

theorem bind_ok {x : Proc ε σ α} {f : α → Proc ε σ β} {s s'' : σ} {b : β}
    (h : (x >>= f).run s = (.ok b, s'')) :
    ∃ a s', x.run s = (.ok a, s') ∧ (f a).run s' = (.ok b, s'') := by
  rw [run_bind] at h
  match hx : x.run s with
  | (.ok a, s') =>
    rw [hx] at h
    exact ⟨a, s', rfl, h⟩
  | (.error e, s') =>
    rw [hx] at h
    cases h

theorem failIf_ok {c : Prop} [Decidable c] {e : ε} {s s' : σ} {u : Unit}
    (h : (failIf c e : Proc ε σ Unit).run s = (.ok u, s')) : ¬ c ∧ s' = s := by
  rw [run_failIf] at h
  split at h
  · cases h
  · next hc =>
    cases h
    exact ⟨hc, rfl⟩

theorem failWith_ok {o : Option ε} {s s' : σ} {u : Unit}
    (h : (failWith o : Proc ε σ Unit).run s = (.ok u, s')) : o = none ∧ s' = s := by
  cases o with
  | none =>
    cases h
    exact ⟨rfl, rfl⟩
  | some e => cases h

theorem ofExcept_ok {x : Except ε α} {s s' : σ} {a : α}
    (h : (ofExcept x : Proc ε σ α).run s = (.ok a, s')) : x = .ok a ∧ s' = s := by
  cases x with
  | ok b =>
    cases h
    exact ⟨rfl, rfl⟩
  | error e => cases h

/-! ### Both ways -/

theorem pure_eq_ok {a b : α} {s s' : σ} :
    (pure a : Proc ε σ α).run s = (.ok b, s') ↔ b = a ∧ s' = s := by
  rw [run_pure, Prod.mk.injEq, Except.ok.injEq, eq_comm (a := a), eq_comm (a := s)]

theorem bind_eq_ok {x : Proc ε σ α} {f : α → Proc ε σ β} {s s'' : σ} {b : β} :
    (x >>= f).run s = (.ok b, s'') ↔
      ∃ a s', x.run s = (.ok a, s') ∧ (f a).run s' = (.ok b, s'') := by
  refine ⟨bind_ok, ?_⟩
  rintro ⟨a, s', hx, hf⟩
  rw [run_bind_of_ok hx, hf]

/-! ## What a computation can do to the state -/

/-- Whatever `x` does to the state is a chain of `R` steps. -/
def Leads (R : σ → σ → Prop) (x : Proc ε σ α) : Prop :=
  ∀ s, Relation.ReflTransGen R s (x.run s).2

namespace Leads

variable {R R' : σ → σ → Prop}

theorem pure (a : α) : Leads R (Pure.pure a : Proc ε σ α) := fun _ => .refl

theorem answer (e : ε) : Leads R (Proc.answer e : Proc ε σ α) := fun _ => .refl

theorem gets (f : σ → α) : Leads R (Proc.gets f : Proc ε σ α) := fun _ => .refl

theorem failIf (c : Prop) [Decidable c] (e : ε) : Leads R (Proc.failIf c e : Proc ε σ Unit) := by
  intro s
  rw [run_failIf]
  split <;> exact .refl

theorem failWith (o : Option ε) : Leads R (Proc.failWith o : Proc ε σ Unit) := by
  cases o with
  | none => exact pure ()
  | some e => exact answer e

theorem ofExcept (x : Except ε α) : Leads R (Proc.ofExcept x : Proc ε σ α) := by
  cases x with
  | ok a => exact pure a
  | error e => exact answer e

theorem modify {f : σ → σ} (h : ∀ s, R s (f s)) : Leads R (Proc.modify f : Proc ε σ Unit) :=
  fun s => .single (h s)

theorem update {f : σ → α × σ} (h : ∀ s, Relation.ReflTransGen R s (f s).2) :
    Leads R (Proc.update f : Proc ε σ α) := h

theorem bind {x : Proc ε σ α} {f : α → Proc ε σ β} (hx : Leads R x) (hf : ∀ a, Leads R (f a)) :
    Leads R (x >>= f) := by
  intro s
  have h := hx s
  rw [run_bind]
  match hs : x.run s with
  | (.ok a, s') =>
    rw [hs] at h
    exact h.trans (hf a s')
  | (.error e, s') =>
    rw [hs] at h
    exact h

theorem ite {c : Prop} [Decidable c] {x y : Proc ε σ α} (hx : Leads R x) (hy : Leads R y) :
    Leads R (if c then x else y) := by
  split
  · exact hx
  · exact hy

/-! The guards of a body: what follows a guard may use that it held. -/

theorem failIf_bind {c : Prop} [Decidable c] {e : ε} {f : Unit → Proc ε σ α}
    (h : ¬ c → Leads R (f ())) : Leads R (Proc.failIf c e >>= f) := by
  intro s
  rw [run_bind, run_failIf]
  by_cases hc : c
  · rw [if_pos hc]
  · rw [if_neg hc]
    exact h hc s

theorem failWith_bind {o : Option ε} {f : Unit → Proc ε σ α}
    (h : o = none → Leads R (f ())) : Leads R (Proc.failWith o >>= f) := by
  cases o with
  | none => exact h rfl
  | some e => exact fun _ => .refl

theorem ofExcept_bind {x : Except ε β} {f : β → Proc ε σ α}
    (h : ∀ b, x = .ok b → Leads R (f b)) : Leads R (Proc.ofExcept x >>= f) := by
  cases x with
  | ok b => exact h b rfl
  | error e => exact fun _ => .refl

theorem mono {x : Proc ε σ α} (h : Leads R x) (hR : ∀ s s', R s s' → R' s s') : Leads R' x :=
  fun s => Relation.ReflTransGen.mono hR _ _ (h s)

/-- An invariant of the steps is an invariant of the computation. -/
theorem keeps {x : Proc ε σ α} (h : Leads R x) {I : σ → Prop} (hI : ∀ s s', R s s' → I s → I s')
    {s : σ} (hs : I s) : I (x.run s).2 := by
  have hchain : ∀ s', Relation.ReflTransGen R s s' → I s' := by
    intro s' hs'
    induction hs' with
    | refl => exact hs
    | tail _ hstep ih => exact hI _ _ hstep ih
  exact hchain _ (h s)

end Leads

/-- From a state that satisfies `P`, whatever `x` does to the state is a chain of `R` steps. -/
def LeadsFrom (P : σ → Prop) (R : σ → σ → Prop) (x : Proc ε σ α) : Prop :=
  ∀ s, P s → Relation.ReflTransGen R s (x.run s).2

/-- What `x` ensures when it succeeds is a precondition of what follows it. -/
theorem Leads.bind_post {R : σ → σ → Prop} {x : Proc ε σ α} {f : α → Proc ε σ β}
    {Q : α → σ → Prop} (hx : Leads R x) (hQ : ∀ s a s', x.run s = (.ok a, s') → Q a s')
    (hf : ∀ a, LeadsFrom (Q a) R (f a)) : Leads R (x >>= f) := by
  intro s
  have h := hx s
  rw [run_bind]
  match hs : x.run s with
  | (.ok a, s') =>
    rw [hs] at h
    exact h.trans (hf a s' (hQ s a s' hs))
  | (.error e, s') =>
    rw [hs] at h
    exact h

/-! ## Pre- and postconditions -/

/-- From a state that satisfies `P`, a success of `x` satisfies `Q` and an early answer `E`. -/
def Triple (P : σ → Prop) (x : Proc ε σ α) (Q : α → σ → Prop) (E : σ → Prop) : Prop :=
  ∀ s, P s → (∀ a s', x.run s = (.ok a, s') → Q a s') ∧ (∀ e s', x.run s = (.error e, s') → E s')

namespace Triple

variable {P P' : σ → Prop} {x : Proc ε σ α} {Q Q' : α → σ → Prop} {E E' : σ → Prop}

theorem conseq (h : Triple P x Q E) (hP : ∀ s, P' s → P s) (hQ : ∀ a s, Q a s → Q' a s)
    (hE : ∀ s, E s → E' s) : Triple P' x Q' E' := by
  intro s hs
  obtain ⟨hok, herror⟩ := h s (hP s hs)
  exact ⟨fun a s' hr => hQ a s' (hok a s' hr), fun e s' hr => hE s' (herror e s' hr)⟩

theorem pure {a : α} (h : ∀ s, P s → Q a s) :
    Triple P (Pure.pure a : Proc ε σ α) Q E := by
  intro s hs
  refine ⟨fun b s' hr => ?_, fun e s' hr => ?_⟩
  · cases hr
    exact h s hs
  · cases hr

theorem bind {f : α → Proc ε σ β} {Q' : β → σ → Prop} (hx : Triple P x Q E)
    (hf : ∀ a, Triple (Q a) (f a) Q' E) : Triple P (x >>= f) Q' E := by
  intro s hs
  obtain ⟨hok, herror⟩ := hx s hs
  rw [run_bind]
  match hr : x.run s with
  | (.ok a, s') => exact hf a s' (hok a s' hr)
  | (.error e, s') =>
    refine ⟨fun b s'' h => ?_, fun e' s'' h => ?_⟩
    · cases h
    · cases h
      exact herror e s' hr

theorem answer {e : ε} (h : ∀ s, P s → E s) : Triple P (Proc.answer e : Proc ε σ α) Q E := by
  intro s hs
  refine ⟨fun a s' hr => ?_, fun e' s' hr => ?_⟩
  · cases hr
  · cases hr
    exact h s hs

theorem failIf {c : Prop} [Decidable c] {e : ε} (h : ∀ s, P s → E s) :
    Triple P (Proc.failIf c e : Proc ε σ Unit) (fun _ s => ¬ c ∧ P s) E := by
  unfold Proc.failIf
  split
  · exact answer h
  · next hc => exact pure fun s hs => ⟨hc, hs⟩

theorem failWith {o : Option ε} (h : ∀ s, P s → E s) :
    Triple P (Proc.failWith o : Proc ε σ Unit) (fun _ s => o = none ∧ P s) E := by
  cases o with
  | none => exact pure fun s hs => ⟨rfl, hs⟩
  | some e => exact answer h

theorem ofExcept {y : Except ε α} (h : ∀ s, P s → E s) :
    Triple P (Proc.ofExcept y : Proc ε σ α) (fun a s => y = .ok a ∧ P s) E := by
  cases y with
  | ok a => exact pure fun s hs => ⟨rfl, hs⟩
  | error e => exact answer h

theorem gets (f : σ → α) : Triple P (Proc.gets f : Proc ε σ α) (fun a s => f s = a ∧ P s) E := by
  intro s hs
  refine ⟨fun a s' hr => ?_, fun e s' hr => ?_⟩
  · cases hr
    exact ⟨rfl, hs⟩
  · cases hr

theorem update {f : σ → α × σ} (h : ∀ s, P s → Q (f s).1 (f s).2) :
    Triple P (Proc.update f : Proc ε σ α) Q E := by
  intro s hs
  refine ⟨fun a s' hr => ?_, fun e s' hr => ?_⟩
  · cases hr
    exact h s hs
  · cases hr

theorem modify {f : σ → σ} {Q : Unit → σ → Prop} (h : ∀ s, P s → Q () (f s)) :
    Triple P (Proc.modify f : Proc ε σ Unit) Q E := by
  intro s hs
  refine ⟨fun a s' hr => ?_, fun e s' hr => ?_⟩
  · cases hr
    exact h s hs
  · cases hr

theorem ite {c : Prop} [Decidable c] {y : Proc ε σ α} (hx : c → Triple P x Q E)
    (hy : ¬ c → Triple P y Q E) : Triple P (if c then x else y) Q E := by
  split
  · next hc => exact hx hc
  · next hc => exact hy hc

theorem and {P' : σ → Prop} {Q' : α → σ → Prop} {E' : σ → Prop} (h : Triple P x Q E)
    (h' : Triple P' x Q' E') :
    Triple (fun s => P s ∧ P' s) x (fun a s => Q a s ∧ Q' a s) (fun s => E s ∧ E' s) := by
  intro s hs
  obtain ⟨hok, herror⟩ := h s hs.1
  obtain ⟨hok', herror'⟩ := h' s hs.2
  exact ⟨fun a s' hr => ⟨hok a s' hr, hok' a s' hr⟩,
    fun e s' hr => ⟨herror e s' hr, herror' e s' hr⟩⟩

/-- A fact that does not depend on the state comes out of the precondition. -/
theorem of_fact {c : Prop} (h : c → Triple P x Q E) : Triple (fun s => c ∧ P s) x Q E :=
  fun s hs => h hs.1 s hs.2

/-- What every step of `x` leaves alone, `x` leaves alone. -/
theorem of_leads {R : σ → σ → Prop} {I : σ → Prop} (h : Leads R x)
    (hI : ∀ s s', R s s' → I s → I s') : Triple I x (fun _ => I) I := by
  intro s hs
  have hI' := h.keeps hI hs
  refine ⟨fun a s' hr => ?_, fun e s' hr => ?_⟩
  · rw [hr] at hI'
    exact hI'
  · rw [hr] at hI'
    exact hI'

end Triple

/-! ## What a computation can tell -/

/-- On `E`-related states `x` gives one result. -/
def SameAnswer (E : σ → σ → Prop) (x : Proc ε σ α) : Prop :=
  ∀ s t, E s t → (x.run s).1 = (x.run t).1

namespace SameAnswer

variable {E : σ → σ → Prop}

theorem pure (a : α) : SameAnswer E (Pure.pure a : Proc ε σ α) := fun _ _ _ => rfl

theorem answer (e : ε) : SameAnswer E (Proc.answer e : Proc ε σ α) := fun _ _ _ => rfl

theorem gets {f : σ → α} (h : ∀ s t, E s t → f s = f t) :
    SameAnswer E (Proc.gets f : Proc ε σ α) :=
  fun s t hst => congrArg Except.ok (h s t hst)

theorem update {f : σ → α × σ} (h : ∀ s t, E s t → (f s).1 = (f t).1) :
    SameAnswer E (Proc.update f : Proc ε σ α) :=
  fun s t hst => congrArg Except.ok (h s t hst)

/-- Only what `x` says goes on. -/
theorem map {x : Proc ε σ α} (h : SameAnswer E x) (f : α → β) :
    SameAnswer E (x >>= fun a => Pure.pure (f a)) := by
  intro s t hst
  have hx := h s t hst
  rw [run_bind, run_bind]
  match hs : x.run s, ht : x.run t with
  | (.ok a, s'), (.ok b, t') =>
    rw [hs, ht] at hx
    cases hx
    rfl
  | (.error e, s'), (.error e', t') =>
    rw [hs, ht] at hx
    cases hx
    rfl
  | (.ok a, s'), (.error e, t') =>
    rw [hs, ht] at hx
    cases hx
  | (.error e, s'), (.ok a, t') =>
    rw [hs, ht] at hx
    cases hx

theorem gets_bind {f : σ → β} {k : β → Proc ε σ α} (h : ∀ s t, E s t → f s = f t)
    (hk : ∀ b, SameAnswer E (k b)) : SameAnswer E (Proc.gets f >>= k) := by
  intro s t hst
  change ((k (f s)).run s).1 = ((k (f t)).run t).1
  rw [h s t hst]
  exact hk (f t) s t hst

theorem failIf_bind {c : Prop} [Decidable c] {e : ε} {k : Unit → Proc ε σ α}
    (h : ¬ c → SameAnswer E (k ())) : SameAnswer E (Proc.failIf c e >>= k) := by
  unfold Proc.failIf
  split
  · exact answer e
  · next hc => exact h hc

theorem failWith_bind {o : Option ε} {k : Unit → Proc ε σ α}
    (h : o = none → SameAnswer E (k ())) : SameAnswer E (Proc.failWith o >>= k) := by
  cases o with
  | none => exact h rfl
  | some e => exact answer e

theorem ofExcept_bind {x : Except ε β} {k : β → Proc ε σ α}
    (h : ∀ b, x = .ok b → SameAnswer E (k b)) : SameAnswer E (Proc.ofExcept x >>= k) := by
  cases x with
  | ok b => exact h b rfl
  | error e => exact answer e

theorem ite {c : Prop} [Decidable c] {x y : Proc ε σ α} (hx : c → SameAnswer E x)
    (hy : ¬ c → SameAnswer E y) : SameAnswer E (if c then x else y) := by
  split
  · next hc => exact hx hc
  · next hc => exact hy hc

end SameAnswer

/-! ## Early answers -/

/-- Every early answer of `x` satisfies `P`. -/
def Answers (P : ε → Prop) (x : Proc ε σ α) : Prop := ∀ s e s', x.run s = (.error e, s') → P e

namespace Answers

variable {P : ε → Prop}

theorem pure (a : α) : Answers P (Pure.pure a : Proc ε σ α) := by
  rintro s e s' h
  cases h

theorem gets (f : σ → α) : Answers P (Proc.gets f : Proc ε σ α) := by
  rintro s e s' h
  cases h

theorem modify (f : σ → σ) : Answers P (Proc.modify f : Proc ε σ Unit) := by
  rintro s e s' h
  cases h

theorem update (f : σ → α × σ) : Answers P (Proc.update f : Proc ε σ α) := by
  rintro s e s' h
  cases h

theorem answer {e : ε} (h : P e) : Answers P (Proc.answer e : Proc ε σ α) := by
  rintro s e' s' hrun
  cases hrun
  exact h

theorem failIf {c : Prop} [Decidable c] {e : ε} (h : P e) :
    Answers P (Proc.failIf c e : Proc ε σ Unit) := by
  unfold Proc.failIf
  split
  · exact answer h
  · exact pure ()

theorem failWith {o : Option ε} (h : ∀ e, o = some e → P e) :
    Answers P (Proc.failWith o : Proc ε σ Unit) := by
  cases o with
  | none => exact pure ()
  | some e => exact answer (h e rfl)

theorem ofExcept {y : Except ε α} (h : ∀ e, y = .error e → P e) :
    Answers P (Proc.ofExcept y : Proc ε σ α) := by
  cases y with
  | ok a => exact pure a
  | error e => exact answer (h e rfl)

theorem bind {x : Proc ε σ α} {f : α → Proc ε σ β} (hx : Answers P x)
    (hf : ∀ a, Answers P (f a)) : Answers P (x >>= f) := by
  intro s e s' h
  rw [run_bind] at h
  match hrun : x.run s with
  | (.ok a, s₁) =>
    rw [hrun] at h
    exact hf a s₁ e s' h
  | (.error e₁, s₁) =>
    rw [hrun] at h
    cases h
    exact hx s e s' hrun

end Answers

/-- From a state that satisfies `I`, every early answer of `x` satisfies `P`. -/
def AnswersFrom (I : σ → Prop) (P : ε → Prop) (x : Proc ε σ α) : Prop :=
  ∀ s, I s → ∀ e s', x.run s = (.error e, s') → P e

theorem Answers.answersFrom {P : ε → Prop} {x : Proc ε σ α} (h : Answers P x) (I : σ → Prop) :
    AnswersFrom I P x := fun s _ => h s

/-- What `x` ensures when it succeeds is a precondition of what follows it. -/
theorem AnswersFrom.bind {I : σ → Prop} {P : ε → Prop} {x : Proc ε σ α} {f : α → Proc ε σ β}
    {Q : α → σ → Prop} (hx : AnswersFrom I P x)
    (hQ : ∀ s, I s → ∀ a s', x.run s = (.ok a, s') → Q a s')
    (hf : ∀ a, AnswersFrom (Q a) P (f a)) : AnswersFrom I P (x >>= f) := by
  intro s hs e s' h
  rw [run_bind] at h
  match hrun : x.run s with
  | (.ok a, s₁) =>
    rw [hrun] at h
    exact hf a s₁ (hQ s hs a s₁ hrun) e s' h
  | (.error e₁, s₁) =>
    rw [hrun] at h
    cases h
    exact hx s hs e s' hrun

/-! ## Invariants -/

/-- From a state that satisfies `I`, `x` ends in one, and its value satisfies `Q`. -/
def Upholds (I : σ → Prop) (x : Proc ε σ α) (Q : α → Prop) : Prop :=
  ∀ s, I s → I (x.run s).2 ∧ ∀ a s', x.run s = (.ok a, s') → Q a

namespace Upholds

variable {I : σ → Prop} {x : Proc ε σ α} {Q Q' : α → Prop}

theorem pure {a : α} (h : Q a) : Upholds I (Pure.pure a : Proc ε σ α) Q := by
  intro s hs
  refine ⟨hs, fun b s' hr => ?_⟩
  cases hr
  exact h

theorem answer (e : ε) : Upholds I (Proc.answer e : Proc ε σ α) Q := by
  intro s hs
  refine ⟨hs, fun b s' hr => ?_⟩
  cases hr

theorem failIf (c : Prop) [Decidable c] (e : ε) :
    Upholds I (Proc.failIf c e : Proc ε σ Unit) (fun _ => ¬ c) := by
  unfold Proc.failIf
  split
  · exact answer e
  · next hc => exact pure hc

theorem failWith (o : Option ε) :
    Upholds I (Proc.failWith o : Proc ε σ Unit) (fun _ => o = none) := by
  cases o with
  | none => exact pure rfl
  | some e => exact answer e

theorem ofExcept (y : Except ε α) :
    Upholds I (Proc.ofExcept y : Proc ε σ α) (fun a => y = .ok a) := by
  cases y with
  | ok a => exact pure rfl
  | error e => exact answer e

theorem gets {f : σ → α} (h : ∀ s, I s → Q (f s)) : Upholds I (Proc.gets f : Proc ε σ α) Q := by
  intro s hs
  refine ⟨hs, fun a s' hr => ?_⟩
  cases hr
  exact h s hs

theorem modify {f : σ → σ} (h : ∀ s, I s → I (f s)) :
    Upholds I (Proc.modify f : Proc ε σ Unit) (fun _ => True) :=
  fun s hs => ⟨h s hs, fun _ _ _ => trivial⟩

theorem update {f : σ → α × σ} (h : ∀ s, I s → Q (f s).1 ∧ I (f s).2) :
    Upholds I (Proc.update f : Proc ε σ α) Q := by
  intro s hs
  refine ⟨(h s hs).2, fun a s' hr => ?_⟩
  cases hr
  exact (h s hs).1

theorem bind {f : α → Proc ε σ β} {Q' : β → Prop} (hx : Upholds I x Q)
    (hf : ∀ a, Q a → Upholds I (f a) Q') : Upholds I (x >>= f) Q' := by
  intro s hs
  obtain ⟨hI, hQ⟩ := hx s hs
  rw [run_bind]
  match hr : x.run s with
  | (.ok a, s') =>
    rw [hr] at hI
    exact hf a (hQ a s' hr) s' hI
  | (.error e, s') =>
    rw [hr] at hI
    refine ⟨hI, fun b s'' h => ?_⟩
    cases h

theorem ite {c : Prop} [Decidable c] {y : Proc ε σ α} (hx : c → Upholds I x Q)
    (hy : ¬ c → Upholds I y Q) : Upholds I (if c then x else y) Q := by
  split
  · next hc => exact hx hc
  · next hc => exact hy hc

theorem mono (h : Upholds I x Q) (hQ : ∀ a, Q a → Q' a) : Upholds I x Q' :=
  fun s hs => ⟨(h s hs).1, fun a s' hr => hQ a ((h s hs).2 a s' hr)⟩

/-- What every step of `x` leaves alone, `x` leaves alone; its value may be known otherwise. -/
theorem of_leads {R : σ → σ → Prop} (h : Leads R x) (hI : ∀ s s', R s s' → I s → I s')
    (hQ : ∀ s a s', x.run s = (.ok a, s') → Q a) : Upholds I x Q :=
  fun s hs => ⟨h.keeps hI hs, hQ s⟩

end Upholds

end Proc
