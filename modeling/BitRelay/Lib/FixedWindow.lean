import Mathlib.Data.List.Induction
import Mathlib.Data.List.Pairwise

/-!
# Fixed-window counters

A counter counts the hits of a window and decides each of them by its rank in it. A hit that comes
a window's length or more behind the start of the window begins the next one.

Results:
1. `windowed_decisions`: the hits fall into windows, and in each of them the first `limit` hits are
   allowed.
2. `Windowed.countP_le`: any interval of the length of a window has at most twice the limit of
   allowed hits.
3. `allowed_of_reopens`, `windowStart_of_refused`: a hit that no window holds is allowed, and a
   refused hit moves no window.
-/

namespace FixedWindow

/-! ## Counters -/

structure Counter where
  count : Nat
  start : Nat
  deriving DecidableEq

/-- The counter after a hit. -/
def hit (size : Nat) (counter : Option Counter) (now : Nat) : Counter :=
  match counter with
  | none => ⟨1, now⟩
  | some c => if size ≤ now - c.start then ⟨1, now⟩ else ⟨c.count + 1, c.start⟩

/-- The hits at these times, each with its decision. -/
def decisions (size limit : Nat) : Option Counter → List Nat → List (Nat × Bool)
  | _, [] => []
  | counter, now :: times =>
    (now, decide ((hit size counter now).count ≤ limit)) ::
      decisions size limit (some (hit size counter now)) times

/-- Hits of one window with their decisions, behind `rank` hits of it. -/
def ranked (limit : Nat) : Nat → List Nat → List (Nat × Bool)
  | _, [] => []
  | rank, now :: times => (now, decide (rank < limit)) :: ranked limit (rank + 1) times

/-- The hits fall into windows. Each begins with its first hit, lasts for `size`, and allows its
first `limit` hits. -/
inductive Windowed (size limit : Nat) : List (Nat × Bool) → Prop
  | nil : Windowed size limit []
  | window (start : Nat) (later : List Nat) (rest : List (Nat × Bool))
      (within : ∀ t ∈ later, t < start + size)
      (next : ∀ h, rest.head? = some h → start + size ≤ h.1) (windows : Windowed size limit rest) :
      Windowed size limit (ranked limit 0 (start :: later) ++ rest)

/-- The start of the window that is open after the hits. -/
def windowStart (size : Nat) (times : List Nat) : Option Nat :=
  times.foldl (fun start now =>
    match start with
    | none => some now
    | some s => if size ≤ now - s then some now else some s) none

/-- No window is open at `now`. -/
def Reopens (size : Nat) (before : List Nat) (now : Nat) : Prop :=
  ∀ start, windowStart size before = some start → start + size ≤ now

variable {size limit : Nat} {times : List Nat} {hits : List (Nat × Bool)}

/-! ## The hits of a window -/

theorem map_fst_ranked (limit rank : Nat) (times : List Nat) :
    (ranked limit rank times).map Prod.fst = times := by
  induction times generalizing rank with
  | nil => rfl
  | cons now times ih => rw [ranked, List.map_cons, ih]

/-- At most `limit - rank` hits are allowed behind `rank` hits of the window. -/
theorem countP_ranked_le (limit rank : Nat) (times : List Nat) (p : Nat → Bool) :
    (ranked limit rank times).countP (fun h => h.2 && p h.1) ≤ limit - rank := by
  induction times generalizing rank with
  | nil => exact Nat.zero_le _
  | cons now times ih =>
    have hrest := ih (rank + 1)
    rw [ranked, List.countP_cons]
    by_cases hrank : rank < limit
    · split <;> omega
    · simp only [hrank, decide_false, Bool.false_and, Bool.false_eq_true, if_false]
      omega

/-! ## Windows of a run -/

/-- The hits behind an open window: some still belong to it, and the others begin windows. -/
theorem decisions_open (size limit : Nat) {c : Counter} (hsorted : times.Pairwise (· ≤ ·))
    (hstart : ∀ t ∈ times, c.start ≤ t) :
    ∃ later rest, decisions size limit (some c) times = ranked limit c.count later ++ rest ∧
      (∀ t ∈ later, t < c.start + size) ∧
      (∀ h, rest.head? = some h → c.start + size ≤ h.1) ∧ Windowed size limit rest := by
  induction times generalizing c with
  | nil => exact ⟨[], [], rfl, by simp, by simp, .nil⟩
  | cons now times ih =>
    obtain ⟨hfirst, hrest⟩ := List.pairwise_cons.mp hsorted
    have hnow : c.start ≤ now := hstart now List.mem_cons_self
    by_cases hnew : size ≤ now - c.start
    · -- The hit begins the next window.
      have hhit : hit size (some c) now = ⟨1, now⟩ := if_pos hnew
      obtain ⟨later, rest, heq, hwithin, hnext, hwindows⟩ := @ih ⟨1, now⟩ hrest hfirst
      refine ⟨[], decisions size limit (some c) (now :: times), rfl, by simp, ?_, ?_⟩
      · intro h hh
        cases hh
        show c.start + size ≤ now
        omega
      · rw [decisions, hhit, heq]
        exact .window now later rest hwithin hnext hwindows
    · have hhit : hit size (some c) now = ⟨c.count + 1, c.start⟩ := if_neg hnew
      obtain ⟨later, rest, heq, hwithin, hnext, hwindows⟩ :=
        @ih ⟨c.count + 1, c.start⟩ hrest fun t ht => Nat.le_trans hnow (hfirst t ht)
      refine ⟨now :: later, rest, ?_, ?_, hnext, hwindows⟩
      · rw [decisions, hhit, heq, ranked]
        rfl
      · refine List.forall_mem_cons.mpr ⟨by omega, hwithin⟩

/-- The hits of a fresh counter fall into windows. -/
theorem windowed_decisions (hsorted : times.Pairwise (· ≤ ·)) :
    Windowed size limit (decisions size limit none times) := by
  cases times with
  | nil => exact .nil
  | cons now times =>
    obtain ⟨hfirst, hrest⟩ := List.pairwise_cons.mp hsorted
    obtain ⟨later, rest, heq, hwithin, hnext, hwindows⟩ :=
      @decisions_open _ size limit ⟨1, now⟩ hrest hfirst
    rw [decisions]
    show Windowed size limit ((now, decide (0 < limit)) ::
      decisions size limit (some ⟨1, now⟩) times)
    rw [heq]
    exact .window now later rest hwithin hnext hwindows

/-! ## Where windows begin -/

/-- The counter after hits at these times. -/
def counterAfter (size : Nat) (counter : Option Counter) (times : List Nat) : Option Counter :=
  times.foldl (fun counter now => some (hit size counter now)) counter

theorem decisions_append (counter : Option Counter) (times times' : List Nat) :
    decisions size limit counter (times ++ times') =
      decisions size limit counter times ++
        decisions size limit (counterAfter size counter times) times' := by
  induction times generalizing counter with
  | nil => rfl
  | cons now times ih =>
    rw [List.cons_append, decisions, decisions, ih]
    rfl

theorem map_fst_decisions (size limit : Nat) (counter : Option Counter) (times : List Nat) :
    (decisions size limit counter times).map Prod.fst = times := by
  induction times generalizing counter with
  | nil => rfl
  | cons now times ih => rw [decisions, List.map_cons, ih]

theorem counterAfter_concat (counter : Option Counter) (times : List Nat) (now : Nat) :
    counterAfter size counter (times ++ [now]) =
      some (hit size (counterAfter size counter times) now) := by
  unfold counterAfter
  rw [List.foldl_append]
  rfl

theorem start_counterAfter (size : Nat) (times : List Nat) :
    (counterAfter size none times).map Counter.start = windowStart size times := by
  induction times using List.reverseRecOn with
  | nil => rfl
  | append_singleton times now ih =>
    have hstart : windowStart size (times ++ [now]) =
        match windowStart size times with
        | none => some now
        | some s => if size ≤ now - s then some now else some s := by
      unfold windowStart
      rw [List.foldl_append]
      rfl
    rw [counterAfter_concat, hstart, ← ih]
    cases counterAfter size none times with
    | none => rfl
    | some c =>
      simp only [Option.map_some, hit]
      split <;> rfl

/-- The decision of a hit is that of its counter. -/
theorem decision_eq {before after : List (Nat × Bool)} {now : Nat} {allowed : Bool}
    (h : decisions size limit none times = before ++ (now, allowed) :: after) :
    allowed =
      decide ((hit size (counterAfter size none (before.map Prod.fst)) now).count ≤ limit) := by
  have htimes : times = before.map Prod.fst ++ now :: after.map Prod.fst := by
    rw [← map_fst_decisions size limit none times, h, List.map_append,
      List.map_cons]
  rw [htimes, decisions_append, decisions] at h
  have hlength : (decisions size limit none (before.map Prod.fst)).length = before.length := by
    rw [← List.length_map Prod.fst, map_fst_decisions, List.length_map]
  have hhead := (List.append_inj h hlength).2
  exact (congrArg Prod.snd (List.cons.inj hhead).1).symm

/-- A hit that no window holds is allowed. -/
theorem allowed_of_reopens (hlimit : 0 < limit) {before after : List (Nat × Bool)} {now : Nat}
    {allowed : Bool} (h : decisions size limit none times = before ++ (now, allowed) :: after)
    (hreopens : Reopens size (before.map Prod.fst) now) : allowed = true := by
  rw [decision_eq h]
  have hstart := start_counterAfter size (before.map Prod.fst)
  cases hcounter : counterAfter size none (before.map Prod.fst) with
  | none => exact decide_eq_true hlimit
  | some c =>
    rw [hcounter] at hstart
    have hpast : c.start + size ≤ now := hreopens c.start hstart.symm
    have hhit : hit size (some c) now = ⟨1, now⟩ := if_pos (by omega)
    rw [hhit]
    exact decide_eq_true hlimit

/-- A refused hit leaves the window where it was. -/
theorem windowStart_of_refused (hlimit : 0 < limit) {before after : List (Nat × Bool)} {now : Nat}
    (h : decisions size limit none times = before ++ (now, false) :: after) :
    windowStart size (before.map Prod.fst ++ [now]) = windowStart size (before.map Prod.fst) := by
  have hrefused := of_decide_eq_false (decision_eq h).symm
  rw [← start_counterAfter, ← start_counterAfter, counterAfter_concat]
  cases hcounter : counterAfter size none (before.map Prod.fst) with
  | none =>
    rw [hcounter] at hrefused
    exact absurd hlimit hrefused
  | some c =>
    rw [hcounter] at hrefused
    by_cases hnew : size ≤ now - c.start
    · have hhit : hit size (some c) now = ⟨1, now⟩ := if_pos hnew
      rw [hhit] at hrefused
      exact absurd hlimit hrefused
    · have hhit : hit size (some c) now = ⟨c.count + 1, c.start⟩ := if_neg hnew
      rw [hhit]
      rfl

/-! ## Intervals -/

/-- Before the end of its first window, a run allows at most `limit` hits. -/
theorem Windowed.countP_first_le (h : Windowed size limit hits)
    (hsorted : (hits.map Prod.fst).Pairwise (· ≤ ·)) {before : Nat}
    (hbefore : ∀ first, hits.head? = some first → before ≤ first.1 + size) (p : Nat → Bool) :
    hits.countP (fun h => h.2 && (p h.1 && decide (h.1 < before))) ≤ limit := by
  cases h with
  | nil => exact Nat.zero_le _
  | window start later rest hwithin hnext hwindows =>
    have hend : before ≤ start + size := hbefore _ rfl
    have hrest : rest.countP (fun h => h.2 && (p h.1 && decide (h.1 < before))) = 0 := by
      rw [List.countP_eq_zero]
      intro h hh
      have hle : start + size ≤ h.1 := by
        cases rest with
        | nil => exact absurd hh List.not_mem_nil
        | cons first others =>
          have hfirst := hnext first rfl
          rw [List.map_append, List.pairwise_append, List.map_cons, List.pairwise_cons] at hsorted
          rcases List.mem_cons.mp hh with rfl | hmem
          · exact hfirst
          · exact Nat.le_trans hfirst (hsorted.2.1.1 _ (List.mem_map_of_mem hmem))
      have hlate : ¬ h.1 < before := by omega
      simp [hlate]
    rw [List.countP_append, hrest]
    exact countP_ranked_le limit 0 (start :: later) fun t => p t && decide (t < before)

/-- An interval of the length of a window has at most twice the limit of allowed hits. -/
theorem Windowed.countP_le (h : Windowed size limit hits)
    (hsorted : (hits.map Prod.fst).Pairwise (· ≤ ·)) (t : Nat) :
    hits.countP (fun h => h.2 && (decide (t ≤ h.1) && decide (h.1 < t + size))) ≤ 2 * limit := by
  induction h with
  | nil => exact Nat.zero_le _
  | window start later rest hwithin hnext hwindows ih =>
    rw [List.map_append, List.pairwise_append] at hsorted
    rw [List.countP_append]
    by_cases hpast : start + size ≤ t
    · -- The first window is over before the interval begins.
      have hnone : (ranked limit 0 (start :: later)).countP
          (fun h => h.2 && (decide (t ≤ h.1) && decide (h.1 < t + size))) = 0 := by
        rw [List.countP_eq_zero]
        intro h hh
        have htime : h.1 ∈ start :: later := by
          rw [← map_fst_ranked limit 0 (start :: later)]
          exact List.mem_map_of_mem hh
        have houtside : t ≤ h.1 → ¬ h.1 < t + size := by
          rcases List.mem_cons.mp htime with heq | hlater
          · omega
          · have hearly := hwithin _ hlater
            omega
        simp only [Bool.and_eq_true, decide_eq_true_eq, not_and]
        exact fun _ => houtside
      rw [hnone, Nat.zero_add]
      exact ih hsorted.2.1
    · have hfirst := countP_ranked_le limit 0 (start :: later) fun u =>
        decide (t ≤ u) && decide (u < t + size)
      have hhead : ∀ first, rest.head? = some first → t + size ≤ first.1 + size := by
        intro first hfirst
        have hle := hnext first hfirst
        omega
      have hsecond := hwindows.countP_first_le hsorted.2.1 hhead fun u => decide (t ≤ u)
      omega

end FixedWindow
