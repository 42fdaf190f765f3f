import Mathlib.Data.List.Basic

/-!
# Subscribers of a log

A subscriber joins a log at some length, and while it is current it receives what is appended. A
subscriber that has left receives nothing any more.

Results:
1. `Received.start`, `Received.leave`: a subscriber joins and leaves.
2. `Received.deliver`, `Received.miss`: the log grows, with the subscriber or without it.
-/

namespace Subscribers

variable {α : Type} {log received : List α} {since : Nat} {current current' : Prop} {x : α}

/-- What a subscriber has received of a log that it joined at the length `since`. -/
structure Received (log received : List α) (since : Nat) (current : Prop) : Prop where
  since_le : since ≤ log.length
  sound : received <+: log.drop since
  complete : current → received = log.drop since

theorem Received.start (current : Prop) : Received log [] log.length current where
  since_le := Nat.le_refl _
  sound := List.nil_prefix
  complete _ := List.drop_length.symm

theorem Received.leave (h : Received log received since current) (hcurrent : current' → current) :
    Received log received since current' :=
  ⟨h.since_le, h.sound, fun h' => h.complete (hcurrent h')⟩

theorem Received.deliver (h : Received log received since current) (hcurrent : current) :
    Received (log ++ [x]) (received ++ [x]) since current' := by
  have hdrop : received ++ [x] = (log ++ [x]).drop since := by
    rw [List.drop_append_of_le_length h.since_le, h.complete hcurrent]
  refine ⟨?_, hdrop ▸ List.prefix_rfl, fun _ => hdrop⟩
  rw [List.length_append]
  exact Nat.le_add_right_of_le h.since_le

theorem Received.miss (h : Received log received since current) (hcurrent : ¬ current') :
    Received (log ++ [x]) received since current' := by
  refine ⟨?_, ?_, fun h' => absurd h' hcurrent⟩
  · rw [List.length_append]
    exact Nat.le_add_right_of_le h.since_le
  · rw [List.drop_append_of_le_length h.since_le]
    exact h.sound.trans (List.prefix_append _ _)

end Subscribers
