import Ughi.Agents.Trackers
import Ughi.Lib.Run

/-!
# The memory budget of one agent

`allocate` adds first and compares afterwards, so an addition that wraps
around is compared as the small number it becomes.  Usage stays within the
limit on every run; what a wrapped addition breaks is the accounting, because
an accepted allocation then lowers the usage.
-/

namespace Ughi.Agents

open Ughi.Lib

namespace AgentMemoryTracker

/-- The calls that change a tracker. -/
inductive Call where
  | allocate (size : Nat)
  | deallocate (size : Nat)
  | reset
deriving DecidableEq, Repr

/-- Sizes are machine words. -/
def Call.SizeFits : Call → Prop
  | .allocate size => size < 2 ^ 64
  | .deallocate size => size < 2 ^ 64
  | .reset => True

def serve (tracker : AgentMemoryTracker) : Call → AgentMemoryTracker
  | .allocate size => (tracker.allocate size).2
  | .deallocate size => tracker.deallocate size
  | .reset => tracker.reset

/-- Usage never exceeds the peak, and the peak never exceeds the limit. -/
structure WithinBudget (tracker : AgentMemoryTracker) : Prop where
  usageWithinPeak : tracker.currentUsage ≤ tracker.peakUsage
  peakWithinLimit : tracker.peakUsage ≤ tracker.limit

theorem WithinBudget.usageWithinLimit {tracker : AgentMemoryTracker}
    (within : tracker.WithinBudget) :
    tracker.currentUsage ≤ tracker.limit :=
  Nat.le_trans within.usageWithinPeak within.peakWithinLimit

/-- A refused allocation leaves usage and peak alone; an accepted one raises
the usage by its size. -/
def AccountsExactly (tracker : AgentMemoryTracker) : Call → Prop
  | .allocate size =>
      (∀ error, (tracker.allocate size).1 = .error error →
          (tracker.allocate size).2.currentUsage = tracker.currentUsage ∧
            (tracker.allocate size).2.peakUsage = tracker.peakUsage) ∧
        ((tracker.allocate size).1 = .ok () →
          (tracker.allocate size).2.currentUsage =
            tracker.currentUsage + size)
  | _ => True

/-- The addition inside an allocation does not wrap around. -/
def AddsWithinWord (tracker : AgentMemoryTracker) : Call → Prop
  | .allocate size => tracker.currentUsage + size < 2 ^ 64
  | _ => True

theorem new_withinBudget (limitBytes : Nat) :
    (new limitBytes).WithinBudget where
  usageWithinPeak := Nat.le_refl 0
  peakWithinLimit := Nat.zero_le limitBytes

section Steps

variable {tracker : AgentMemoryTracker}

@[simp] theorem serve_limit (call : Call) :
    (tracker.serve call).limit = tracker.limit := by
  cases call with
  | allocate size =>
      rcases tracker.allocate_cases size with ⟨_, result⟩ | ⟨_, result⟩
      · simp only [serve, result, limit]
      · simp only [serve, result, limit]
  | deallocate size => rfl
  | reset => rfl

/-- An allocation that wraps around is always accepted: what is left of the
sum is below the usage it started from. -/
theorem allocate_of_overflow (within : tracker.WithinBudget)
    (limitWord : tracker.limit < 2 ^ 64) {size : Nat}
    (sizeWord : size < 2 ^ 64)
    (overflow : 2 ^ 64 ≤ tracker.currentUsage + size) :
    (tracker.allocate size).1 = .ok () ∧
      (tracker.allocate size).2.currentUsage < tracker.currentUsage := by
  have usage := within.usageWithinLimit
  simp only [currentUsage, limit] at usage limitWord overflow
  have word : tracker.currentBytes < 2 ^ 64 := by omega
  have wrapped := wrappingAdd_of_le word sizeWord overflow
  rcases tracker.allocate_cases size with ⟨exceeded, _⟩ | ⟨_, recorded⟩
  · rw [wrapped] at exceeded
    omega
  · have lowered : wrappingAdd 64 tracker.currentBytes size <
        tracker.currentBytes := by
      rw [wrapped]
      omega
    rw [recorded]
    exact ⟨rfl, lowered⟩

theorem serve_withinBudget (within : tracker.WithinBudget)
    (limitWord : tracker.limit < 2 ^ 64) {call : Call}
    (sizeFits : call.SizeFits) : (tracker.serve call).WithinBudget := by
  cases call with
  | allocate size =>
      have usage : tracker.currentUsage < 2 ^ 64 :=
        Nat.lt_of_le_of_lt within.usageWithinLimit limitWord
      rcases tracker.allocate_cases size with ⟨_, refused⟩ | ⟨fits, recorded⟩
      · have rolledBack : (tracker.allocate size).2 = tracker := by
          apply allocate_error usage sizeFits
          rw [refused]
        rwa [serve, rolledBack]
      · rw [serve, recorded]
        constructor
        · exact Nat.le_max_right _ _
        · exact Nat.max_le.mpr ⟨within.peakWithinLimit, fits⟩
  | deallocate size =>
      constructor
      · exact Nat.le_trans (Nat.sub_le _ _) within.usageWithinPeak
      · exact within.peakWithinLimit
  | reset =>
      constructor
      · exact Nat.le_refl 0
      · exact Nat.zero_le _

theorem accountsExactly_iff (within : tracker.WithinBudget)
    (limitWord : tracker.limit < 2 ^ 64) {call : Call}
    (sizeFits : call.SizeFits) :
    tracker.AccountsExactly call ↔ tracker.AddsWithinWord call := by
  cases call with
  | allocate size =>
      have usage : tracker.currentUsage < 2 ^ 64 :=
        Nat.lt_of_le_of_lt within.usageWithinLimit limitWord
      constructor
      · intro accounts
        apply Nat.lt_of_not_le
        intro overflow
        obtain ⟨accepted, lowered⟩ :=
          allocate_of_overflow within limitWord sizeFits overflow
        have raised := accounts.2 accepted
        omega
      · intro fits
        constructor
        · intro error refused
          have rolledBack := allocate_error usage sizeFits refused
          rw [rolledBack]
          exact ⟨rfl, rfl⟩
        · intro accepted
          rcases tracker.allocate_cases size with ⟨_, result⟩ | ⟨_, result⟩
          · rw [result] at accepted
            cases accepted
          · rw [result]
            exact wrappingAdd_of_lt fits
  | deallocate size => exact Iff.rfl
  | reset => exact Iff.rfl

end Steps

/-- The budget holds and every allocation is accounted for, all along a run,
exactly when no allocation of the run wraps around. -/
theorem budget_throughout_iff {limitBytes : Nat}
    (limitWord : limitBytes < 2 ^ 64) {calls : List Call}
    (sizesFit : ∀ call ∈ calls, call.SizeFits) :
    Throughout serve WithinBudget (new limitBytes) calls ∧
        EachCall serve AccountsExactly (new limitBytes) calls ↔
      EachCall serve AddsWithinWord (new limitBytes) calls := by
  have limitKept : ∀ (tracker : AgentMemoryTracker) (call : Call),
      call.SizeFits → tracker.limit < 2 ^ 64 →
        (tracker.serve call).limit < 2 ^ 64 := by
    intro tracker call _ word
    rwa [serve_limit]
  have exactStep : ∀ (tracker : AgentMemoryTracker) (call : Call),
      call.SizeFits → tracker.limit < 2 ^ 64 → tracker.WithinBudget →
        ((tracker.serve call).WithinBudget ∧ tracker.AccountsExactly call ↔
          tracker.AddsWithinWord call) := by
    intro tracker call sizeFits word within
    rw [accountsExactly_iff within word sizeFits]
    exact and_iff_right (serve_withinBudget within word sizeFits)
  exact throughout_and_eachCall_iff limitKept exactStep sizesFit limitWord
    (new_withinBudget limitBytes)

/-- The budget of 140 MB along an allocation, a refused one and a
deallocation. -/
theorem budget_throughout_refused :
    let calls : List Call :=
      [.allocate 1000, .allocate 200000000, .deallocate 400]
    146800640 < 2 ^ 64 ∧ (∀ call ∈ calls, call.SizeFits) ∧
      (Throughout serve WithinBudget (new 146800640) calls ∧
          EachCall serve AccountsExactly (new 146800640) calls ↔
        EachCall serve AddsWithinWord (new 146800640) calls) := by
  have sizesFit : ∀ call ∈ ([.allocate 1000, .allocate 200000000,
      .deallocate 400] : List Call), call.SizeFits := by
    simp [Call.SizeFits]
  exact ⟨by decide, sizesFit, budget_throughout_iff (by decide) sizesFit⟩

/-- With one byte in use, the largest size there is brings the usage back to
zero and is accepted. -/
theorem wrapping_allocation_accepted :
    ¬ ∀ (limitBytes : Nat) (calls : List Call), limitBytes < 2 ^ 64 →
      (∀ call ∈ calls, call.SizeFits) →
        EachCall serve AccountsExactly (new limitBytes) calls := by
  intro claimed
  have accounts := claimed 146800640
    [.allocate 1, .allocate (2 ^ 64 - 1)] (by decide)
    (by simp [Call.SizeFits])
  have raised := accounts.2.1.2 (by decide)
  exact absurd raised (by decide)

end AgentMemoryTracker

end Ughi.Agents
