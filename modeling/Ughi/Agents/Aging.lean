import Ughi.Agents.Scheduler

/-!
# How queued entries age

An entry gains one boost every six ticks it waits, so what it looks like after
any number of ticks has a closed form.
-/

namespace Ughi.Agents

namespace AgentPriority

/-- Several starvation boosts. -/
def raise (priority : AgentPriority) (boosts : Nat) : AgentPriority :=
  boost^[boosts] priority

@[simp] theorem raise_zero (priority : AgentPriority) :
    priority.raise 0 = priority :=
  rfl

theorem raise_succ (priority : AgentPriority) (boosts : Nat) :
    priority.raise (boosts + 1) = (priority.raise boosts).boost :=
  Function.iterate_succ_apply' boost boosts priority

theorem rank_boost (priority : AgentPriority) :
    priority.boost.rank = min 4 (priority.rank + 1) := by
  cases priority <;> rfl

theorem rank_le (priority : AgentPriority) : priority.rank ≤ 4 := by
  cases priority <;> decide

theorem rank_raise (priority : AgentPriority) (boosts : Nat) :
    (priority.raise boosts).rank = min 4 (priority.rank + boosts) := by
  induction boosts with
  | zero =>
      have bounded := priority.rank_le
      simp only [raise_zero, Nat.add_zero]
      omega
  | succ boosts induction =>
      rw [raise_succ, rank_boost, induction]
      omega

theorem rank_injective {left right : AgentPriority}
    (same : left.rank = right.rank) : left = right := by
  cases left <;> cases right <;> first | rfl | exact absurd same (by decide)

end AgentPriority

namespace SchedulerEntry

/-- An entry that had not waited, after `ticks` waited ticks. -/
def waited (entry : SchedulerEntry) (ticks : Nat) : SchedulerEntry :=
  { entry with
    effectivePriority := entry.effectivePriority.raise (ticks / 6)
    waitTicks := ticks % 6 }

theorem waited_zero {entry : SchedulerEntry} (fresh : entry.waitTicks = 0) :
    entry.waited 0 = entry := by
  cases entry
  cases fresh
  rfl

/-- The closed form is kept by waiting: every sixth tick boosts. -/
theorem wait_waited (entry : SchedulerEntry) (ticks : Nat) :
    (entry.waited ticks).wait = entry.waited (ticks + 1) := by
  by_cases boosts : ticks % 6 = 5
  · have quotient : (ticks + 1) / 6 = ticks / 6 + 1 := by omega
    have remainder : (ticks + 1) % 6 = 0 := by omega
    simp [wait, waited, starvationThreshold, boosts, quotient, remainder,
      AgentPriority.raise_succ]
  · have quotient : (ticks + 1) / 6 = ticks / 6 := by omega
    have remainder : (ticks + 1) % 6 = ticks % 6 + 1 := by omega
    have early : ¬ starvationThreshold < ticks % 6 + 1 := by
      rw [starvationThreshold]
      omega
    simp [wait, waited, early, quotient, remainder]

theorem waited_rank (entry : SchedulerEntry) (ticks : Nat) :
    (entry.waited ticks).effectivePriority.rank =
      min 4 (entry.effectivePriority.rank + ticks / 6) :=
  AgentPriority.rank_raise _ _

end SchedulerEntry

end Ughi.Agents
