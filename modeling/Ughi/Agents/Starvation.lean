import Ughi.Lib.Run
import Ughi.Agents.Aging

/-!
# Bounded starvation

An entry in the queue is what it was when it was enqueued, aged by the ticks
since then.  After 24 of them it has the highest rank, and among entries of
that rank the older one goes first.  So only entries at least as old can still
go before it; nobody joins them, and every dequeue takes one of them away.
-/

namespace Ughi.Agents

open Ughi.Lib

/-- An entry as it stands at tick `now`: enqueued fresh, and waiting since. -/
def SchedulerEntry.AgedAt (now : Nat) (entry : SchedulerEntry) : Prop :=
  entry.enqueuedAtTick ≤ now ∧
    entry =
      (new entry.agentId entry.basePriority entry.enqueuedAtTick).waited
        (now - entry.enqueuedAtTick)

namespace SchedulerEntry

variable {entry : SchedulerEntry} {now : Nat}

theorem new_agedAt (agentId : String) (priority : AgentPriority)
    (tick : Nat) : (new agentId priority tick).AgedAt tick := by
  refine ⟨Nat.le_refl tick, ?_⟩
  have age : tick - (new agentId priority tick).enqueuedAtTick = 0 :=
    Nat.sub_self tick
  rw [age]
  exact (waited_zero rfl).symm

@[simp] theorem wait_basePriority (entry : SchedulerEntry) :
    entry.wait.basePriority = entry.basePriority := by
  simp only [wait]
  split <;> rfl

@[simp] theorem wait_enqueuedAtTick (entry : SchedulerEntry) :
    entry.wait.enqueuedAtTick = entry.enqueuedAtTick := by
  simp only [wait]
  split <;> rfl

theorem AgedAt.wait (aged : entry.AgedAt now) :
    entry.wait.AgedAt (now + 1) := by
  obtain ⟨past, form⟩ := aged
  have age : now + 1 - entry.enqueuedAtTick =
      now - entry.enqueuedAtTick + 1 := by omega
  constructor
  · rw [wait_enqueuedAtTick]
    omega
  · rw [wait_agentId, wait_basePriority, wait_enqueuedAtTick, age,
      ← wait_waited, ← form]

theorem AgedAt.waitTicks (aged : entry.AgedAt now) :
    entry.waitTicks = (now - entry.enqueuedAtTick) % 6 := by
  have form := congrArg SchedulerEntry.waitTicks aged.2
  exact form

theorem AgedAt.effectivePriority (aged : entry.AgedAt now) :
    entry.effectivePriority =
      entry.basePriority.raise ((now - entry.enqueuedAtTick) / 6) := by
  have form := congrArg SchedulerEntry.effectivePriority aged.2
  exact form

theorem AgedAt.rank (aged : entry.AgedAt now) :
    entry.effectivePriority.rank =
      min AgentPriority.critical.rank
        (entry.basePriority.rank + (now - entry.enqueuedAtTick) / 6) := by
  rw [aged.effectivePriority]
  exact AgentPriority.rank_raise _ _

theorem AgedAt.rank_of_old (aged : entry.AgedAt now)
    (old : 24 ≤ now - entry.enqueuedAtTick) :
    entry.effectivePriority.rank = 4 := by
  have rank := aged.rank
  have top : AgentPriority.critical.rank = 4 := rfl
  omega

end SchedulerEntry

namespace Scheduler

/-- Every queued entry is aged up to the current tick. -/
def Aged (scheduler : Scheduler) : Prop :=
  ∀ entry ∈ scheduler.queue, entry.AgedAt scheduler.currentTick

section Aged

variable {scheduler : Scheduler}

theorem new_aged (capacity : Nat) : (new capacity).Aged := by
  intro entry queued
  cases queued

theorem Aged.enqueue (aged : scheduler.Aged) (agentId : String)
    (priority : AgentPriority) :
    (scheduler.enqueue agentId priority).2.Aged := by
  unfold Scheduler.enqueue
  split
  · exact aged
  · intro entry queued
    rcases List.mem_cons.mp queued with rfl | before
    · exact SchedulerEntry.new_agedAt agentId priority _
    · exact aged entry before

theorem Aged.tick (aged : scheduler.Aged) : scheduler.tick.Aged := by
  intro entry queued
  rw [tick_queue] at queued
  obtain ⟨before, member, rfl⟩ := List.mem_map.mp queued
  rw [tick_currentTick]
  exact (aged before member).wait

theorem Aged.dequeue (aged : scheduler.Aged) {tie : Nat}
    {entry : SchedulerEntry} {rest : Scheduler}
    (popped : scheduler.dequeue tie = (some entry, rest)) :
    entry.AgedAt scheduler.currentTick ∧ rest.Aged := by
  have bag := (dequeue_some popped).1
  constructor
  · exact aged entry (bag.mem_iff.mpr List.mem_cons_self)
  · intro other queued
    rw [dequeue_some_currentTick popped]
    exact aged other (bag.mem_iff.mpr (List.mem_cons_of_mem _ queued))

theorem Aged.remove (aged : scheduler.Aged) (agentId : String) :
    (scheduler.remove agentId).2.Aged := by
  intro entry queued
  exact aged entry (List.mem_of_mem_filter queued)

end Aged

/-- The calls a scheduler serves. -/
inductive Call where
  | enqueue (agentId : String) (priority : AgentPriority)
  | dequeue (tie : Nat)
  | tick
  | remove (agentId : String)
deriving DecidableEq, Repr

def Call.isDequeue : Call → Bool
  | .dequeue _ => true
  | _ => false

def serve (scheduler : Scheduler) : Call → Scheduler
  | .enqueue agentId priority => (scheduler.enqueue agentId priority).2
  | .dequeue tie => (scheduler.dequeue tie).2
  | .tick => scheduler.tick
  | .remove agentId => (scheduler.remove agentId).2

/-- The ticks since an entry was enqueued. -/
def age (scheduler : Scheduler) (entry : SchedulerEntry) : Nat :=
  scheduler.currentTick - entry.enqueuedAtTick

/-- An entry of an earlier queue, grown older, is still there. -/
def StillQueues (scheduler : Scheduler) (entry : SchedulerEntry) : Prop :=
  ∃ queued ∈ scheduler.queue, queued.agentId = entry.agentId ∧
    queued.basePriority = entry.basePriority ∧
    queued.enqueuedAtTick = entry.enqueuedAtTick

/-- The queued entries enqueued at `tick` or before. -/
def elders (tick : Nat) (scheduler : Scheduler) : Nat :=
  scheduler.queue.countP fun entry => entry.enqueuedAtTick ≤ tick

theorem elders_pos_iff {tick : Nat} {scheduler : Scheduler} :
    0 < scheduler.elders tick ↔
      ∃ entry ∈ scheduler.queue, entry.enqueuedAtTick ≤ tick := by
  simp [elders, List.countP_pos_iff]

/-- What every reachable scheduler keeps. -/
structure Reachable (capacity : Nat) (scheduler : Scheduler) : Prop where
  aged : scheduler.Aged
  within : scheduler.Within
  sized : scheduler.capacity = capacity

theorem new_reachable (capacity : Nat) :
    (new capacity).Reachable capacity :=
  ⟨new_aged capacity, new_within capacity, rfl⟩

section Steps

variable {capacity tick : Nat} {scheduler : Scheduler}

theorem serve_reachable (reachable : scheduler.Reachable capacity)
    (call : Call) : (scheduler.serve call).Reachable capacity := by
  have aged := reachable.aged
  have within := reachable.within
  cases call with
  | enqueue agentId priority =>
      refine ⟨aged.enqueue agentId priority,
        within.enqueue agentId priority, ?_⟩
      rw [serve, enqueue_capacity, reachable.sized]
  | dequeue tie =>
      cases popped : scheduler.dequeue tie with
      | mk taken rest =>
          cases taken with
          | none =>
              rwa [serve, popped, (dequeue_none popped).2]
          | some entry =>
              rw [serve, popped]
              refine ⟨(aged.dequeue popped).2, within.dequeue popped, ?_⟩
              rw [(dequeue_some popped).2, reachable.sized]
  | tick =>
      refine ⟨aged.tick, within.tick, ?_⟩
      rw [serve, tick_capacity, reachable.sized]
  | remove agentId =>
      exact ⟨aged.remove agentId, within.remove agentId, reachable.sized⟩

theorem run_reachable (reachable : scheduler.Reachable capacity)
    (calls : List Call) :
    (runCalls serve scheduler calls).Reachable capacity := by
  have preserved : ∀ scheduler call, Reachable capacity scheduler →
      Reachable capacity (serve scheduler call) := by
    intro scheduler call reachable
    exact serve_reachable reachable call
  exact invariant_of_calls preserved reachable calls

theorem currentTick_le_serve (call : Call) :
    scheduler.currentTick ≤ (scheduler.serve call).currentTick := by
  cases call with
  | enqueue agentId priority =>
      simp only [serve, enqueue]
      split
      · exact Nat.le_refl _
      · exact Nat.le_refl _
  | dequeue tie =>
      simp only [serve, dequeue]
      split
      · exact Nat.le_refl _
      · exact Nat.le_refl _
  | tick =>
      rw [serve, tick_currentTick]
      omega
  | remove agentId => exact Nat.le_refl _

/-- While somebody has waited for 24 ticks, a dequeue takes nobody enqueued
after that. -/
theorem dequeue_elder (aged : scheduler.Aged)
    (old : tick + 24 ≤ scheduler.currentTick)
    (waiting : 0 < scheduler.elders tick) {tie : Nat}
    {entry : SchedulerEntry} {rest : Scheduler}
    (popped : scheduler.dequeue tie = (some entry, rest)) :
    entry.enqueuedAtTick ≤ tick := by
  obtain ⟨elder, queued, before⟩ := elders_pos_iff.mp waiting
  have elderRank : elder.effectivePriority.rank = 4 := by
    apply (aged elder queued).rank_of_old
    omega
  have bounded := entry.effectivePriority.rank_le
  have greatest := dequeue_greatest popped elder queued
  rw [SchedulerEntry.le_iff] at greatest
  omega

/-- Nobody joins those who have waited longest, and while one of them is left
a dequeue takes another one away. -/
theorem serve_elders (aged : scheduler.Aged)
    (old : tick + 24 ≤ scheduler.currentTick) (call : Call)
    (left : 0 < (scheduler.serve call).elders tick) :
    (scheduler.serve call).elders tick + call.isDequeue.toNat ≤
      scheduler.elders tick := by
  cases call with
  | enqueue agentId priority =>
      simp only [serve, enqueue]
      split
      · exact Nat.le_refl _
      · have young : ¬ scheduler.currentTick ≤ tick := by omega
        simp [elders, SchedulerEntry.new, young, Call.isDequeue]
  | dequeue tie =>
      obtain ⟨elder, queued, before⟩ := elders_pos_iff.mp left
      cases popped : scheduler.dequeue tie with
      | mk taken rest =>
          rw [serve, popped] at queued
          cases taken with
          | none =>
              obtain ⟨empty, unchanged⟩ := dequeue_none popped
              rw [unchanged, empty] at queued
              cases queued
          | some entry =>
              have bag := (dequeue_some popped).1
              have present : elder ∈ scheduler.queue :=
                bag.mem_iff.mpr (List.mem_cons_of_mem _ queued)
              have waiting := elders_pos_iff.mpr ⟨elder, present, before⟩
              have taken := dequeue_elder aged old waiting popped
              have counted := bag.countP_eq
                fun entry => entry.enqueuedAtTick ≤ tick
              rw [List.countP_cons_of_pos (by simpa using taken)] at counted
              rw [serve, popped]
              exact Nat.le_of_eq counted.symm
  | tick =>
      simp [serve, elders, tick_queue, List.countP_map, Function.comp_def,
        Call.isDequeue]
  | remove agentId =>
      exact List.Sublist.countP_le List.filter_sublist

theorem run_elders (reachable : scheduler.Reachable capacity)
    (old : tick + 24 ≤ scheduler.currentTick) (calls : List Call)
    (left : 0 < (runCalls serve scheduler calls).elders tick) :
    (runCalls serve scheduler calls).elders tick +
        calls.countP Call.isDequeue ≤ scheduler.elders tick := by
  induction calls generalizing scheduler with
  | nil => exact Nat.le_refl _
  | cons call calls induction =>
      have nextOld := Nat.le_trans old (currentTick_le_serve call)
      have later := induction (serve_reachable reachable call) nextOld left
      rw [runCalls_cons] at left
      have remaining : 0 < (scheduler.serve call).elders tick := by omega
      have now := serve_elders reachable.aged old call remaining
      have counted : (call :: calls).countP Call.isDequeue =
          calls.countP Call.isDequeue + call.isDequeue.toNat := by
        rw [List.countP_cons]
        cases call.isDequeue <;> rfl
      rw [runCalls_cons, counted]
      omega

theorem run_currentTick_le (scheduler : Scheduler) (calls : List Call) :
    scheduler.currentTick ≤ (runCalls serve scheduler calls).currentTick := by
  have preserved : ∀ later call,
      scheduler.currentTick ≤ Scheduler.currentTick later →
        scheduler.currentTick ≤ (serve later call).currentTick := by
    intro later call bounded
    exact Nat.le_trans bounded (currentTick_le_serve call)
  exact invariant_of_calls preserved (Nat.le_refl _) calls

/-- While an entry that has waited for 24 ticks is still queued, fewer than
`capacity` dequeues were served, and the next one takes nothing younger. -/
theorem overtaking_bounded (reachable : scheduler.Reachable capacity)
    {entry : SchedulerEntry} (queued : entry ∈ scheduler.queue)
    (old : 24 ≤ scheduler.age entry) (further : List Call)
    (still : (runCalls serve scheduler further).StillQueues entry) :
    further.countP Call.isDequeue < capacity ∧
      ∀ tie dequeued rest,
        (runCalls serve scheduler further).dequeue tie =
            (some dequeued, rest) →
          dequeued.enqueuedAtTick ≤ entry.enqueuedAtTick := by
  have past := (reachable.aged entry queued).1
  rw [age] at old
  have oldTick : entry.enqueuedAtTick + 24 ≤ scheduler.currentTick := by
    omega
  obtain ⟨now, nowQueued, _, _, sameTick⟩ := still
  have left := elders_pos_iff.mpr ⟨now, nowQueued, Nat.le_of_eq sameTick⟩
  have later := run_reachable reachable further
  constructor
  · have taken := run_elders reachable oldTick further left
    have counted : scheduler.elders entry.enqueuedAtTick ≤
        scheduler.queue.length := List.countP_le_length
    have within : scheduler.queue.length ≤ scheduler.capacity :=
      reachable.within
    have sized := reachable.sized
    omega
  · intro tie dequeued rest popped
    have laterOld := Nat.le_trans oldTick (run_currentTick_le _ further)
    exact dequeue_elder later.aged laterOld left popped

end Steps

/-- After every run each entry has the boosts its age demands; one that has
waited for 24 ticks is overtaken by nobody younger, and leaves the queue
before `capacity` further dequeues are served. -/
theorem aging_exact_and_bounded (capacity : Nat) (calls : List Call) :
    let reached := runCalls serve (new capacity) calls
    (∀ entry ∈ reached.queue, entry.enqueuedAtTick ≤ reached.currentTick ∧
        entry.waitTicks = reached.age entry % 6 ∧
        entry.effectivePriority.rank =
          min AgentPriority.critical.rank
            (entry.basePriority.rank + reached.age entry / 6)) ∧
      ∀ entry ∈ reached.queue, 24 ≤ reached.age entry →
        ∀ further, (runCalls serve reached further).StillQueues entry →
          further.countP Call.isDequeue < capacity ∧
            ∀ tie dequeued rest,
              (runCalls serve reached further).dequeue tie =
                  (some dequeued, rest) →
                dequeued.enqueuedAtTick ≤ entry.enqueuedAtTick := by
  have reachable := run_reachable (new_reachable capacity) calls
  constructor
  · intro entry queued
    have aged := reachable.aged entry queued
    exact ⟨aged.1, aged.waitTicks, aged.rank⟩
  · intro entry queued old further still
    exact overtaking_bounded reachable queued old further still

end Scheduler

end Ughi.Agents
