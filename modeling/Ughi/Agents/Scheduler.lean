import Ughi.Lib.MaxHeap
import Ughi.Agents.Agent

/-!
# The priority scheduler

The `BinaryHeap` of the source is a bag popped at a greatest element, so
`dequeue` takes the tie-breaking choice of the heap.  Tick counters are
unbounded here.  `queuedIds` is the view of the queue the runtime invariants
need: which agents it names, and how often.
-/

namespace Ughi.Agents

open Ughi.Lib

/-- An entry in the scheduler's priority queue. -/
structure SchedulerEntry where
  agentId : String
  effectivePriority : AgentPriority
  basePriority : AgentPriority
  enqueuedAtTick : Nat
  waitTicks : Nat
deriving DecidableEq, Repr

def starvationThreshold : Nat := 5

namespace SchedulerEntry

def new (agentId : String) (priority : AgentPriority) (tick : Nat) :
    SchedulerEntry :=
  { agentId := agentId
    effectivePriority := priority
    basePriority := priority
    enqueuedAtTick := tick
    waitTicks := 0 }

/-- Higher priority first, then older entries first. -/
def cmp (left right : SchedulerEntry) : Ordering :=
  (compare left.effectivePriority.rank right.effectivePriority.rank).then
    (compare right.enqueuedAtTick left.enqueuedAtTick)

def le (left right : SchedulerEntry) : Bool :=
  cmp left right != .gt

/-- One waited tick, with the boost of a long-waiting entry. -/
def wait (entry : SchedulerEntry) : SchedulerEntry :=
  let entry := { entry with waitTicks := entry.waitTicks + 1 }
  if entry.waitTicks > starvationThreshold then
    { entry with
      effectivePriority := entry.effectivePriority.boost
      waitTicks := 0 }
  else entry

@[simp] theorem new_agentId (agentId : String) (priority : AgentPriority)
    (tick : Nat) : (new agentId priority tick).agentId = agentId :=
  rfl

@[simp] theorem wait_agentId (entry : SchedulerEntry) :
    entry.wait.agentId = entry.agentId := by
  simp only [wait]
  split <;> rfl

theorem le_iff {left right : SchedulerEntry} :
    le left right = true ↔
      left.effectivePriority.rank < right.effectivePriority.rank ∨
        left.effectivePriority.rank = right.effectivePriority.rank ∧
          right.enqueuedAtTick ≤ left.enqueuedAtTick := by
  have unfolded : le left right = true ↔ cmp left right ≠ .gt := by
    simp [le]
  rw [unfolded, cmp, Ne, Ordering.then_eq_gt, Nat.compare_eq_gt,
    Nat.compare_eq_eq, Nat.compare_eq_gt]
  omega

theorem le_total (left right : SchedulerEntry) :
    le left right = true ∨ le right left = true := by
  simp only [le_iff]
  omega

theorem le_trans (first second third : SchedulerEntry)
    (below : le first second = true) (above : le second third = true) :
    le first third = true := by
  simp only [le_iff] at below above ⊢
  omega

end SchedulerEntry

/-- The scheduler: its queue, its capacity and its counters. -/
structure Scheduler where
  queue : List SchedulerEntry
  capacity : Nat
  currentTick : Nat
  totalScheduled : Nat
  totalTicks : Nat
deriving DecidableEq, Repr

namespace Scheduler

def new (capacity : Nat) : Scheduler :=
  { queue := [], capacity := capacity, currentTick := 0
    totalScheduled := 0, totalTicks := 0 }

def enqueue (scheduler : Scheduler) (agentId : String)
    (priority : AgentPriority) : Except RuntimeError Unit × Scheduler :=
  if scheduler.queue.length ≥ scheduler.capacity then
    (.error (.schedulerFull scheduler.capacity), scheduler)
  else
    (.ok (),
      { scheduler with
        queue := .new agentId priority scheduler.currentTick ::
          scheduler.queue })

def dequeue (scheduler : Scheduler) (tie : Nat) :
    Option SchedulerEntry × Scheduler :=
  match MaxHeap.pop SchedulerEntry.le tie scheduler.queue with
  | none => (none, scheduler)
  | some (entry, rest) =>
      (some entry,
        { scheduler with
          queue := rest
          totalScheduled := scheduler.totalScheduled + 1 })

/-- Advance by one tick: every queued entry waits once more. -/
def tick (scheduler : Scheduler) : Scheduler :=
  let scheduler :=
    { scheduler with
      currentTick := scheduler.currentTick + 1
      totalTicks := scheduler.totalTicks + 1 }
  if scheduler.queue.isEmpty then scheduler
  else { scheduler with queue := scheduler.queue.map SchedulerEntry.wait }

/-- Drop every entry of an agent, and tell whether there was one. -/
def remove (scheduler : Scheduler) (agentId : String) : Bool × Scheduler :=
  let entries := scheduler.queue.filter fun entry => entry.agentId ≠ agentId
  (entries.length < scheduler.queue.length,
    { scheduler with queue := entries })

/-- The agents the queue names, once for each entry. -/
def queuedIds (scheduler : Scheduler) : List String :=
  scheduler.queue.map SchedulerEntry.agentId

@[simp] theorem queuedIds_length (scheduler : Scheduler) :
    scheduler.queuedIds.length = scheduler.queue.length :=
  List.length_map _

@[simp] theorem new_queuedIds (capacity : Nat) :
    (new capacity).queuedIds = [] :=
  rfl

section Enqueue

variable {scheduler : Scheduler}

theorem enqueue_of_room
    (room : scheduler.queue.length < scheduler.capacity)
    (agentId : String) (priority : AgentPriority) :
    (scheduler.enqueue agentId priority).1 = .ok () ∧
      (scheduler.enqueue agentId priority).2.queuedIds =
        agentId :: scheduler.queuedIds := by
  have notFull : ¬scheduler.queue.length ≥ scheduler.capacity :=
    Nat.not_le.mpr room
  simp [enqueue, notFull, queuedIds]

theorem enqueue_eq_of_room
    (room : scheduler.queue.length < scheduler.capacity)
    (agentId : String) (priority : AgentPriority) :
    scheduler.enqueue agentId priority =
      (.ok (), (scheduler.enqueue agentId priority).2) :=
  Prod.ext (enqueue_of_room room agentId priority).1 rfl

theorem enqueue_of_full
    (full : scheduler.capacity ≤ scheduler.queue.length)
    (agentId : String) (priority : AgentPriority) :
    scheduler.enqueue agentId priority =
      (.error (.schedulerFull scheduler.capacity), scheduler) := by
  simp [enqueue, full]

@[simp] theorem enqueue_capacity (agentId : String)
    (priority : AgentPriority) :
    (scheduler.enqueue agentId priority).2.capacity = scheduler.capacity := by
  unfold enqueue
  split <;> rfl

theorem mem_of_mem_enqueue {agentId id : String} {priority : AgentPriority}
    (queued : id ∈ (scheduler.enqueue agentId priority).2.queuedIds) :
    id = agentId ∨ id ∈ scheduler.queuedIds := by
  by_cases room : scheduler.queue.length < scheduler.capacity
  · rwa [(enqueue_of_room room agentId priority).2, List.mem_cons] at queued
  · rw [enqueue_of_full (Nat.le_of_not_lt room)] at queued
    exact .inr queued

end Enqueue

section Tick

theorem tick_queue (scheduler : Scheduler) :
    scheduler.tick.queue = scheduler.queue.map SchedulerEntry.wait := by
  simp only [tick]
  split
  next empty =>
    rw [List.isEmpty_iff.mp empty]
    rfl
  · rfl

@[simp] theorem tick_currentTick (scheduler : Scheduler) :
    scheduler.tick.currentTick = scheduler.currentTick + 1 := by
  simp only [tick]
  split <;> rfl

@[simp] theorem tick_queuedIds (scheduler : Scheduler) :
    scheduler.tick.queuedIds = scheduler.queuedIds := by
  simp [queuedIds, tick_queue, Function.comp_def]

@[simp] theorem tick_queue_length (scheduler : Scheduler) :
    scheduler.tick.queue.length = scheduler.queue.length := by
  rw [← queuedIds_length, tick_queuedIds, queuedIds_length]

@[simp] theorem tick_capacity (scheduler : Scheduler) :
    scheduler.tick.capacity = scheduler.capacity := by
  simp only [tick]
  split <;> rfl

end Tick

section Dequeue

variable {scheduler rest : Scheduler} {tie : Nat} {entry : SchedulerEntry}

theorem dequeue_some (popped : scheduler.dequeue tie = (some entry, rest)) :
    scheduler.queue.Perm (entry :: rest.queue) ∧
      rest.capacity = scheduler.capacity := by
  unfold dequeue at popped
  split at popped
  · cases popped
  next top others found =>
    cases popped
    exact ⟨MaxHeap.pop_perm found, rfl⟩

theorem dequeue_some_queuedIds
    (popped : scheduler.dequeue tie = (some entry, rest)) :
    scheduler.queuedIds.Perm (entry.agentId :: rest.queuedIds) :=
  (dequeue_some popped).1.map SchedulerEntry.agentId

theorem dequeue_some_currentTick
    (popped : scheduler.dequeue tie = (some entry, rest)) :
    rest.currentTick = scheduler.currentTick := by
  unfold dequeue at popped
  split at popped
  · cases popped
  · cases popped
    rfl

theorem dequeue_greatest
    (popped : scheduler.dequeue tie = (some entry, rest)) :
    ∀ other ∈ scheduler.queue, other.le entry = true := by
  unfold dequeue at popped
  split at popped
  · cases popped
  next top others found =>
    cases popped
    exact (MaxHeap.mem_tops.mp (MaxHeap.pop_mem_tops found)).2

theorem dequeue_none (popped : scheduler.dequeue tie = (none, rest)) :
    scheduler.queue = [] ∧ rest = scheduler := by
  unfold dequeue at popped
  split at popped
  next nothing =>
    cases popped
    refine ⟨?_, rfl⟩
    exact (MaxHeap.pop_eq_none_iff SchedulerEntry.le_total
      SchedulerEntry.le_trans).mp nothing
  · cases popped

end Dequeue

section Remove

variable (scheduler : Scheduler) (agentId : String)

theorem remove_queuedIds :
    (scheduler.remove agentId).2.queuedIds =
      scheduler.queuedIds.filter fun id => id ≠ agentId := by
  simp [remove, queuedIds, List.filter_map, Function.comp_def]

theorem mem_remove_queuedIds {id : String} :
    id ∈ (scheduler.remove agentId).2.queuedIds ↔
      id ∈ scheduler.queuedIds ∧ id ≠ agentId := by
  rw [remove_queuedIds]
  simp

theorem remove_queue_length_le :
    (scheduler.remove agentId).2.queue.length ≤ scheduler.queue.length :=
  List.length_filter_le _ _

end Remove

/-- The queue never outgrows its capacity. -/
def Within (scheduler : Scheduler) : Prop :=
  scheduler.queue.length ≤ scheduler.capacity

instance (scheduler : Scheduler) : Decidable scheduler.Within :=
  inferInstanceAs (Decidable (_ ≤ _))

theorem new_within (capacity : Nat) : (new capacity).Within := by
  simp [Within, new]

namespace Within

variable {scheduler : Scheduler}

theorem enqueue (within : scheduler.Within) (agentId : String)
    (priority : AgentPriority) :
    (scheduler.enqueue agentId priority).2.Within := by
  by_cases room : scheduler.queue.length < scheduler.capacity
  · have added := (enqueue_of_room room agentId priority).2
    have length := congrArg List.length added
    simp only [queuedIds_length, List.length_cons] at length
    simp only [Within, enqueue_capacity]
    omega
  · rw [enqueue_of_full (Nat.le_of_not_lt room)]
    exact within

theorem tick (within : scheduler.Within) : scheduler.tick.Within := by
  simpa only [Within, tick_queue_length, tick_capacity] using within

theorem dequeue (within : scheduler.Within) {tie : Nat}
    {entry : SchedulerEntry} {rest : Scheduler}
    (popped : scheduler.dequeue tie = (some entry, rest)) : rest.Within := by
  obtain ⟨permutation, sameCapacity⟩ := dequeue_some popped
  have length := permutation.length_eq
  rw [List.length_cons] at length
  simp only [Within] at within ⊢
  omega

theorem remove (within : scheduler.Within) (agentId : String) :
    (scheduler.remove agentId).2.Within :=
  Nat.le_trans (remove_queue_length_le scheduler agentId) within

end Within

end Scheduler

end Ughi.Agents
