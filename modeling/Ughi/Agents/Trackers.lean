import Ughi.Lib.Word

/-!
# Errors, memory trackers and metrics of the runtime

The trackers are atomic counters.  Every operation below is one method of the
source; the runtime calls them while it holds its lock, so they run one after
another.
-/

namespace Ughi.Agents

open Ughi.Lib

/-- Errors of the runtime operations. -/
inductive RuntimeError where
  | agentLimitExceeded (max : Nat)
  | agentNotFound (id : String)
  | memoryBudgetExceeded (usedBytes limitBytes : Nat)
  | schedulerFull (capacity : Nat)
  | invalidTransition (id fromState toState : String)
  | agentAlreadyExists (id : String)
  | shuttingDown
deriving DecidableEq, Repr

/-- Per-agent memory tracker. -/
structure AgentMemoryTracker where
  currentBytes : Nat
  peakBytes : Nat
  limitBytes : Nat
deriving DecidableEq, Repr

namespace AgentMemoryTracker

def new (limitBytes : Nat) : AgentMemoryTracker :=
  { currentBytes := 0, peakBytes := 0, limitBytes := limitBytes }

/-- `fetch_add`, the check against the hard limit, and the rollback by
`fetch_sub` when the check fails. -/
def allocate (tracker : AgentMemoryTracker) (size : Nat) :
    Except RuntimeError Unit × AgentMemoryTracker :=
  let newTotal := wrappingAdd 64 tracker.currentBytes size
  if newTotal > tracker.limitBytes then
    (.error (.memoryBudgetExceeded newTotal tracker.limitBytes),
      { tracker with currentBytes := wrappingSub 64 newTotal size })
  else
    (.ok (),
      { tracker with
        currentBytes := newTotal
        peakBytes := max tracker.peakBytes newTotal })

/-- Deallocation saturates at zero. -/
def deallocate (tracker : AgentMemoryTracker) (size : Nat) :
    AgentMemoryTracker :=
  { tracker with currentBytes := tracker.currentBytes - size }

def currentUsage (tracker : AgentMemoryTracker) : Nat :=
  tracker.currentBytes

def peakUsage (tracker : AgentMemoryTracker) : Nat :=
  tracker.peakBytes

def limit (tracker : AgentMemoryTracker) : Nat :=
  tracker.limitBytes

def reset (tracker : AgentMemoryTracker) : AgentMemoryTracker :=
  { tracker with currentBytes := 0, peakBytes := 0 }

theorem allocate_cases (tracker : AgentMemoryTracker) (size : Nat) :
    (tracker.limitBytes < wrappingAdd 64 tracker.currentBytes size ∧
        tracker.allocate size =
          (.error (.memoryBudgetExceeded
              (wrappingAdd 64 tracker.currentBytes size) tracker.limitBytes),
            { tracker with
              currentBytes :=
                wrappingSub 64 (wrappingAdd 64 tracker.currentBytes size)
                  size })) ∨
      (wrappingAdd 64 tracker.currentBytes size ≤ tracker.limitBytes ∧
        tracker.allocate size =
          (.ok (),
            { tracker with
              currentBytes := wrappingAdd 64 tracker.currentBytes size
              peakBytes :=
                max tracker.peakBytes
                  (wrappingAdd 64 tracker.currentBytes size) })) := by
  simp only [allocate]
  split
  next exceeded =>
    exact .inl ⟨exceeded, rfl⟩
  next within =>
    exact .inr ⟨Nat.le_of_not_lt within, rfl⟩

theorem allocate_currentBytes_lt (tracker : AgentMemoryTracker)
    (size : Nat) : (tracker.allocate size).2.currentBytes < 2 ^ 64 := by
  rcases tracker.allocate_cases size with ⟨_, exceeded⟩ | ⟨_, recorded⟩
  · rw [exceeded]
    exact wrappingSub_lt 64 _ _
  · rw [recorded]
    exact wrappingAdd_lt 64 _ _

/-- The rollback of a refused allocation is exact. -/
theorem allocate_error {tracker : AgentMemoryTracker} {size : Nat}
    {error : RuntimeError} (word : tracker.currentBytes < 2 ^ 64)
    (sizeWord : size < 2 ^ 64)
    (refused : (tracker.allocate size).1 = .error error) :
    (tracker.allocate size).2 = tracker := by
  rcases tracker.allocate_cases size with ⟨_, exceeded⟩ | ⟨_, recorded⟩
  · rw [exceeded, wrappingSub_wrappingAdd word sizeWord]
  · rw [recorded] at refused
    cases refused

end AgentMemoryTracker

/-- System-wide memory tracker across all agents. -/
structure SystemMemoryTracker where
  totalBytes : Nat
  agentCount : Nat
deriving DecidableEq, Repr

namespace SystemMemoryTracker

def new : SystemMemoryTracker :=
  { totalBytes := 0, agentCount := 0 }

def registerAgent (tracker : SystemMemoryTracker) (initialBytes : Nat) :
    SystemMemoryTracker :=
  { totalBytes := wrappingAdd 64 tracker.totalBytes initialBytes
    agentCount := wrappingAdd 64 tracker.agentCount 1 }

def unregisterAgent (tracker : SystemMemoryTracker) (agentBytes : Nat) :
    SystemMemoryTracker :=
  { totalBytes := tracker.totalBytes - agentBytes
    agentCount := tracker.agentCount - 1 }

def addBytes (tracker : SystemMemoryTracker) (bytes : Nat) :
    SystemMemoryTracker :=
  { tracker with totalBytes := wrappingAdd 64 tracker.totalBytes bytes }

def subBytes (tracker : SystemMemoryTracker) (bytes : Nat) :
    SystemMemoryTracker :=
  { tracker with totalBytes := tracker.totalBytes - bytes }

end SystemMemoryTracker

/-- Runtime metrics. -/
structure RuntimeMetrics where
  agentsActive : Nat
  agentsTotalSpawned : Nat
  agentsTotalCompleted : Nat
  agentsTotalCrashed : Nat
  memoryTotalBytes : Nat
  lastSpawnLatencyUs : Nat
  schedulerTicks : Nat
  schedulerDequeues : Nat
deriving DecidableEq, Repr

namespace RuntimeMetrics

def new : RuntimeMetrics :=
  { agentsActive := 0, agentsTotalSpawned := 0, agentsTotalCompleted := 0
    agentsTotalCrashed := 0, memoryTotalBytes := 0, lastSpawnLatencyUs := 0
    schedulerTicks := 0, schedulerDequeues := 0 }

def recordSpawn (metrics : RuntimeMetrics) (latencyUs : Nat) :
    RuntimeMetrics :=
  { metrics with
    agentsActive := wrappingAdd 64 metrics.agentsActive 1
    agentsTotalSpawned := wrappingAdd 64 metrics.agentsTotalSpawned 1
    lastSpawnLatencyUs := latencyUs }

def recordCompletion (metrics : RuntimeMetrics) : RuntimeMetrics :=
  { metrics with
    agentsActive := metrics.agentsActive - 1
    agentsTotalCompleted := wrappingAdd 64 metrics.agentsTotalCompleted 1 }

def recordCrash (metrics : RuntimeMetrics) : RuntimeMetrics :=
  { metrics with
    agentsActive := metrics.agentsActive - 1
    agentsTotalCrashed := wrappingAdd 64 metrics.agentsTotalCrashed 1 }

def recordKill (metrics : RuntimeMetrics) : RuntimeMetrics :=
  { metrics with agentsActive := metrics.agentsActive - 1 }

def setMemoryTotal (metrics : RuntimeMetrics) (bytes : Nat) :
    RuntimeMetrics :=
  { metrics with memoryTotalBytes := bytes }

def recordSchedulerTick (metrics : RuntimeMetrics) : RuntimeMetrics :=
  { metrics with schedulerTicks := wrappingAdd 64 metrics.schedulerTicks 1 }

def recordSchedulerDequeue (metrics : RuntimeMetrics) : RuntimeMetrics :=
  { metrics with
    schedulerDequeues := wrappingAdd 64 metrics.schedulerDequeues 1 }

end RuntimeMetrics

end Ughi.Agents
