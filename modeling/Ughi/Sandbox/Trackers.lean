import Ughi.Lib.HashMap
import Ughi.Lib.Word

/-!
# Violations and resource usage

Two trackers stand around an execution.  One counts the violations of each
agent and quarantines it at the fifth.  The other adds up what an execution
uses and compares it with the limits at the end.  Readings of the clocks are
arguments.
-/

namespace Ughi.Sandbox

open Ughi.Lib

/-- Maximum violations before an agent is quarantined. -/
def quarantineThreshold : Nat := 5

structure Violation where
  agentId : String
  skill : String
  reason : String
  timestampMs : Nat
deriving DecidableEq, Repr

structure ViolationTracker where
  violations : HashMap String (List Violation)
  quarantined : HashMap String Nat
  totalViolations : Nat

namespace ViolationTracker

def new : ViolationTracker :=
  { violations := ∅
    quarantined := ∅
    totalViolations := 0 }

def agentViolations (tracker : ViolationTracker) (agentId : String) :
    List Violation :=
  (tracker.violations.lookup agentId).getD []

/-- The count is a 32-bit word. -/
def agentViolationCount (tracker : ViolationTracker) (agentId : String) :
    Nat :=
  (tracker.agentViolations agentId).length % 2 ^ 32

def isQuarantined (tracker : ViolationTracker) (agentId : String) : Bool :=
  agentId ∈ tracker.quarantined

/-- Record a violation; `true` when the agent is now quarantined. -/
def record (tracker : ViolationTracker) (agentId skill reason : String)
    (now : Nat) : Bool × ViolationTracker :=
  let violation : Violation :=
    { agentId := agentId
      skill := skill
      reason := reason
      timestampMs := now }
  let history := tracker.agentViolations agentId ++ [violation]
  let recorded : ViolationTracker :=
    { tracker with
      totalViolations := tracker.totalViolations + 1
      violations := tracker.violations.insert agentId history }
  if history.length % 2 ^ 32 ≥ quarantineThreshold then
    (true,
      { recorded with quarantined := tracker.quarantined.insert agentId now })
  else (false, recorded)

def release (tracker : ViolationTracker) (agentId : String) :
    ViolationTracker :=
  { tracker with
    quarantined := tracker.quarantined.erase agentId
    violations := tracker.violations.erase agentId }

/-- Only agents with violations are quarantined. -/
def Settled (tracker : ViolationTracker) : Prop :=
  ∀ agentId, tracker.isQuarantined agentId = true →
    tracker.agentViolations agentId ≠ []

theorem settled_new : new.Settled := by
  intro agentId quarantined
  simp [isQuarantined, new] at quarantined

theorem agentViolations_record (tracker : ViolationTracker)
    (agentId skill reason : String) (now : Nat) (other : String) :
    (tracker.record agentId skill reason now).2.agentViolations other =
      if other = agentId then
        tracker.agentViolations agentId ++
          [{ agentId := agentId
             skill := skill
             reason := reason
             timestampMs := now }]
      else tracker.agentViolations other := by
  have recorded : (tracker.record agentId skill reason now).2.violations =
      tracker.violations.insert agentId
        (tracker.agentViolations agentId ++
          [{ agentId := agentId
             skill := skill
             reason := reason
             timestampMs := now }]) := by
    simp only [record]
    split <;> rfl
  rw [agentViolations, recorded, HashMap.lookup_insert_eq]
  split <;> rfl

theorem agentViolations_release (tracker : ViolationTracker)
    (agentId other : String) :
    (tracker.release agentId).agentViolations other =
      if other = agentId then [] else tracker.agentViolations other := by
  rw [agentViolations, release, HashMap.lookup_erase_eq]
  split <;> rfl

theorem isQuarantined_record (tracker : ViolationTracker)
    (agentId skill reason : String) (now : Nat) (other : String) :
    (tracker.record agentId skill reason now).2.isQuarantined other =
      (tracker.isQuarantined other ||
        (decide (other = agentId) &&
          decide (((tracker.agentViolations agentId).length + 1) % 2 ^ 32 ≥
            quarantineThreshold))) := by
  rw [record]
  simp only [List.length_append, List.length_singleton]
  split
  next reached =>
    rw [decide_eq_true reached, Bool.and_true]
    simp [isQuarantined, AList.mem_insert, Bool.or_comm, Bool.decide_or]
  next below =>
    rw [decide_eq_false below, Bool.and_false, Bool.or_false]
    rfl

theorem isQuarantined_release (tracker : ViolationTracker)
    (agentId other : String) :
    (tracker.release agentId).isQuarantined other =
      (tracker.isQuarantined other && !decide (other = agentId)) := by
  simp [isQuarantined, release, AList.mem_erase, Bool.and_comm]

theorem settled_record {tracker : ViolationTracker}
    (settled : tracker.Settled) (agentId skill reason : String) (now : Nat) :
    (tracker.record agentId skill reason now).2.Settled := by
  intro other quarantined
  rw [agentViolations_record]
  by_cases same : other = agentId
  · simp [same]
  · rw [if_neg same]
    apply settled other
    simp only [record] at quarantined
    split at quarantined
    · simpa [isQuarantined, same] using quarantined
    · exact quarantined

theorem settled_release {tracker : ViolationTracker}
    (settled : tracker.Settled) (agentId : String) :
    (tracker.release agentId).Settled := by
  intro other quarantined
  by_cases same : other = agentId
  · simp [isQuarantined, release, same] at quarantined
  · have kept : (tracker.release agentId).agentViolations other =
        tracker.agentViolations other := by
      simp [agentViolations, release, same]
    rw [kept]
    apply settled other
    simpa [isQuarantined, release, same] using quarantined

end ViolationTracker

structure ResourceLimits where
  maxMemoryBytes : Nat
  maxFuel : Nat
  maxTimeMs : Nat
deriving DecidableEq, Repr

structure ResourceUsage where
  memoryBytes : Nat
  memoryLimit : Nat
  fuelUsed : Nat
  fuelLimit : Nat
  elapsedMs : Nat
  timeLimitMs : Nat
deriving DecidableEq, Repr

/-- The usage of one execution; the time since its start is read by the
operations that look at it. -/
structure ResourceTracker where
  limits : ResourceLimits
  memoryUsed : Nat
  fuelUsed : Nat
deriving DecidableEq, Repr

namespace ResourceTracker

def start (limits : ResourceLimits) : ResourceTracker :=
  { limits := limits
    memoryUsed := 0
    fuelUsed := 0 }

/-- Record an allocation; `false` when it exceeds the budget. -/
def allocate (tracker : ResourceTracker) (bytes : Nat) :
    Bool × ResourceTracker :=
  let memoryUsed := wrappingAdd 64 tracker.memoryUsed bytes
  (memoryUsed ≤ tracker.limits.maxMemoryBytes,
    { tracker with memoryUsed := memoryUsed })

/-- Record fuel; `false` when it exceeds the budget. -/
def consumeFuel (tracker : ResourceTracker) (fuel : Nat) :
    Bool × ResourceTracker :=
  let fuelUsed := wrappingAdd 64 tracker.fuelUsed fuel
  (fuelUsed ≤ tracker.limits.maxFuel, { tracker with fuelUsed := fuelUsed })

def isTimedOut (tracker : ResourceTracker) (elapsedMs : Nat) : Bool :=
  elapsedMs > tracker.limits.maxTimeMs

/-- The first limit that is exceeded.  The elapsed time is read once for the
comparison and once more for the message. -/
def checkLimits (tracker : ResourceTracker) (elapsedMs messageMs : Nat) :
    Option String :=
  if tracker.memoryUsed > tracker.limits.maxMemoryBytes then
    some ("memory: " ++ tracker.memoryUsed.repr ++ " > " ++
      tracker.limits.maxMemoryBytes.repr ++ " bytes")
  else if tracker.fuelUsed > tracker.limits.maxFuel then
    some ("fuel: " ++ tracker.fuelUsed.repr ++ " > " ++
      tracker.limits.maxFuel.repr)
  else if tracker.isTimedOut elapsedMs then
    some ("time: " ++ messageMs.repr ++ "ms > " ++
      tracker.limits.maxTimeMs.repr ++ "ms")
  else none

def usage (tracker : ResourceTracker) (elapsedMs : Nat) : ResourceUsage :=
  { memoryBytes := tracker.memoryUsed
    memoryLimit := tracker.limits.maxMemoryBytes
    fuelUsed := tracker.fuelUsed
    fuelLimit := tracker.limits.maxFuel
    elapsedMs := elapsedMs
    timeLimitMs := tracker.limits.maxTimeMs }

theorem checkLimits_eq_none_iff (tracker : ResourceTracker)
    (elapsedMs messageMs : Nat) :
    tracker.checkLimits elapsedMs messageMs = none ↔
      tracker.memoryUsed ≤ tracker.limits.maxMemoryBytes ∧
        tracker.fuelUsed ≤ tracker.limits.maxFuel ∧
          elapsedMs ≤ tracker.limits.maxTimeMs := by
  simp only [checkLimits, isTimedOut, decide_eq_true_eq]
  split
  · simp
    omega
  · split
    · simp
      omega
    · split
      · simp
        omega
      · simp
        omega

end ResourceTracker

end Ughi.Sandbox
