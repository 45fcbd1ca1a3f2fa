import Ughi.Agents.Trackers

/-!
# Agents and their lifecycle

The lifecycle machine of an agent and the operations on a single agent.
`Instant` readings are milliseconds of a monotonic clock; the identifier of a
new agent is the string drawn by `nanoid`.
-/

namespace Ughi.Agents

open Ughi.Lib

/-- Agent lifecycle states. -/
inductive AgentState where
  | spawned
  | planning
  | toolUsing
  | thinking
  | collaborating
  | reviewing
  | completing
  | crashed
deriving DecidableEq, Repr

namespace AgentState

/-- The transitions the source lists in its `matches!` table. -/
def workflowEdge : AgentState → AgentState → Bool
  | .spawned, .planning => true
  | .planning, .toolUsing => true
  | .planning, .thinking => true
  | .planning, .collaborating => true
  | .toolUsing, .planning => true
  | .toolUsing, .thinking => true
  | .toolUsing, .reviewing => true
  | .toolUsing, .completing => true
  | .thinking, .planning => true
  | .thinking, .toolUsing => true
  | .thinking, .reviewing => true
  | .thinking, .collaborating => true
  | .thinking, .completing => true
  | .collaborating, .planning => true
  | .collaborating, .thinking => true
  | .collaborating, .reviewing => true
  | .reviewing, .planning => true
  | .reviewing, .toolUsing => true
  | .reviewing, .completing => true
  | _, _ => false

/-- Any state can crash, a crashed agent can only be respawned, and a
completing agent goes nowhere else. -/
def canTransitionTo (state target : AgentState) : Bool :=
  if target = .crashed then true
  else if state = .crashed then target = .spawned
  else if state = .completing then false
  else workflowEdge state target

/-- Human-readable state name. -/
def asStr : AgentState → String
  | .spawned => "spawned"
  | .planning => "planning"
  | .toolUsing => "tool_using"
  | .thinking => "thinking"
  | .collaborating => "collaborating"
  | .reviewing => "reviewing"
  | .completing => "completing"
  | .crashed => "crashed"

theorem asStr_injective {left right : AgentState}
    (same : left.asStr = right.asStr) : left = right := by
  cases left <;> cases right <;> first | rfl | exact absurd same (by decide)

theorem canTransitionTo_spawned {state : AgentState}
    (allowed : state.canTransitionTo .spawned = true) : state = .crashed := by
  cases state <;> first | rfl | exact absurd allowed (by decide)

theorem canTransitionTo_of_completing {target : AgentState}
    (allowed : AgentState.completing.canTransitionTo target = true) :
    target = .crashed := by
  cases target <;> first | rfl | exact absurd allowed (by decide)

theorem canTransitionTo_of_crashed {target : AgentState}
    (allowed : AgentState.crashed.canTransitionTo target = true) :
    target = .crashed ∨ target = .spawned := by
  cases target <;> first
    | exact .inl rfl
    | exact .inr rfl
    | exact absurd allowed (by decide)

end AgentState

/-- Agent execution priority, in the order of the source. -/
inductive AgentPriority where
  | background
  | low
  | normal
  | high
  | critical
deriving DecidableEq, Repr

namespace AgentPriority

/-- The discriminant, which orders the priorities. -/
def rank : AgentPriority → Nat
  | .background => 0
  | .low => 1
  | .normal => 2
  | .high => 3
  | .critical => 4

/-- One starvation boost. -/
def boost : AgentPriority → AgentPriority
  | .background => .low
  | .low => .normal
  | .normal => .high
  | .high => .critical
  | .critical => .critical

end AgentPriority

/-- Per-agent memory model. -/
structure AgentMemoryModel where
  shortTermLimitBytes : Nat := 40 * 1024 * 1024
  longTermLimitBytes : Nat := 15 * 1024 * 1024
  peakLimitBytes : Nat := 140 * 1024 * 1024
  currentUsageBytes : Nat := 0
deriving DecidableEq, Repr

/-- Agent configuration passed at spawn time. -/
structure AgentConfig where
  goal : String
  parentId : Option String := none
  priority : AgentPriority := .normal
  peakMemoryLimit : Option Nat := none
deriving DecidableEq, Repr

/-- A single agent of the pool. -/
structure Agent where
  id : String
  goal : String
  parentId : Option String
  state : AgentState
  priority : AgentPriority
  memoryModel : AgentMemoryModel
  memoryTracker : AgentMemoryTracker
  capabilities : List String
  createdAt : Nat
  lastActive : Nat
  transitionCount : Nat
deriving DecidableEq, Repr

namespace Agent

/-- Spawn a new agent with zero capabilities. -/
def new (id : String) (now : Nat) (config : AgentConfig) : Agent :=
  { id := id
    goal := config.goal
    parentId := config.parentId
    state := .spawned
    priority := config.priority
    memoryModel := {}
    memoryTracker := .new (config.peakMemoryLimit.getD (140 * 1024 * 1024))
    capabilities := []
    createdAt := now
    lastActive := now
    transitionCount := 0 }

/-- Transition to a new state with validation; a refused transition leaves
the agent as it was. -/
def transition (agent : Agent) (now : Nat) (newState : AgentState) :
    Except RuntimeError Agent :=
  if agent.state.canTransitionTo newState then
    .ok { agent with
      state := newState
      lastActive := now
      transitionCount := agent.transitionCount + 1 }
  else
    .error (.invalidTransition agent.id agent.state.asStr newState.asStr)

/-- Terminal states. -/
def isDone (agent : Agent) : Bool :=
  match agent.state with
  | .completing | .crashed => true
  | _ => false

/-- Actively working: neither idle nor done. -/
def isActive (agent : Agent) : Bool :=
  match agent.state with
  | .spawned | .completing | .crashed => false
  | _ => true

def memoryUsage (agent : Agent) : Nat :=
  agent.memoryTracker.currentUsage

/-- The two tests of the source differ on one state: an agent that is not
done and not active has just been spawned. -/
theorem spawned_of_not_isDone_of_not_isActive {agent : Agent}
    (live : agent.isDone = false) (idle : agent.isActive = false) :
    agent.state = .spawned := by
  unfold isDone at live
  unfold isActive at idle
  cases state : agent.state <;> simp_all

theorem isDone_eq_false_iff {agent : Agent} :
    agent.isDone = false ↔
      agent.state ≠ .completing ∧ agent.state ≠ .crashed := by
  unfold isDone
  cases agent.state <;> simp

theorem not_isDone_of_canTransitionTo {agent : Agent}
    {newState : AgentState}
    (allowed : agent.state.canTransitionTo newState = true)
    (noCrash : newState ≠ .crashed) (noRespawn : newState ≠ .spawned) :
    agent.isDone = false := by
  apply isDone_eq_false_iff.mpr
  constructor
  · intro completing
    rw [completing] at allowed
    exact noCrash (AgentState.canTransitionTo_of_completing allowed)
  · intro crashed
    rw [crashed] at allowed
    rcases AgentState.canTransitionTo_of_crashed allowed with again | respawned
    · exact noCrash again
    · exact noRespawn respawned

theorem transition_eq_ok {agent moved : Agent} {now : Nat}
    {newState : AgentState}
    (accepted : agent.transition now newState = .ok moved) :
    agent.state.canTransitionTo newState = true ∧
      moved = { agent with
        state := newState
        lastActive := now
        transitionCount := agent.transitionCount + 1 } := by
  unfold transition at accepted
  split at accepted
  next allowed =>
    cases accepted
    exact ⟨allowed, rfl⟩
  · cases accepted

theorem transition_eq_error {agent : Agent} {now : Nat}
    {newState : AgentState} {error : RuntimeError}
    (refused : agent.transition now newState = .error error) :
    agent.state.canTransitionTo newState = false := by
  unfold transition at refused
  split at refused
  · cases refused
  next forbidden =>
    exact Bool.eq_false_iff.mpr forbidden

end Agent

/-- Snapshot of an agent, as `monitor`, `kill` and `list_agents` return it. -/
structure AgentSnapshot where
  id : String
  goal : String
  state : AgentState
  priority : AgentPriority
  parentId : Option String
  memoryUsageBytes : Nat
  memoryPeakLimitBytes : Nat
  capabilitiesCount : Nat
  transitionCount : Nat
  uptimeMs : Nat
  idleTimeMs : Nat
deriving DecidableEq, Repr

def AgentSnapshot.fromAgent (now : Nat) (agent : Agent) : AgentSnapshot :=
  { id := agent.id
    goal := agent.goal
    state := agent.state
    priority := agent.priority
    parentId := agent.parentId
    memoryUsageBytes := agent.memoryUsage
    memoryPeakLimitBytes := agent.memoryModel.peakLimitBytes
    capabilitiesCount := agent.capabilities.length
    transitionCount := agent.transitionCount
    uptimeMs := now - agent.createdAt
    idleTimeMs := now - agent.lastActive }

end Ughi.Agents
