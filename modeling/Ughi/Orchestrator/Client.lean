import Ughi.Lib.HashMap
import Ughi.Lib.Word

/-!
# The kernel client

The client keeps the agents of the orchestrator in a map and answers each call
under its mutex.  Readings of the clock are arguments; a panic leaves the
client as it was.
-/

namespace Ughi.Orchestrator

open Ughi.Lib

structure AgentSnapshot where
  id : String
  goal : String
  state : String
  priority : String
  parentID : String
  memoryUsageBytes : Nat
  memoryPeakLimitBytes : Nat
  capabilitiesCount : Nat
  transitionCount : Nat
  uptimeMs : Nat
  idleTimeMs : Nat
deriving DecidableEq, Repr

structure MetricsSnapshot where
  agentsActive : Nat := 0
  agentsTotalSpawned : Nat := 0
  agentsTotalCompleted : Nat := 0
  agentsTotalCrashed : Nat := 0
  memoryTotalBytes : Nat := 0
  lastSpawnLatencyUs : Nat := 0
  schedulerTicks : Nat := 0
  schedulerDequeues : Nat := 0
deriving DecidableEq, Repr

structure SpawnRequest where
  goal : String
  priority : String
  parentID : String
deriving DecidableEq, Repr

structure SpawnResponse where
  agentID : String
  spawnLatencyUs : Int
deriving DecidableEq, Repr

structure TransitionRequest where
  agentID : String
  newState : String
deriving DecidableEq, Repr

structure AgentEvent where
  eventType : String
  agentID : String
  oldState : String
  newState : String
  goal : String
  timestampMs : Int
deriving DecidableEq, Repr

/-- What a call of the client comes back with. -/
inductive Reply (α : Type) where
  | ok (value : α)
  | error (message : String)
  | panic
deriving DecidableEq, Repr

/-- The clock during one spawn: the seed of the identifier, the latency and
the time of the event. -/
structure SpawnReadings where
  unixNano : Int
  latencyUs : Int
  unixMilli : Int
deriving DecidableEq, Repr

structure Client where
  agents : HashMap String AgentSnapshot
  metrics : MetricsSnapshot
  eventCh : List AgentEvent
  maxAgents : Int
  spawnCount : Nat
  completeCount : Nat
  crashCount : Nat

/-- The characters an identifier is drawn from. -/
def charset : List Char :=
  "0123456789ABCDEFGHIJKLMNOPQRSTUVWXYZabcdefghijklmnopqrstuvwxyz".toList

/-- One step of the generator, on signed 64-bit words. -/
def nextSeed (src : Int) : Int :=
  (src * 6364136223846793005 + 1442695040888963407).bmod (2 ^ 64)

/-- The characters drawn from a seed.  The remainder has the sign of the
dividend, so an index can be negative, which panics. -/
def drawChars : Nat → Int → Option (List Char)
  | 0, _ => some []
  | count + 1, src =>
      let next := nextSeed src
      let index := (next >>> (33 : Nat)).tmod charset.length
      if index < 0 then none
      else
        charset[index.toNat]?.bind fun c =>
          (drawChars count next).map (c :: ·)

def generateAgentID (unixNano : Int) : Option String :=
  (drawChars 12 unixNano).map String.ofList

/-- The capacity of the event channel. -/
def eventCapacity : Nat := 256

namespace Client

def new (maxAgents : Int) : Client :=
  { agents := ∅
    metrics := {}
    eventCh := []
    maxAgents := maxAgents
    spawnCount := 0
    completeCount := 0
    crashCount := 0 }

/-- Send an event, or drop it when the channel is full. -/
def emitEvent (client : Client) (event : AgentEvent) : Client :=
  if client.eventCh.length < eventCapacity then
    { client with eventCh := client.eventCh ++ [event] }
  else client

def updateMetrics (client : Client) : Client :=
  { client with
    metrics :=
      { agentsActive := HashMap.size client.agents
        agentsTotalSpawned := client.spawnCount
        agentsTotalCompleted := client.completeCount
        agentsTotalCrashed := client.crashCount
        memoryTotalBytes := (HashMap.values client.agents).foldl
          (fun total agent => wrappingAdd 64 total agent.memoryUsageBytes)
          0 } }

/-- The snapshot of a new agent. -/
def newSnapshot (agentID : String) (request : SpawnRequest) : AgentSnapshot :=
  { id := agentID
    goal := request.goal
    state := "spawned"
    priority := if request.priority = "" then "normal" else request.priority
    parentID := request.parentID
    memoryUsageBytes := 0
    memoryPeakLimitBytes := 140 * 1024 * 1024
    capabilitiesCount := 0
    transitionCount := 0
    uptimeMs := 0
    idleTimeMs := 0 }

def insertSpawned (client : Client) (agentID : String)
    (request : SpawnRequest) (unixMilli : Int) : Client :=
  let inserted : Client :=
    { client with
      agents := client.agents.insert agentID (newSnapshot agentID request)
      spawnCount := client.spawnCount + 1 }
  (inserted.emitEvent
    { eventType := "spawned"
      agentID := agentID
      oldState := ""
      newState := "spawned"
      goal := request.goal
      timestampMs := unixMilli }).updateMetrics

def spawn (client : Client) (request : SpawnRequest)
    (readings : SpawnReadings) : Reply SpawnResponse × Client :=
  if (HashMap.size client.agents : Int) ≥ client.maxAgents then
    (.error ("agent limit exceeded: max " ++ toString client.maxAgents ++
      " agents (strict_rules.md)"), client)
  else
    match generateAgentID readings.unixNano with
    | none => (.panic, client)
    | some agentID =>
        (.ok { agentID := agentID, spawnLatencyUs := readings.latencyUs },
          client.insertSpawned agentID request readings.unixMilli)

def notFound (agentID : String) : String :=
  "agent not found: " ++ agentID

def kill (client : Client) (agentID : String) (unixMilli : Int) :
    Reply AgentSnapshot × Client :=
  match client.agents.lookup agentID with
  | none => (.error (notFound agentID), client)
  | some snapshot =>
      let erased : Client :=
        { client with agents := client.agents.erase agentID }
      (.ok snapshot,
        (erased.emitEvent
          { eventType := "killed"
            agentID := agentID
            oldState := snapshot.state
            newState := ""
            goal := snapshot.goal
            timestampMs := unixMilli }).updateMetrics)

def monitor (client : Client) (agentID : String) : Reply AgentSnapshot :=
  match client.agents.lookup agentID with
  | none => .error (notFound agentID)
  | some snapshot => .ok snapshot

/-- Overwrite the state of an agent; any text is a state. -/
def setState (client : Client) (agentID newState : String)
    (snapshot : AgentSnapshot) (unixMilli : Int) : Client :=
  let moved : Client :=
    { client with
      agents := client.agents.insert agentID
        { snapshot with
          state := newState
          transitionCount := snapshot.transitionCount + 1 }
      completeCount :=
        if newState = "completing" then client.completeCount + 1
        else client.completeCount
      crashCount :=
        if newState = "crashed" then client.crashCount + 1
        else client.crashCount }
  (moved.emitEvent
    { eventType := "transition"
      agentID := agentID
      oldState := snapshot.state
      newState := newState
      goal := snapshot.goal
      timestampMs := unixMilli }).updateMetrics

def transition (client : Client) (request : TransitionRequest)
    (unixMilli : Int) : Reply Unit × Client :=
  match client.agents.lookup request.agentID with
  | none => (.error (notFound request.agentID), client)
  | some snapshot =>
      (.ok (), client.setState request.agentID request.newState snapshot
        unixMilli)

/-- The states a one-shot agent goes through once it is spawned. -/
def runStates : List String :=
  ["planning", "thinking", "reviewing", "completing"]

/-- The rest of a run: the transitions to come, and then a final look at the
agent.  `unixMilli` is the clock at each transition. -/
def proceed (client : Client) (agentID : String) (unixMilli : String → Int) :
    List String → Reply AgentSnapshot × Client
  | [] => (client.monitor agentID, client)
  | state :: states =>
      let request : TransitionRequest :=
        { agentID := agentID, newState := state }
      let moved := client.transition request (unixMilli state)
      match moved.1 with
      | .ok () => moved.2.proceed agentID unixMilli states
      | .error message =>
          (.error ("transition to " ++ state ++ " failed: " ++ message),
            moved.2)
      | .panic => (.panic, moved.2)

def runAgent (client : Client) (goal priority : String)
    (readings : SpawnReadings) (unixMilli : String → Int) :
    Reply AgentSnapshot × Client :=
  let request : SpawnRequest :=
    { goal := goal, priority := priority, parentID := "" }
  let spawned := client.spawn request readings
  match spawned.1 with
  | .ok response => spawned.2.proceed response.agentID unixMilli runStates
  | .error message => (.error message, spawned.2)
  | .panic => (.panic, spawned.2)

/-- The state the client has for an agent. -/
def stateOf (client : Client) (agentID : String) : Option String :=
  (client.agents.lookup agentID).map AgentSnapshot.state

section States

variable {client : Client} {agentID : String}

@[simp] theorem emitEvent_agents (event : AgentEvent) :
    (client.emitEvent event).agents = client.agents := by
  rw [emitEvent]
  split <;> rfl

@[simp] theorem updateMetrics_agents :
    client.updateMetrics.agents = client.agents :=
  rfl

theorem stateOf_eq_none_iff :
    client.stateOf agentID = none ↔ client.agents.lookup agentID = none := by
  rw [stateOf, Option.map_eq_none_iff]

theorem stateOf_insertSpawned (request : SpawnRequest) (unixMilli : Int)
    (other : String) :
    (client.insertSpawned agentID request unixMilli).stateOf other =
      if other = agentID then some "spawned" else client.stateOf other := by
  simp only [stateOf, insertSpawned, updateMetrics_agents, emitEvent_agents]
  rw [HashMap.lookup_insert_eq]
  split <;> rfl

theorem stateOf_setState (newState : String) (snapshot : AgentSnapshot)
    (unixMilli : Int) (other : String) :
    (client.setState agentID newState snapshot unixMilli).stateOf other =
      if other = agentID then some newState else client.stateOf other := by
  simp only [stateOf, setState, updateMetrics_agents, emitEvent_agents]
  rw [HashMap.lookup_insert_eq]
  split <;> rfl

theorem spawn_cases (request : SpawnRequest) (readings : SpawnReadings) :
    (∃ agentID,
        (client.spawn request readings).1 =
            .ok { agentID := agentID, spawnLatencyUs := readings.latencyUs } ∧
          ∀ other, (client.spawn request readings).2.stateOf other =
            if other = agentID then some "spawned"
            else client.stateOf other) ∨
      ((∀ response, (client.spawn request readings).1 ≠ .ok response) ∧
        (client.spawn request readings).2 = client) := by
  simp only [spawn]
  split
  · exact .inr ⟨fun response => by simp, rfl⟩
  · split
    · exact .inr ⟨fun response => by simp, rfl⟩
    next agentID _ =>
      refine .inl ⟨agentID, rfl, ?_⟩
      intro other
      exact stateOf_insertSpawned request readings.unixMilli other

theorem kill_cases (agentID : String) (unixMilli : Int) :
    (∃ snapshot, (client.kill agentID unixMilli).1 = .ok snapshot ∧
        client.stateOf agentID = some snapshot.state ∧
          ∀ other, (client.kill agentID unixMilli).2.stateOf other =
            if other = agentID then none else client.stateOf other) ∨
      ((client.kill agentID unixMilli).1 = .error (notFound agentID) ∧
        client.stateOf agentID = none ∧
          (client.kill agentID unixMilli).2 = client) := by
  simp only [kill]
  cases found : client.agents.lookup agentID with
  | none => exact .inr ⟨rfl, stateOf_eq_none_iff.mpr found, rfl⟩
  | some snapshot =>
      refine .inl ⟨snapshot, rfl, ?_, ?_⟩
      · simp [stateOf, found]
      · intro other
        simp only [stateOf, updateMetrics_agents, emitEvent_agents]
        rw [HashMap.lookup_erase_eq]
        split <;> rfl

theorem transition_cases (request : TransitionRequest) (unixMilli : Int) :
    (∃ state, (client.transition request unixMilli).1 = .ok () ∧
        client.stateOf request.agentID = some state ∧
          ∀ other, (client.transition request unixMilli).2.stateOf other =
            if other = request.agentID then some request.newState
            else client.stateOf other) ∨
      ((client.transition request unixMilli).1 =
          .error (notFound request.agentID) ∧
        client.stateOf request.agentID = none ∧
          (client.transition request unixMilli).2 = client) := by
  simp only [transition]
  cases found : client.agents.lookup request.agentID with
  | none => exact .inr ⟨rfl, stateOf_eq_none_iff.mpr found, rfl⟩
  | some snapshot =>
      refine .inl ⟨snapshot.state, rfl, ?_, ?_⟩
      · simp [stateOf, found]
      · intro other
        exact stateOf_setState request.newState snapshot unixMilli other

end States

end Client

end Ughi.Orchestrator
