import Ughi.Lib.HashMap
import Ughi.Lib.Run
import Ughi.Agents.Scheduler

/-!
# The micro-kernel runtime

Every operation runs under one lock, so an operation is a function from the
runtime to its result and the runtime it leaves behind, also when it fails.
What the source reads from its surroundings is an argument: the identifier
drawn for a new agent, the clock, the measured spawn latency, and the
tie-breaking of the heap.

The `*_cases` theorems say once what each operation can do; invariants are
proved from them.
-/

namespace Ughi.Agents

open Ughi.Lib

/-- Runtime configuration, as far as an operation reads it. -/
structure RuntimeConfig where
  maxAgents : Nat := 50
deriving DecidableEq, Repr

abbrev AgentPool : Type := HashMap String Agent

/-- The runtime: the state behind its lock, its trackers and its
configuration. -/
structure Runtime where
  agents : AgentPool
  scheduler : Scheduler
  running : Bool
  systemMemory : SystemMemoryTracker
  metrics : RuntimeMetrics
  config : RuntimeConfig

namespace Runtime

def withConfig (config : RuntimeConfig) : Runtime :=
  { agents := ∅
    scheduler := .new config.maxAgents
    running := true
    systemMemory := .new
    metrics := .new
    config := config }

def spawn (rt : Runtime) (config : AgentConfig) (id : String)
    (now elapsedUs : Nat) : Except RuntimeError String × Runtime :=
  if !rt.running then
    (.error .shuttingDown, rt)
  else if HashMap.size rt.agents ≥ rt.config.maxAgents then
    (.error (.agentLimitExceeded rt.config.maxAgents), rt)
  else
    let agent := Agent.new id now config
    if id ∈ rt.agents then
      (.error (.agentAlreadyExists id), rt)
    else
      match rt.scheduler.enqueue id config.priority with
      | (.error error, scheduler) =>
          (.error error, { rt with scheduler := scheduler })
      | (.ok _, scheduler) =>
          (.ok id,
            { rt with
              scheduler := scheduler
              systemMemory := rt.systemMemory.registerAgent 0
              agents := rt.agents.insert id agent
              metrics := rt.metrics.recordSpawn elapsedUs })

def kill (rt : Runtime) (id : String) (now : Nat) :
    Except RuntimeError AgentSnapshot × Runtime :=
  match rt.agents.lookup id with
  | none => (.error (.agentNotFound id), rt)
  | some agent =>
      (.ok (.fromAgent now agent),
        { rt with
          agents := rt.agents.erase id
          scheduler := (rt.scheduler.remove id).2
          systemMemory := rt.systemMemory.unregisterAgent agent.memoryUsage
          metrics := rt.metrics.recordKill })

def transitionAgent (rt : Runtime) (id : String) (newState : AgentState)
    (now : Nat) : Except RuntimeError Unit × Runtime :=
  match rt.agents.lookup id with
  | none => (.error (.agentNotFound id), rt)
  | some agent =>
      match agent.transition now newState with
      | .error error => (.error error, rt)
      | .ok moved =>
          let rt := { rt with agents := rt.agents.insert id moved }
          match newState with
          | .completing =>
              (.ok (),
                { rt with
                  metrics := rt.metrics.recordCompletion
                  scheduler := (rt.scheduler.remove id).2 })
          | .crashed =>
              (.ok (), { rt with metrics := rt.metrics.recordCrash })
          | _ => (.ok (), rt)

/-- Recovery resets the memory tracker, respawns the agent and enqueues it; an
enqueue that fails leaves the first two steps done. -/
def recoverAgent (rt : Runtime) (id : String) (now : Nat) :
    Except RuntimeError Unit × Runtime :=
  match rt.agents.lookup id with
  | none => (.error (.agentNotFound id), rt)
  | some agent =>
      if agent.state ≠ .crashed then
        (.error (.invalidTransition id agent.state.asStr "spawned"), rt)
      else
        let reset :=
          { agent with memoryTracker := agent.memoryTracker.reset }
        match reset.transition now .spawned with
        | .error error =>
            (.error error, { rt with agents := rt.agents.insert id reset })
        | .ok respawned =>
            match rt.scheduler.enqueue id agent.priority with
            | (.error error, scheduler) =>
                (.error error,
                  { rt with
                    agents := rt.agents.insert id respawned
                    scheduler := scheduler })
            | (.ok _, scheduler) =>
                (.ok (),
                  { rt with
                    agents := rt.agents.insert id respawned
                    scheduler := scheduler
                    metrics := rt.metrics.recordSpawn 0 })

/-- The round-robin half of a tick: a dequeued entry of an active agent goes
back into the queue. -/
def requeue (agents : AgentPool) (entry : SchedulerEntry)
    (scheduler : Scheduler) : Except RuntimeError Unit × Scheduler :=
  match agents.lookup entry.agentId with
  | none => (.ok (), scheduler)
  | some agent =>
      if agent.isActive then
        scheduler.enqueue entry.agentId entry.effectivePriority
      else (.ok (), scheduler)

/-- One tick; it drops the result of the re-enqueue, as the source does. -/
def schedulerTick (rt : Runtime) (tie : Nat) : Runtime :=
  if !rt.running then rt
  else
    let metrics := rt.metrics.recordSchedulerTick
    let totalMem := ((HashMap.values rt.agents).map Agent.memoryUsage).foldl
      (wrappingAdd 64) 0
    match rt.scheduler.tick.dequeue tie with
    | (none, scheduler) =>
        { rt with
          scheduler := scheduler
          metrics := metrics.setMemoryTotal totalMem }
    | (some entry, scheduler) =>
        { rt with
          scheduler := (requeue rt.agents entry scheduler).2
          metrics := metrics.recordSchedulerDequeue.setMemoryTotal totalMem }

def shutdown (rt : Runtime) : Runtime :=
  { rt with running := false, agents := ∅ }

def agentAllocate (rt : Runtime) (id : String) (bytes : Nat) :
    Except RuntimeError Unit × Runtime :=
  match rt.agents.lookup id with
  | none => (.error (.agentNotFound id), rt)
  | some agent =>
      match agent.memoryTracker.allocate bytes with
      | (.error error, tracker) =>
          (.error error,
            { rt with
              agents := rt.agents.insert id
                { agent with memoryTracker := tracker } })
      | (.ok _, tracker) =>
          (.ok (),
            { rt with
              agents := rt.agents.insert id
                { agent with memoryTracker := tracker }
              systemMemory := rt.systemMemory.addBytes bytes })

def agentDeallocate (rt : Runtime) (id : String) (bytes : Nat) :
    Except RuntimeError Unit × Runtime :=
  match rt.agents.lookup id with
  | none => (.error (.agentNotFound id), rt)
  | some agent =>
      (.ok (),
        { rt with
          agents := rt.agents.insert id
            { agent with
              memoryTracker := agent.memoryTracker.deallocate bytes }
          systemMemory := rt.systemMemory.subBytes bytes })

/-- The calls a runtime serves. -/
inductive Call where
  | spawn (config : AgentConfig) (id : String) (now elapsedUs : Nat)
  | kill (id : String) (now : Nat)
  | transitionAgent (id : String) (newState : AgentState) (now : Nat)
  | recoverAgent (id : String) (now : Nat)
  | schedulerTick (tie : Nat)
  | agentAllocate (id : String) (bytes : Nat)
  | agentDeallocate (id : String) (bytes : Nat)
  | shutdown
deriving DecidableEq, Repr

/-- Byte counts are machine words. -/
def Call.BytesFit : Call → Prop
  | .agentAllocate _ bytes => bytes < 2 ^ 64
  | .agentDeallocate _ bytes => bytes < 2 ^ 64
  | _ => True

/-- The runtime after a call. -/
def serve (rt : Runtime) : Call → Runtime
  | .spawn config id now elapsedUs => (rt.spawn config id now elapsedUs).2
  | .kill id now => (rt.kill id now).2
  | .transitionAgent id newState now => (rt.transitionAgent id newState now).2
  | .recoverAgent id now => (rt.recoverAgent id now).2
  | .schedulerTick tie => rt.schedulerTick tie
  | .agentAllocate id bytes => (rt.agentAllocate id bytes).2
  | .agentDeallocate id bytes => (rt.agentDeallocate id bytes).2
  | .shutdown => rt.shutdown

/-! ## What each operation can do -/

/-- The agent a recovery leaves in the pool. -/
def respawn (agent : Agent) (now : Nat) : Agent :=
  { agent with
    memoryTracker := agent.memoryTracker.reset
    state := .spawned
    lastActive := now
    transitionCount := agent.transitionCount + 1 }

section Cases

variable (rt : Runtime)

/-- A spawn is refused without effect, or it enqueues and pools one agent. -/
theorem spawn_cases (config : AgentConfig) (id : String)
    (now elapsedUs : Nat) :
    (∃ error, rt.spawn config id now elapsedUs = (.error error, rt) ∧
        ∀ capacity, error = .schedulerFull capacity →
          HashMap.size rt.agents < rt.config.maxAgents ∧
            rt.scheduler.capacity ≤ rt.scheduler.queue.length) ∨
      (HashMap.size rt.agents < rt.config.maxAgents ∧ id ∉ rt.agents ∧
        rt.scheduler.queue.length < rt.scheduler.capacity ∧
        rt.spawn config id now elapsedUs =
          (.ok id,
            { rt with
              scheduler := (rt.scheduler.enqueue id config.priority).2
              systemMemory := rt.systemMemory.registerAgent 0
              agents := rt.agents.insert id (Agent.new id now config)
              metrics := rt.metrics.recordSpawn elapsedUs })) := by
  unfold spawn
  split
  · exact .inl ⟨_, rfl, by simp⟩
  · split
    · exact .inl ⟨_, rfl, by simp⟩
    next below =>
      simp only
      split
      · exact .inl ⟨_, rfl, by simp⟩
      next fresh =>
        by_cases room : rt.scheduler.queue.length < rt.scheduler.capacity
        · rw [Scheduler.enqueue_eq_of_room room]
          exact .inr ⟨Nat.lt_of_not_le below, fresh, room, rfl⟩
        · have full := Nat.le_of_not_lt room
          rw [Scheduler.enqueue_of_full full]
          exact .inl ⟨_, rfl, fun _ _ => ⟨Nat.lt_of_not_le below, full⟩⟩

theorem kill_cases (id : String) (now : Nat) :
    (∃ error, rt.kill id now = (.error error, rt)) ∨
      ∃ agent, rt.agents.lookup id = some agent ∧
        rt.kill id now =
          (.ok (.fromAgent now agent),
            { rt with
              agents := rt.agents.erase id
              scheduler := (rt.scheduler.remove id).2
              systemMemory :=
                rt.systemMemory.unregisterAgent agent.memoryUsage
              metrics := rt.metrics.recordKill }) := by
  unfold kill
  split
  · exact .inl ⟨_, rfl⟩
  next agent found =>
    exact .inr ⟨agent, found, rfl⟩

/-- A transition is refused without effect, or it moves one agent along an
edge of the lifecycle; only completion takes the agent out of the queue. -/
theorem transitionAgent_cases (id : String) (newState : AgentState)
    (now : Nat) :
    ((∀ agent, rt.agents.lookup id = some agent →
          agent.state.canTransitionTo newState = false) ∧
        ∃ error, rt.transitionAgent id newState now = (.error error, rt)) ∨
      ∃ agent moved, rt.agents.lookup id = some agent ∧
        agent.transition now newState = .ok moved ∧
        rt.transitionAgent id newState now =
          (.ok (),
            { rt with
              agents := rt.agents.insert id moved
              scheduler :=
                if newState = .completing then (rt.scheduler.remove id).2
                else rt.scheduler
              metrics :=
                match newState with
                | .completing => rt.metrics.recordCompletion
                | .crashed => rt.metrics.recordCrash
                | _ => rt.metrics }) := by
  unfold transitionAgent
  split
  next missing =>
    exact .inl ⟨by simp [missing], _, rfl⟩
  next agent found =>
    split
    next refused =>
      refine .inl ⟨?_, _, rfl⟩
      intro other lookup
      cases found.symm.trans lookup
      exact Agent.transition_eq_error refused
    next moved accepted =>
      refine .inr ⟨agent, moved, found, accepted, ?_⟩
      cases newState <;> rfl

/-- A recovery is refused without effect, or it respawns a crashed agent; the
respawned agent is enqueued unless the queue is full. -/
theorem recoverAgent_cases (id : String) (now : Nat) :
    ((∀ agent, rt.agents.lookup id = some agent → agent.state ≠ .crashed) ∧
        ∃ error, rt.recoverAgent id now = (.error error, rt) ∧
          ∀ capacity, error ≠ .schedulerFull capacity) ∨
      ∃ agent, rt.agents.lookup id = some agent ∧ agent.state = .crashed ∧
        ((rt.scheduler.capacity ≤ rt.scheduler.queue.length ∧
            rt.recoverAgent id now =
              (.error (.schedulerFull rt.scheduler.capacity),
                { rt with
                  agents := rt.agents.insert id (respawn agent now) })) ∨
          (rt.scheduler.queue.length < rt.scheduler.capacity ∧
            rt.recoverAgent id now =
              (.ok (),
                { rt with
                  agents := rt.agents.insert id (respawn agent now)
                  scheduler := (rt.scheduler.enqueue id agent.priority).2
                  metrics := rt.metrics.recordSpawn 0 }))) := by
  unfold recoverAgent
  split
  next missing =>
    exact .inl ⟨by simp [missing], _, rfl, by simp⟩
  next agent found =>
    split
    next notCrashed =>
      refine .inl ⟨?_, _, rfl, by simp⟩
      intro other lookup
      cases found.symm.trans lookup
      exact notCrashed
    next crashed =>
      have isCrashed : agent.state = .crashed := not_not.mp crashed
      have respawned :
          Agent.transition
              { agent with memoryTracker := agent.memoryTracker.reset }
              now .spawned =
            .ok (respawn agent now) := by
        simp [Agent.transition, isCrashed, respawn,
          AgentState.canTransitionTo]
      refine .inr ⟨agent, found, isCrashed, ?_⟩
      simp only [respawned]
      by_cases room : rt.scheduler.queue.length < rt.scheduler.capacity
      · rw [Scheduler.enqueue_eq_of_room room]
        exact .inr ⟨room, rfl⟩
      · have full := Nat.le_of_not_lt room
        rw [Scheduler.enqueue_of_full full]
        exact .inl ⟨full, rfl⟩

/-- A tick never touches the pool.  It does nothing once the runtime is shut
down; otherwise it pops at most one entry and requeues it or drops it. -/
theorem schedulerTick_cases (tie : Nat) :
    (rt.running = false ∧ rt.schedulerTick tie = rt) ∨
      (rt.running = true ∧ (rt.schedulerTick tie).agents = rt.agents ∧
        (rt.schedulerTick tie).config = rt.config ∧
        ((rt.scheduler.queue = [] ∧
            (rt.schedulerTick tie).scheduler = rt.scheduler.tick) ∨
          ∃ entry rest,
            rt.scheduler.tick.dequeue tie = (some entry, rest) ∧
              (rt.schedulerTick tie).scheduler =
                (requeue rt.agents entry rest).2)) := by
  unfold schedulerTick
  cases running : rt.running with
  | false => exact .inl ⟨rfl, rfl⟩
  | true =>
      refine .inr ⟨rfl, ?_⟩
      cases popped : rt.scheduler.tick.dequeue tie with
      | mk taken rest =>
          cases taken with
          | none =>
              obtain ⟨empty, unchanged⟩ := Scheduler.dequeue_none popped
              have queueEmpty : rt.scheduler.queue = [] := by
                apply List.length_eq_zero_iff.mp
                rw [← Scheduler.tick_queue_length, empty]
                rfl
              exact ⟨rfl, rfl, .inl ⟨queueEmpty, unchanged⟩⟩
          | some entry =>
              exact ⟨rfl, rfl, .inr ⟨entry, rest, rfl, rfl⟩⟩

theorem schedulerTick_agents (tie : Nat) :
    (rt.schedulerTick tie).agents = rt.agents := by
  rcases rt.schedulerTick_cases tie with ⟨_, unchanged⟩ | ⟨_, samePool, _⟩
  · rw [unchanged]
  · exact samePool

theorem schedulerTick_running (tie : Nat) :
    (rt.schedulerTick tie).running = rt.running := by
  unfold schedulerTick
  split
  · rfl
  · simp only
    split <;> rfl

theorem schedulerTick_counters (tie : Nat) :
    (rt.schedulerTick tie).systemMemory = rt.systemMemory ∧
      (rt.schedulerTick tie).metrics.agentsActive =
        rt.metrics.agentsActive := by
  unfold schedulerTick
  split
  · exact ⟨rfl, rfl⟩
  · simp only
    split <;> exact ⟨rfl, rfl⟩

/-- An allocation is refused and rolled back in the agent's tracker, or both
trackers record it. -/
theorem agentAllocate_cases (id : String) (bytes : Nat) :
    (rt.agents.lookup id = none ∧
        ∃ error, rt.agentAllocate id bytes = (.error error, rt)) ∨
      ∃ agent, rt.agents.lookup id = some agent ∧
        ((∃ error, (agent.memoryTracker.allocate bytes).1 = .error error ∧
            rt.agentAllocate id bytes =
              (.error error,
                { rt with
                  agents := rt.agents.insert id
                    { agent with
                      memoryTracker :=
                        (agent.memoryTracker.allocate bytes).2 } })) ∨
          ((agent.memoryTracker.allocate bytes).1 = .ok () ∧
            rt.agentAllocate id bytes =
              (.ok (),
                { rt with
                  agents := rt.agents.insert id
                    { agent with
                      memoryTracker :=
                        (agent.memoryTracker.allocate bytes).2 }
                  systemMemory := rt.systemMemory.addBytes bytes }))) := by
  unfold agentAllocate
  split
  next missing =>
    exact .inl ⟨missing, _, rfl⟩
  next agent found =>
    refine .inr ⟨agent, found, ?_⟩
    split
    next error tracker allocated =>
      rw [allocated]
      exact .inl ⟨error, rfl, rfl⟩
    next tracker allocated =>
      rw [allocated]
      exact .inr ⟨rfl, rfl⟩

theorem agentDeallocate_cases (id : String) (bytes : Nat) :
    (rt.agents.lookup id = none ∧
        ∃ error, rt.agentDeallocate id bytes = (.error error, rt)) ∨
      ∃ agent, rt.agents.lookup id = some agent ∧
        rt.agentDeallocate id bytes =
          (.ok (),
            { rt with
              agents := rt.agents.insert id
                { agent with
                  memoryTracker := agent.memoryTracker.deallocate bytes }
              systemMemory := rt.systemMemory.subBytes bytes }) := by
  unfold agentDeallocate
  split
  next missing =>
    exact .inl ⟨missing, _, rfl⟩
  next agent found =>
    exact .inr ⟨agent, found, rfl⟩

/-- The later runtime differs at most in the memory tracker of one agent and in
the total of the system. -/
inductive WritesTracker (rt : Runtime) : Runtime → Prop where
  | unchanged : WritesTracker rt rt
  | written {id : String} {agent : Agent}
      (found : rt.agents.lookup id = some agent)
      (tracker : AgentMemoryTracker) (systemMemory : SystemMemoryTracker) :
      WritesTracker rt
        { rt with
          agents := rt.agents.insert id { agent with memoryTracker := tracker }
          systemMemory }

theorem WritesTracker.scheduler {next : Runtime}
    (writes : rt.WritesTracker next) : next.scheduler = rt.scheduler := by
  cases writes with
  | unchanged => rfl
  | written => rfl

theorem agentAllocate_writesTracker (id : String) (bytes : Nat) :
    rt.WritesTracker (rt.agentAllocate id bytes).2 := by
  rcases rt.agentAllocate_cases id bytes with
    ⟨_, _, refused⟩ | ⟨agent, found, ⟨_, _, result⟩ | ⟨_, result⟩⟩
  · rw [refused]
    exact .unchanged
  · rw [result]
    exact .written found _ rt.systemMemory
  · rw [result]
    exact .written found _ _

theorem agentDeallocate_writesTracker (id : String) (bytes : Nat) :
    rt.WritesTracker (rt.agentDeallocate id bytes).2 := by
  rcases rt.agentDeallocate_cases id bytes with
    ⟨_, _, refused⟩ | ⟨agent, found, result⟩
  · rw [refused]
    exact .unchanged
  · rw [result]
    exact .written found _ _

theorem requeue_cases (agents : AgentPool) (entry : SchedulerEntry)
    (rest : Scheduler) :
    requeue agents entry rest = (.ok (), rest) ∨
      ∃ agent, agents.lookup entry.agentId = some agent ∧
        agent.isActive = true ∧
        requeue agents entry rest =
          rest.enqueue entry.agentId entry.effectivePriority := by
  unfold requeue
  split
  · exact .inl rfl
  next agent found =>
    split
    next active =>
      exact .inr ⟨agent, found, active, rfl⟩
    · exact .inl rfl

end Cases

end Runtime

end Ughi.Agents
