import Ughi.Orchestrator.Lifecycle

/-!
# The gauge of active agents

After every change the client recounts its map.  It counts the agents that
are not at the end of their lifecycle, and then reports the size of the map
instead.  So the gauge is right exactly as long as no agent of the map is
brought to its end.
-/

namespace Ughi.Orchestrator

open Ughi.Lib

namespace Client

/-- The states that the count of active agents leaves out. -/
def Terminal (state : String) : Prop :=
  state = "completing" ∨ state = "crashed"
deriving Decidable

/-- The count that `updateMetrics` makes and does not report. -/
def activeCount (client : Client) : Nat :=
  (HashMap.values client.agents).foldl
    (fun count agent =>
      if Terminal agent.state then
        if count > 0 then count - 1 else count
      else count)
    (HashMap.size client.agents)

/-- The agents in the map that are not at the end of their lifecycle. -/
def liveAgents (client : Client) : List AgentSnapshot :=
  (HashMap.values client.agents).filter fun agent => ¬ Terminal agent.state

/-- The metrics say how many agents are active and what memory they use. -/
structure Truthful (client : Client) : Prop where
  active : client.metrics.agentsActive = client.liveAgents.length
  memory : client.metrics.memoryTotalBytes =
    HashMap.sumOf AgentSnapshot.memoryUsageBytes client.agents

/-- No agent of the map is at the end of its lifecycle. -/
def AllLive (client : Client) : Prop :=
  ∀ agentID state, client.stateOf agentID = some state → ¬ Terminal state

/-- A transition of an agent in the map does not end its lifecycle, and a
one-shot run, which always does, does not get to spawn its agent. -/
def KeepsLive (client : Client) : Call → Prop
  | .spawn _ _ => True
  | .kill _ _ => True
  | .transition request _ =>
      request.agentID ∈ client.agents → ¬ Terminal request.newState
  | .runAgent _ _ readings _ =>
      client.maxAgents ≤ (HashMap.size client.agents : Int) ∨
        generateAgentID readings.unixNano = none

/-- What the metrics report of the map in fact.  No agent uses memory. -/
structure Metered (client : Client) : Prop where
  active : client.metrics.agentsActive = HashMap.size client.agents
  memory : client.metrics.memoryTotalBytes = 0
  unused : HashMap.Every (fun agent => agent.memoryUsageBytes = 0)
    client.agents

section Counting

theorem foldl_discount (agents : List AgentSnapshot) (count : Nat) :
    agents.foldl
        (fun count agent =>
          if Terminal agent.state then
            if count > 0 then count - 1 else count
          else count)
        count =
      count - agents.countP fun agent => Terminal agent.state := by
  induction agents generalizing count with
  | nil => rfl
  | cons agent agents induction =>
      rw [List.foldl_cons, induction]
      by_cases ended : Terminal agent.state
      · simp only [ended, if_true, List.countP_cons, decide_true]
        split
        · omega
        · omega
      · simp [ended]

variable {client : Client}

theorem length_liveAgents :
    client.liveAgents.length =
      HashMap.size client.agents -
        (HashMap.values client.agents).countP
          fun agent => Terminal agent.state := by
  have parts := @List.length_eq_countP_add_countP _
    (fun agent : AgentSnapshot => decide (Terminal agent.state))
    (HashMap.values client.agents)
  rw [HashMap.values_length] at parts
  rw [liveAgents, ← List.countP_eq_length_filter, parts]
  simp

/-- The count that is not reported is right. -/
theorem activeCount_eq_length_liveAgents (client : Client) :
    client.activeCount = client.liveAgents.length := by
  rw [activeCount, foldl_discount, length_liveAgents]

theorem allLive_iff_values :
    client.AllLive ↔
      ∀ agent ∈ HashMap.values client.agents, ¬ Terminal agent.state := by
  constructor
  · intro live agent member
    obtain ⟨agentID, found⟩ := HashMap.exists_lookup_of_mem_values member
    apply live agentID
    rw [stateOf, found]
    rfl
  · intro live agentID state present
    obtain ⟨agent, found, rfl⟩ := Option.map_eq_some_iff.mp present
    exact live agent (HashMap.mem_values found)

theorem size_eq_length_liveAgents_iff :
    HashMap.size client.agents = client.liveAgents.length ↔
      client.AllLive := by
  rw [allLive_iff_values, liveAgents, ← HashMap.values_length, eq_comm,
    List.length_filter_eq_length_iff]
  simp

end Counting

section Metering

variable {client : Client}

theorem sum_unused
    (unused : HashMap.Every (fun agent : AgentSnapshot =>
      agent.memoryUsageBytes = 0) client.agents) :
    HashMap.sumOf AgentSnapshot.memoryUsageBytes client.agents = 0 := by
  apply List.sum_eq_zero_iff_forall_eq_nat.mpr
  intro bytes member
  obtain ⟨agent, inside, rfl⟩ := List.mem_map.mp member
  obtain ⟨agentID, found⟩ := HashMap.exists_lookup_of_mem_values inside
  exact unused agentID agent found

theorem foldl_unused (agents : List AgentSnapshot)
    (unused : ∀ agent ∈ agents, agent.memoryUsageBytes = 0) :
    agents.foldl
      (fun total agent => wrappingAdd 64 total agent.memoryUsageBytes) 0 =
        0 := by
  induction agents with
  | nil => rfl
  | cons agent agents induction =>
      obtain ⟨first, rest⟩ := List.forall_mem_cons.mp unused
      rw [List.foldl_cons, first]
      exact induction rest

theorem metered_updateMetrics
    (unused : HashMap.Every (fun agent : AgentSnapshot =>
      agent.memoryUsageBytes = 0) client.agents) :
    Metered client.updateMetrics where
  active := rfl
  memory := by
    apply foldl_unused
    intro agent member
    obtain ⟨agentID, found⟩ := HashMap.exists_lookup_of_mem_values member
    exact unused agentID agent found
  unused := unused

theorem metered_new (maxAgents : Int) : Metered (new maxAgents) where
  active := rfl
  memory := rfl
  unused := HashMap.every_empty

theorem metered_spawn (metered : Metered client) (request : SpawnRequest)
    (readings : SpawnReadings) :
    Metered (client.spawn request readings).2 := by
  rw [spawn]
  split
  · exact metered
  · split
    · exact metered
    · apply metered_updateMetrics
      rw [emitEvent_agents]
      exact metered.unused.insert rfl

theorem metered_kill (metered : Metered client) (agentID : String)
    (unixMilli : Int) : Metered (client.kill agentID unixMilli).2 := by
  rw [kill]
  split
  · exact metered
  · apply metered_updateMetrics
    rw [emitEvent_agents]
    exact metered.unused.erase agentID

theorem metered_transition (metered : Metered client)
    (request : TransitionRequest) (unixMilli : Int) :
    Metered (client.transition request unixMilli).2 := by
  rw [transition]
  cases found : client.agents.lookup request.agentID with
  | none => exact metered
  | some snapshot =>
      apply metered_updateMetrics
      rw [emitEvent_agents]
      apply metered.unused.insert
      exact metered.unused request.agentID snapshot found

theorem metered_proceed (metered : Metered client) (agentID : String)
    (unixMilli : String → Int) (states : List String) :
    Metered (client.proceed agentID unixMilli states).2 := by
  induction states generalizing client with
  | nil => exact metered
  | cons state states induction =>
      have moved := metered_transition metered
        { agentID := agentID, newState := state } (unixMilli state)
      rw [proceed]
      split
      · exact induction moved
      · exact moved
      · exact moved

theorem metered_serve (metered : Metered client) (call : Call) :
    Metered (client.serve call) := by
  cases call with
  | spawn request readings => exact metered_spawn metered request readings
  | kill agentID unixMilli => exact metered_kill metered agentID unixMilli
  | transition request unixMilli =>
      exact metered_transition metered request unixMilli
  | runAgent goal priority readings unixMilli =>
      have spawned := metered_spawn metered
        { goal := goal, priority := priority, parentID := "" } readings
      rw [serve, runAgent]
      split
      · exact metered_proceed spawned _ unixMilli runStates
      · exact spawned
      · exact spawned

theorem truthful_iff_allLive (metered : Metered client) :
    client.Truthful ↔ client.AllLive := by
  rw [← size_eq_length_liveAgents_iff]
  constructor
  · intro truthful
    rw [← metered.active]
    exact truthful.active
  · intro counted
    refine ⟨metered.active.trans counted, ?_⟩
    rw [metered.memory, sum_unused metered.unused]

end Metering

section Steps

variable {client : Client}

theorem mem_iff_stateOf {agentID : String} :
    agentID ∈ client.agents ↔
      ∃ state, client.stateOf agentID = some state := by
  rw [← Option.isSome_iff_exists, stateOf, Option.isSome_map,
    AList.lookup_isSome]

theorem allLive_put_iff (live : client.AllLive) {next : Client}
    {agentID state : String}
    (written : ∀ other, next.stateOf other =
      if other = agentID then some state else client.stateOf other) :
    next.AllLive ↔ ¬ Terminal state := by
  constructor
  · intro nextLive
    apply nextLive agentID
    rw [written, if_pos rfl]
  · intro notEnded other otherState present
    rw [written] at present
    split at present
    · cases present
      exact notEnded
    · exact live other otherState present

theorem notTerminal_spawned : ¬ Terminal "spawned" := by
  decide

theorem terminal_completing : Terminal "completing" :=
  .inl rfl

theorem allLive_spawn (live : client.AllLive) (request : SpawnRequest)
    (readings : SpawnReadings) :
    (client.spawn request readings).2.AllLive := by
  rcases client.spawn_cases request readings with
    ⟨agentID, _, written⟩ | ⟨_, unchanged⟩
  · exact (allLive_put_iff live written).mpr notTerminal_spawned
  · rw [unchanged]
    exact live

theorem allLive_kill (live : client.AllLive) (agentID : String)
    (unixMilli : Int) : (client.kill agentID unixMilli).2.AllLive := by
  rcases client.kill_cases agentID unixMilli with
    ⟨_, _, _, written⟩ | ⟨_, _, unchanged⟩
  · intro other state present
    rw [written] at present
    split at present
    · cases present
    · exact live other state present
  · rw [unchanged]
    exact live

theorem allLive_transition_iff (live : client.AllLive)
    (request : TransitionRequest) (unixMilli : Int) :
    (client.transition request unixMilli).2.AllLive ↔
      client.KeepsLive (.transition request unixMilli) := by
  rw [KeepsLive, mem_iff_stateOf]
  rcases client.transition_cases request unixMilli with
    ⟨state, _, present, written⟩ | ⟨_, absent, unchanged⟩
  · rw [allLive_put_iff live written]
    constructor
    · intro notEnded _
      exact notEnded
    · intro kept
      exact kept ⟨state, present⟩
  · rw [unchanged, absent]
    refine iff_of_true live ?_
    rintro ⟨_, impossible⟩
    cases impossible

theorem spawn_failed_iff (client : Client) (request : SpawnRequest)
    (readings : SpawnReadings) :
    (∀ response, (client.spawn request readings).1 ≠ .ok response) ↔
      client.maxAgents ≤ (HashMap.size client.agents : Int) ∨
        generateAgentID readings.unixNano = none := by
  rw [spawn]
  split
  next full => exact iff_of_true (fun _ => by simp) (.inl full)
  next room =>
    cases drawn : generateAgentID readings.unixNano with
    | none => exact iff_of_true (fun _ => by simp) (.inr rfl)
    | some agentID => simpa using room

theorem allLive_runAgent_iff (live : client.AllLive)
    (goal priority : String) (readings : SpawnReadings)
    (unixMilli : String → Int) :
    (client.runAgent goal priority readings unixMilli).2.AllLive ↔
      client.KeepsLive (.runAgent goal priority readings unixMilli) := by
  rw [KeepsLive, ← spawn_failed_iff client
    { goal := goal, priority := priority, parentID := "" } readings]
  rcases client.runAgent_cases goal priority readings unixMilli with
    ⟨response, spawned, _, written⟩ | ⟨failed, _, unchanged⟩
  · rw [allLive_put_iff live written]
    refine iff_of_false (absurd terminal_completing) ?_
    intro failed
    exact failed response spawned
  · rw [unchanged]
    exact iff_of_true live failed

theorem allLive_serve_iff (live : client.AllLive) (call : Call) :
    (client.serve call).AllLive ↔ client.KeepsLive call := by
  cases call with
  | spawn request readings =>
      exact iff_of_true (allLive_spawn live request readings) trivial
  | kill agentID unixMilli =>
      exact iff_of_true (allLive_kill live agentID unixMilli) trivial
  | transition request unixMilli =>
      exact allLive_transition_iff live request unixMilli
  | runAgent goal priority readings unixMilli =>
      exact allLive_runAgent_iff live goal priority readings unixMilli

theorem truthful_serve_iff (metered : Metered client)
    (truthful : client.Truthful) (call : Call) :
    (client.serve call).Truthful ↔ client.KeepsLive call := by
  rw [truthful_iff_allLive (metered_serve metered call)]
  exact allLive_serve_iff ((truthful_iff_allLive metered).mp truthful) call

end Steps

/-- The metrics are true throughout a run exactly when no call of it brings
an agent of the map to its end. -/
theorem gauge_truthful_throughout_iff (maxAgents : Int) (calls : List Call) :
    Throughout serve Truthful (new maxAgents) calls ↔
      EachCall serve KeepsLive (new maxAgents) calls := by
  have metered := metered_new maxAgents
  have kept : ∀ (client : Client) (call : Call), True → Metered client →
      Metered (client.serve call) :=
    fun _ call _ metered => metered_serve metered call
  have initial : (new maxAgents).Truthful := ⟨rfl, rfl⟩
  exact throughout_iff_eachCall kept
    (fun _ call _ metered truthful =>
      truthful_serve_iff metered truthful call)
    (fun _ _ => trivial) metered initial

/-- An agent that has completed is still counted as active. -/
theorem completed_counted_active :
    ¬ ∀ (maxAgents : Int) (calls : List Call),
      Throughout serve Truthful (new maxAgents) calls := by
  intro claimed
  let readings : SpawnReadings :=
    { unixNano := 1700000000000004514
      latencyUs := 1
      unixMilli := 1700000000000 }
  let call : Call := .runAgent "goal" "" readings fun _ => 0
  have truthful := (claimed 8 [call]).last
  have initial : (new 8).Truthful := ⟨rfl, rfl⟩
  rcases (truthful_serve_iff (metered_new 8) initial call).mp truthful with
    full | undrawn
  · have room : ¬ (8 : Int) ≤ 0 := by decide
    exact room full
  · have drawn : generateAgentID readings.unixNano =
        some "VWJ5izjb0lnS" := by
      decide +kernel
    rw [drawn] at undrawn
    cases undrawn

end Client

end Ughi.Orchestrator
