import Ughi.Orchestrator.Identifiers
import Ughi.Orchestrator.Lifecycle

/-!
# How many agents there are

A spawn draws its identifier from the clock alone and overwrites whatever
agent has it.  So the client has as many agents as were spawned and not killed
exactly as long as no spawn reads the clock with the same symbols as the spawn
of an agent that is still there.
-/

namespace Ughi.Orchestrator

open Ughi.Lib

namespace Client

/-- The identifier a spawn would draw is not that of an agent; a full client
draws none. -/
def DrawsFresh (client : Client) (unixNano : Int) : Prop :=
  (HashMap.size client.agents : Int) < client.maxAgents →
    ∀ agentID, generateAgentID unixNano = some agentID →
      agentID ∉ client.agents

/-- A spawn that succeeds adds one agent, under a new identifier, and leaves
every other agent as it was. -/
def SpawnsAnother (client : Client) (request : SpawnRequest)
    (readings : SpawnReadings) : Prop :=
  ∀ response, (client.spawn request readings).1 = .ok response →
    HashMap.size (client.spawn request readings).2.agents =
        HashMap.size client.agents + 1 ∧
      response.agentID ∉ client.agents ∧
      ∀ agentID snapshot, client.agents.lookup agentID = some snapshot →
        (client.spawn request readings).2.agents.lookup agentID =
          some snapshot

/-- A client, how many agents were killed, and for each agent that is still
there the clock reading of its spawn. -/
structure Census where
  client : Client
  kills : Nat
  readings : HashMap String Int

def Census.start (maxAgents : Int) : Census :=
  { client := new maxAgents
    kills := 0
    readings := ∅ }

/-- One more for a kill that succeeds. -/
def killsAfter (census : Census) : Call → Nat
  | .kill agentID unixMilli =>
      match (census.client.kill agentID unixMilli).1 with
      | .ok _ => census.kills + 1
      | .error _ => census.kills
      | .panic => census.kills
  | _ => census.kills

/-- Note the reading of a spawn that succeeds. -/
def noteSpawn (readings : HashMap String Int) (unixNano : Int) :
    Reply SpawnResponse → HashMap String Int
  | .ok response => readings.insert response.agentID unixNano
  | .error _ => readings
  | .panic => readings

def readingsAfter (census : Census) : Call → HashMap String Int
  | .spawn request readings =>
      noteSpawn census.readings readings.unixNano
        (census.client.spawn request readings).1
  | .kill agentID unixMilli =>
      match (census.client.kill agentID unixMilli).1 with
      | .ok _ => census.readings.erase agentID
      | .error _ => census.readings
      | .panic => census.readings
  | .transition _ _ => census.readings
  | .runAgent goal priority readings _ =>
      noteSpawn census.readings readings.unixNano
        (census.client.spawn
          { goal := goal, priority := priority, parentID := "" } readings).1

def serveCounted (census : Census) (call : Call) : Census :=
  { client := census.client.serve call
    kills := killsAfter census call
    readings := readingsAfter census call }

/-- No agent that is still there was spawned at a reading with the symbols of
this one; a full client, or a reading that is out of range, draws none. -/
def Census.ReadsApart (census : Census) (unixNano : Int) : Prop :=
  (HashMap.size census.client.agents : Int) < census.client.maxAgents →
    IndicesStayInRange unixNano →
      ∀ agentID earlier, census.readings.lookup agentID = some earlier →
        ¬ SameSymbols earlier unixNano

/-- The calls that spawn do so at such a reading. -/
def Census.ReadsApartIn (census : Census) : Call → Prop
  | .spawn _ readings => census.ReadsApart readings.unixNano
  | .runAgent _ _ readings _ => census.ReadsApart readings.unixNano
  | .kill _ _ => True
  | .transition _ _ => True

/-- The agents are those spawned and not killed, and no more than allowed. -/
structure Census.Right (census : Census) : Prop where
  counted : census.client.spawnCount =
    census.kills + HashMap.size census.client.agents
  bounded : (HashMap.size census.client.agents : Int) ≤
    census.client.maxAgents

/-- The readings are those from which the identifiers of the agents were
drawn. -/
structure Census.Noted (census : Census) : Prop where
  present : ∀ agentID,
    agentID ∈ census.client.agents ↔ agentID ∈ census.readings
  drawn : ∀ agentID unixNano,
    census.readings.lookup agentID = some unixNano →
      generateAgentID unixNano = some agentID

section Counters

variable {client : Client}

@[simp] theorem emitEvent_spawnCount (event : AgentEvent) :
    (client.emitEvent event).spawnCount = client.spawnCount := by
  rw [emitEvent]
  split <;> rfl

@[simp] theorem emitEvent_maxAgents (event : AgentEvent) :
    (client.emitEvent event).maxAgents = client.maxAgents := by
  rw [emitEvent]
  split <;> rfl

@[simp] theorem updateMetrics_spawnCount :
    client.updateMetrics.spawnCount = client.spawnCount :=
  rfl

@[simp] theorem updateMetrics_maxAgents :
    client.updateMetrics.maxAgents = client.maxAgents :=
  rfl

/-- What a census sees of a client. -/
structure SameCounts (before after : Client) : Prop where
  spawnCount : after.spawnCount = before.spawnCount
  size : HashMap.size after.agents = HashMap.size before.agents
  maxAgents : after.maxAgents = before.maxAgents
  present : ∀ agentID, agentID ∈ after.agents ↔ agentID ∈ before.agents

theorem SameCounts.refl (client : Client) : SameCounts client client :=
  ⟨rfl, rfl, rfl, fun _ => Iff.rfl⟩

theorem SameCounts.trans {before middle after : Client}
    (first : SameCounts before middle) (second : SameCounts middle after) :
    SameCounts before after where
  spawnCount := second.spawnCount.trans first.spawnCount
  size := second.size.trans first.size
  maxAgents := second.maxAgents.trans first.maxAgents
  present := fun agentID =>
    (second.present agentID).trans (first.present agentID)

theorem sameCounts_transition (request : TransitionRequest)
    (unixMilli : Int) :
    SameCounts client (client.transition request unixMilli).2 := by
  rw [transition]
  cases found : client.agents.lookup request.agentID with
  | none => exact SameCounts.refl client
  | some snapshot =>
      have present := HashMap.mem_of_lookup found
      refine ⟨?_, ?_, ?_, ?_⟩
      · simp [setState]
      · simp [setState, HashMap.size_insert_of_mem present]
      · simp [setState]
      · intro agentID
        simp only [setState, updateMetrics_agents, emitEvent_agents,
          AList.mem_insert]
        constructor
        · rintro (rfl | other)
          · exact present
          · exact other
        · exact .inr

theorem sameCounts_proceed (agentID : String) (unixMilli : String → Int)
    (states : List String) :
    SameCounts client (client.proceed agentID unixMilli states).2 := by
  induction states generalizing client with
  | nil => exact SameCounts.refl client
  | cons state states induction =>
      have moved := @sameCounts_transition client
        { agentID := agentID, newState := state } (unixMilli state)
      rw [proceed]
      split
      · exact moved.trans induction
      · exact moved
      · exact moved

theorem sameCounts_runAgent (goal priority : String)
    (readings : SpawnReadings) (unixMilli : String → Int) :
    SameCounts
      (client.spawn { goal := goal, priority := priority, parentID := "" }
        readings).2
      (client.runAgent goal priority readings unixMilli).2 := by
  rw [runAgent]
  split
  · exact sameCounts_proceed _ unixMilli runStates
  · exact SameCounts.refl _
  · exact SameCounts.refl _

theorem sameCounts_kill_of_missing {agentID : String}
    (missing : client.agents.lookup agentID = none) (unixMilli : Int) :
    SameCounts client (client.kill agentID unixMilli).2 := by
  rw [kill, missing]
  exact SameCounts.refl client

end Counters

section Spawning

variable {client : Client} {request : SpawnRequest} {readings : SpawnReadings}

theorem spawn_of_drawn {agentID : String}
    (room : (HashMap.size client.agents : Int) < client.maxAgents)
    (drawn : generateAgentID readings.unixNano = some agentID) :
    client.spawn request readings =
      (.ok { agentID := agentID, spawnLatencyUs := readings.latencyUs },
        client.insertSpawned agentID request readings.unixMilli) := by
  rw [spawn, if_neg (Int.not_le.mpr room), drawn]

theorem drawn_of_spawn {response : SpawnResponse}
    (spawned : (client.spawn request readings).1 = .ok response) :
    (HashMap.size client.agents : Int) < client.maxAgents ∧
      generateAgentID readings.unixNano = some response.agentID := by
  rw [spawn] at spawned
  split at spawned
  · cases spawned
  next room =>
    split at spawned
    · cases spawned
    next agentID drawn =>
      cases spawned
      exact ⟨Int.not_le.mp room, drawn⟩

theorem spawn_of_undrawn
    (undrawn : ¬ ∃ agentID,
      (HashMap.size client.agents : Int) < client.maxAgents ∧
        generateAgentID readings.unixNano = some agentID) :
    (client.spawn request readings).2 = client := by
  rw [spawn]
  split
  · rfl
  next room =>
    cases drawn : generateAgentID readings.unixNano with
    | none => rfl
    | some agentID =>
        exact absurd ⟨agentID, Int.not_le.mp room, drawn⟩ undrawn

theorem size_insertSpawned (agentID : String) (request : SpawnRequest)
    (unixMilli : Int) :
    HashMap.size (client.insertSpawned agentID request unixMilli).agents =
      HashMap.size client.agents +
        if agentID ∈ client.agents then 0 else 1 := by
  simp only [insertSpawned, updateMetrics_agents, emitEvent_agents]
  split
  next present => exact HashMap.size_insert_of_mem present
  next fresh => exact HashMap.size_insert_of_notMem fresh

theorem spawnsAnother_iff (client : Client) (request : SpawnRequest)
    (readings : SpawnReadings) :
    client.SpawnsAnother request readings ↔
      client.DrawsFresh readings.unixNano := by
  constructor
  · intro another room agentID drawn
    have spawned := @spawn_of_drawn client request readings agentID room drawn
    exact (another _ (congrArg Prod.fst spawned)).2.1
  · intro fresh response spawned
    obtain ⟨room, drawn⟩ := drawn_of_spawn spawned
    have absent := fresh room response.agentID drawn
    rw [spawn_of_drawn room drawn]
    refine ⟨?_, absent, ?_⟩
    · rw [size_insertSpawned, if_neg absent]
    · intro agentID snapshot found
      have other : agentID ≠ response.agentID := by
        intro same
        rw [← same] at absent
        exact absent (HashMap.mem_of_lookup found)
      simp only [insertSpawned, updateMetrics_agents, emitEvent_agents]
      rw [HashMap.lookup_insert_eq, if_neg other]
      exact found

end Spawning

section Steps

variable {census after : Census}

theorem right_of_sameCounts (right : census.Right)
    (kills : after.kills = census.kills)
    (same : SameCounts census.client after.client) : after.Right := by
  refine ⟨?_, ?_⟩
  · rw [kills, same.spawnCount, same.size]
    exact right.counted
  · rw [same.size, same.maxAgents]
    exact right.bounded

theorem right_insertSpawned_iff (right : census.Right)
    (room : (HashMap.size census.client.agents : Int) <
      census.client.maxAgents)
    (agentID : String) (request : SpawnRequest) (unixMilli : Int)
    (kills : after.kills = census.kills)
    (same : SameCounts
      (census.client.insertSpawned agentID request unixMilli)
      after.client) :
    after.Right ↔ agentID ∉ census.client.agents := by
  have size := @size_insertSpawned census.client agentID request unixMilli
  have spawnCount : after.client.spawnCount =
      census.client.spawnCount + 1 := by
    rw [same.spawnCount]
    simp [insertSpawned]
  have maxAgents : after.client.maxAgents = census.client.maxAgents := by
    rw [same.maxAgents]
    simp [insertSpawned]
  have counted := right.counted
  constructor
  · intro rightAfter present
    have countedAfter := rightAfter.counted
    rw [spawnCount, kills, same.size, size, if_pos present] at countedAfter
    omega
  · intro fresh
    rw [if_neg fresh] at size
    refine ⟨?_, ?_⟩
    · rw [spawnCount, kills, same.size, size]
      omega
    · rw [maxAgents, same.size, size]
      omega

/-- After a spawn, and whatever only moves agents after it, the census is
right exactly when the identifier was fresh. -/
theorem right_spawn_iff (right : census.Right) (request : SpawnRequest)
    {readings : SpawnReadings} (kills : after.kills = census.kills)
    (same : SameCounts (census.client.spawn request readings).2
      after.client) :
    after.Right ↔ census.client.DrawsFresh readings.unixNano := by
  by_cases draws : ∃ agentID,
      (HashMap.size census.client.agents : Int) < census.client.maxAgents ∧
        generateAgentID readings.unixNano = some agentID
  · obtain ⟨agentID, room, drawn⟩ := draws
    rw [spawn_of_drawn room drawn] at same
    rw [right_insertSpawned_iff right room agentID request _ kills same]
    constructor
    · intro fresh _ other found
      cases Option.some.inj (drawn.symm.trans found)
      exact fresh
    · intro fresh
      exact fresh room agentID drawn
  · rw [spawn_of_undrawn draws] at same
    refine iff_of_true (right_of_sameCounts right kills same) ?_
    intro room agentID drawn
    exact absurd ⟨agentID, room, drawn⟩ draws

theorem right_kill (right : census.Right) (agentID : String)
    (unixMilli : Int) :
    (serveCounted census (.kill agentID unixMilli)).Right := by
  cases found : census.client.agents.lookup agentID with
  | none =>
      apply right_of_sameCounts right
      · simp [serveCounted, killsAfter, kill, found]
      · exact sameCounts_kill_of_missing found unixMilli
  | some snapshot =>
      have fewer := HashMap.size_erase_of_mem (HashMap.mem_of_lookup found)
      have counted := right.counted
      have bounded := right.bounded
      rw [serveCounted, serve, killsAfter, kill, found]
      refine ⟨?_, ?_⟩
      · simp only [updateMetrics_spawnCount, emitEvent_spawnCount,
          updateMetrics_agents, emitEvent_agents]
        omega
      · simp only [updateMetrics_maxAgents, emitEvent_maxAgents,
          updateMetrics_agents, emitEvent_agents]
        omega

/-! ## The readings of the agents -/

theorem noted_of_sameCounts (noted : census.Noted)
    (readings : after.readings = census.readings)
    (same : SameCounts census.client after.client) : after.Noted where
  present := by
    intro agentID
    rw [readings, same.present]
    exact noted.present agentID
  drawn := by
    rw [readings]
    exact noted.drawn

theorem noted_spawn (noted : census.Noted) (request : SpawnRequest)
    {readings : SpawnReadings}
    (noting : after.readings =
      noteSpawn census.readings readings.unixNano
        (census.client.spawn request readings).1)
    (same : SameCounts (census.client.spawn request readings).2
      after.client) :
    after.Noted := by
  by_cases draws : ∃ agentID,
      (HashMap.size census.client.agents : Int) < census.client.maxAgents ∧
        generateAgentID readings.unixNano = some agentID
  · obtain ⟨agentID, room, drawn⟩ := draws
    rw [spawn_of_drawn room drawn] at noting same
    refine ⟨?_, ?_⟩
    · intro other
      rw [same.present, noting, noteSpawn, AList.mem_insert,
        ← noted.present other]
      simp only [insertSpawned, updateMetrics_agents, emitEvent_agents,
        AList.mem_insert]
    · intro other unixNano found
      rw [noting, noteSpawn, HashMap.lookup_insert_eq] at found
      split at found
      next own =>
        cases found
        rw [own]
        exact drawn
      next another => exact noted.drawn other unixNano found
  · have kept : (census.client.spawn request readings).2 = census.client :=
      spawn_of_undrawn draws
    have failed : noteSpawn census.readings readings.unixNano
        (census.client.spawn request readings).1 = census.readings := by
      cases reply : (census.client.spawn request readings).1 with
      | ok response =>
          obtain ⟨room, drawn⟩ := drawn_of_spawn reply
          exact absurd ⟨response.agentID, room, drawn⟩ draws
      | error message => rfl
      | panic => rfl
    rw [kept] at same
    exact noted_of_sameCounts noted (noting.trans failed) same

theorem noted_kill (noted : census.Noted) (agentID : String)
    (unixMilli : Int) :
    (serveCounted census (.kill agentID unixMilli)).Noted := by
  cases found : census.client.agents.lookup agentID with
  | none =>
      apply noted_of_sameCounts noted
      · simp [serveCounted, readingsAfter, kill, found]
      · exact sameCounts_kill_of_missing found unixMilli
  | some snapshot =>
      rw [serveCounted, serve, readingsAfter, kill, found]
      refine ⟨?_, ?_⟩
      · intro other
        simp only [updateMetrics_agents, emitEvent_agents, AList.mem_erase]
        rw [noted.present other]
      · intro other unixNano drawn
        rw [HashMap.lookup_erase_eq] at drawn
        split at drawn
        · cases drawn
        next another => exact noted.drawn other unixNano drawn

/-- Whatever is called, the readings noted are those of the agents that are
there. -/
theorem noted_serveCounted (noted : census.Noted) (call : Call) :
    (serveCounted census call).Noted := by
  cases call with
  | spawn request readings =>
      exact noted_spawn noted request rfl (SameCounts.refl _)
  | kill agentID unixMilli => exact noted_kill noted agentID unixMilli
  | transition request unixMilli =>
      exact noted_of_sameCounts noted rfl
        (sameCounts_transition request unixMilli)
  | runAgent goal priority readings unixMilli =>
      exact noted_spawn noted _ rfl
        (sameCounts_runAgent goal priority readings unixMilli)

/-- An identifier is fresh exactly when the reading it is drawn from is apart
from those of the agents. -/
theorem drawsFresh_iff_readsApart (noted : census.Noted) (unixNano : Int) :
    census.client.DrawsFresh unixNano ↔ census.ReadsApart unixNano := by
  constructor
  · intro fresh room stays agentID earlier found same
    obtain ⟨other, drawn⟩ := (exists_generateAgentID_iff unixNano).mpr stays
    have drawnEarlier := noted.drawn agentID earlier found
    have equal := (generateAgentID_eq_iff drawnEarlier drawn).mpr same
    apply fresh room other drawn
    rw [← equal, noted.present]
    exact HashMap.mem_of_lookup found
  · intro apart room agentID drawn present
    have stays := (exists_generateAgentID_iff unixNano).mp ⟨agentID, drawn⟩
    rw [noted.present] at present
    obtain ⟨earlier, found⟩ := HashMap.mem_iff_exists_lookup.mp present
    have drawnEarlier := noted.drawn agentID earlier found
    exact apart room stays agentID earlier found
      ((generateAgentID_eq_iff drawnEarlier drawn).mp rfl)

theorem right_serveCounted_iff (noted : census.Noted) (right : census.Right)
    (call : Call) :
    (serveCounted census call).Right ↔ census.ReadsApartIn call := by
  cases call with
  | spawn request readings =>
      have exactly : (serveCounted census (.spawn request readings)).Right ↔
          census.client.DrawsFresh readings.unixNano :=
        @right_spawn_iff census _ right request readings rfl
          (SameCounts.refl _)
      exact exactly.trans (drawsFresh_iff_readsApart noted readings.unixNano)
  | kill agentID unixMilli =>
      exact iff_of_true (right_kill right agentID unixMilli) trivial
  | transition request unixMilli =>
      have same := @sameCounts_transition census.client request unixMilli
      exact iff_of_true (right_of_sameCounts right rfl same) trivial
  | runAgent goal priority readings unixMilli =>
      have exactly :
          (serveCounted census
              (.runAgent goal priority readings unixMilli)).Right ↔
            census.client.DrawsFresh readings.unixNano :=
        @right_spawn_iff census _ right _ readings rfl
          (sameCounts_runAgent goal priority readings unixMilli)
      exact exactly.trans (drawsFresh_iff_readsApart noted readings.unixNano)

end Steps

theorem noted_start (maxAgents : Int) : (Census.start maxAgents).Noted where
  present := fun _ => Iff.rfl
  drawn := fun _ _ found => absurd found (by simp [Census.start])

/-- After any calls, a spawn adds an agent and spares the others exactly when
it reads the clock apart from the spawns of the agents that are still there.
In a run, the agents are those spawned and not killed, and no more than
allowed, exactly when every spawn of it does. -/
theorem spawning_keeps_agents_iff (maxAgents : Int) (calls : List Call) :
    (∀ request readings,
      (runCalls serveCounted (.start maxAgents) calls).client.SpawnsAnother
          request readings ↔
        (runCalls serveCounted (.start maxAgents) calls).ReadsApart
          readings.unixNano) ∧
    (Throughout serveCounted Census.Right (.start maxAgents) calls ↔
      0 ≤ maxAgents ∧
        EachCall serveCounted Census.ReadsApartIn (.start maxAgents)
          calls) := by
  constructor
  · intro request readings
    have noted := @invariant_of_calls _ _ serveCounted Census.Noted
      (fun _ call noted => noted_serveCounted noted call) _
      (noted_start maxAgents) calls
    exact (spawnsAnother_iff _ request readings).trans
      (drawsFresh_iff_readsApart noted readings.unixNano)
  · have run : (Census.start maxAgents).Right →
        (Throughout serveCounted Census.Right (.start maxAgents) calls ↔
          EachCall serveCounted Census.ReadsApartIn (.start maxAgents)
            calls) := by
      intro initial
      exact throughout_iff_eachCall
        (fun _ call _ noted => noted_serveCounted noted call)
        (fun _ call _ noted right => right_serveCounted_iff noted right call)
        (fun _ _ => trivial) (noted_start maxAgents) initial
    constructor
    · intro throughout
      have initial : (Census.start maxAgents).Right :=
        throughout [] List.nil_prefix
      exact ⟨initial.bounded, (run initial).mp throughout⟩
    · rintro ⟨allowed, each⟩
      exact (run ⟨rfl, allowed⟩).mpr each

/-- A second spawn at the same reading of the clock overwrites the first
agent. -/
theorem same_clock_overwrites :
    ¬ ∀ (maxAgents : Int) (calls : List Call) (request : SpawnRequest)
      (readings : SpawnReadings),
      (runCalls serve (new maxAgents) calls).SpawnsAnother request
        readings := by
  intro claimed
  let request : SpawnRequest :=
    { goal := "goal"
      priority := ""
      parentID := "" }
  let readings : SpawnReadings :=
    { unixNano := 1700000000000004514
      latencyUs := 1
      unixMilli := 1700000000000 }
  have drawn : generateAgentID readings.unixNano = some "VWJ5izjb0lnS" := by
    decide +kernel
  have another := claimed 8 [.spawn request readings] request readings
  have first := @spawn_of_drawn (new 8) request readings _
    (by simp [new]) drawn
  rw [runCalls_cons, runCalls_nil, serve, first] at another
  have size := @size_insertSpawned (new 8) "VWJ5izjb0lnS" request
    readings.unixMilli
  have room : (HashMap.size ((new 8).insertSpawned "VWJ5izjb0lnS" request
      readings.unixMilli).agents : Int) < 8 := by
    rw [size]
    decide
  have fresh := (spawnsAnother_iff _ request readings).mp another
  apply fresh room "VWJ5izjb0lnS" drawn
  simp [insertSpawned]

end Client

end Ughi.Orchestrator
