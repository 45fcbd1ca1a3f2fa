import Ughi.Agents.Agent
import Ughi.Lib.Run
import Ughi.Orchestrator.Client

/-!
# When the client follows the agent lifecycle

A mirror runs the runtime's lifecycle machine beside the client and moves only
where that machine allows it.  The transitions the client accepts are moves of
the machine throughout a run exactly when every request on a live agent names a
state that the mirror can move to.
-/

namespace Ughi.Orchestrator

open Ughi.Lib
open Ughi.Agents (AgentState)

/-- The lifecycle states, as a list. -/
def allStates : List AgentState :=
  [.spawned, .planning, .toolUsing, .thinking, .collaborating, .reviewing,
    .completing, .crashed]

/-- The lifecycle state a text names. -/
def namedState (text : String) : Option AgentState :=
  allStates.find? fun state => state.asStr = text

theorem namedState_eq_some_iff {text : String} {state : AgentState} :
    namedState text = some state ↔ state.asStr = text := by
  constructor
  · intro found
    have names := List.find?_some found
    exact of_decide_eq_true names
  · rintro rfl
    cases state <;> rfl

/-- The states of one agent around an accepted transition. -/
structure Move where
  source : Option String
  target : Option String

/-- Both texts name lifecycle states, and the runtime allows the step. -/
def Move.Legal (move : Move) : Prop :=
  ∃ source target : AgentState,
    move.source = some source.asStr ∧ move.target = some target.asStr ∧
      source.canTransitionTo target = true

namespace Client

inductive Call where
  | spawn (request : SpawnRequest) (readings : SpawnReadings)
  | kill (agentID : String) (unixMilli : Int)
  | transition (request : TransitionRequest) (unixMilli : Int)
  | runAgent (goal priority : String) (readings : SpawnReadings)
      (unixMilli : String → Int)

def serve (client : Client) : Call → Client
  | .spawn request readings => (client.spawn request readings).2
  | .kill agentID unixMilli => (client.kill agentID unixMilli).2
  | .transition request unixMilli => (client.transition request unixMilli).2
  | .runAgent goal priority readings unixMilli =>
      (client.runAgent goal priority readings unixMilli).2

/-- The move of a transition that returns nil. -/
def accepted (client : Client) (request : TransitionRequest)
    (unixMilli : Int) : List Move :=
  let moved := client.transition request unixMilli
  match moved.1 with
  | .ok () =>
      [{ source := client.stateOf request.agentID
         target := moved.2.stateOf request.agentID }]
  | _ => []

/-- The moves of the rest of a run. -/
def proceedMoves (client : Client) (agentID : String)
    (unixMilli : String → Int) : List String → List Move
  | [] => []
  | state :: states =>
      let request : TransitionRequest :=
        { agentID := agentID, newState := state }
      let moved := client.transition request (unixMilli state)
      match moved.1 with
      | .ok () =>
          client.accepted request (unixMilli state) ++
            moved.2.proceedMoves agentID unixMilli states
      | _ => []

/-- The moves of the transitions that return nil during a call. -/
def moves (client : Client) : Call → List Move
  | .spawn _ _ | .kill _ _ => []
  | .transition request unixMilli => client.accepted request unixMilli
  | .runAgent goal priority readings unixMilli =>
      let request : SpawnRequest :=
        { goal := goal, priority := priority, parentID := "" }
      let spawned := client.spawn request readings
      match spawned.1 with
      | .ok response =>
          spawned.2.proceedMoves response.agentID unixMilli runStates
      | _ => []

/-- The lifecycle state of every live agent. -/
abbrev Mirror : Type := String → Option AgentState

def Mirror.put (mirror : Mirror) (agentID : String)
    (state : Option AgentState) : Mirror :=
  fun other => if other = agentID then state else mirror other

/-- A client and the lifecycle machine beside it. -/
structure Mirrored where
  client : Client
  mirror : Mirror

def Mirrored.fresh (maxAgents : Int) : Mirrored :=
  { client := .new maxAgents
    mirror := fun _ => none }

/-- The machine spawns and removes agents with the client, runs a one-shot
agent to its end, and takes a transition only where it is allowed. -/
def reflect (state : Mirrored) : Call → Mirror
  | .spawn request readings =>
      match (state.client.spawn request readings).1 with
      | .ok response => state.mirror.put response.agentID (some .spawned)
      | _ => state.mirror
  | .kill agentID _ => state.mirror.put agentID none
  | .transition request _ =>
      match state.mirror request.agentID, namedState request.newState with
      | some source, some target =>
          if source.canTransitionTo target then
            state.mirror.put request.agentID (some target)
          else state.mirror
      | _, _ => state.mirror
  | .runAgent goal priority readings _ =>
      let request : SpawnRequest :=
        { goal := goal, priority := priority, parentID := "" }
      match (state.client.spawn request readings).1 with
      | .ok response => state.mirror.put response.agentID (some .completing)
      | _ => state.mirror

def serveMirrored (state : Mirrored) (call : Call) : Mirrored :=
  { client := state.client.serve call
    mirror := reflect state call }

/-- Every transition the call gets accepted is a step of the lifecycle
machine. -/
def MovesLegal (state : Mirrored) (call : Call) : Prop :=
  ∀ move ∈ state.client.moves call, move.Legal

/-- A transition of a live agent names a state the machine can move to. -/
def NamesSuccessor (state : Mirrored) : Call → Prop
  | .transition request _ =>
      ∀ source, state.mirror request.agentID = some source →
        ∃ target : AgentState, target.asStr = request.newState ∧
          source.canTransitionTo target = true
  | .spawn _ _ | .kill _ _ | .runAgent _ _ _ _ => True

/-- The client and the machine have the same agents in the same states. -/
def Mirrors (state : Mirrored) : Prop :=
  ∀ agentID, state.client.stateOf agentID =
    (state.mirror agentID).map AgentState.asStr

theorem mirrors_fresh (maxAgents : Int) : Mirrors (.fresh maxAgents) := by
  intro agentID
  rfl

section Steps

variable {state : Mirrored} {client : Client}

theorem mirrors_put (mirrors : Mirrors state) {next : Client}
    {agentID : String} {target : Option AgentState}
    (written : ∀ other, next.stateOf other =
      if other = agentID then target.map AgentState.asStr
      else state.client.stateOf other) :
    Mirrors
      { client := next
        mirror := state.mirror.put agentID target } := by
  intro other
  change next.stateOf other =
    (if other = agentID then target else state.mirror other).map
      AgentState.asStr
  rw [written other, mirrors other]
  split <;> rfl

theorem proceed_path (path : List AgentState) {agentID : String}
    (unixMilli : String → Int) {source : AgentState}
    (chain : List.IsChain (fun state target =>
      AgentState.canTransitionTo state target = true) (source :: path))
    (present : client.stateOf agentID = some source.asStr) :
    (∀ move ∈ client.proceedMoves agentID unixMilli
        (path.map AgentState.asStr), move.Legal) ∧
      ∀ other, (client.proceed agentID unixMilli
          (path.map AgentState.asStr)).2.stateOf other =
        if other = agentID then some (path.getLastD source).asStr
        else client.stateOf other := by
  induction path generalizing client source with
  | nil =>
      constructor
      · intro move member
        cases member
      · intro other
        by_cases same : other = agentID
        · simp [proceed, same, present]
        · simp [proceed, same]
  | cons target path induction =>
      obtain ⟨allowed, rest⟩ := List.isChain_cons_cons.mp chain
      rw [List.map_cons, proceedMoves, proceed]
      rcases client.transition_cases
          { agentID := agentID, newState := target.asStr }
          (unixMilli target.asStr) with
        ⟨_, replied, _, written⟩ | ⟨_, absent, _⟩
      · have reached : (client.transition
            { agentID := agentID, newState := target.asStr }
            (unixMilli target.asStr)).2.stateOf agentID =
              some target.asStr := by
          rw [written agentID, if_pos rfl]
        obtain ⟨legal, final⟩ := induction rest reached
        simp only [accepted, replied]
        constructor
        · intro move member
          rcases List.mem_append.mp member with first | later
          · rw [List.mem_singleton.mp first]
            exact ⟨source, target, present, reached, allowed⟩
          · exact legal move later
        · intro other
          rw [final other, written other, List.getLastD_cons]
          by_cases same : other = agentID
          · simp [same]
          · simp [same]
      · rw [absent] at present
        cases present

theorem runStates_legal :
    List.IsChain (fun state target =>
        AgentState.canTransitionTo state target = true)
      [.spawned, .planning, .thinking, .reviewing, .completing] := by
  decide

theorem runAgent_cases (goal priority : String) (readings : SpawnReadings)
    (unixMilli : String → Int) :
    (∃ response,
        (client.spawn { goal := goal, priority := priority, parentID := "" }
            readings).1 = .ok response ∧
          (∀ move ∈ client.moves (.runAgent goal priority readings unixMilli),
            move.Legal) ∧
            ∀ other, (client.runAgent goal priority readings
                unixMilli).2.stateOf other =
              if other = response.agentID then some AgentState.completing.asStr
              else client.stateOf other) ∨
      ((∀ response, (client.spawn
            { goal := goal, priority := priority, parentID := "" }
            readings).1 ≠ .ok response) ∧
        client.moves (.runAgent goal priority readings unixMilli) = [] ∧
          (client.runAgent goal priority readings unixMilli).2 = client) := by
  simp only [moves, runAgent]
  rcases client.spawn_cases
      { goal := goal, priority := priority, parentID := "" } readings with
    ⟨agentID, replied, written⟩ | ⟨failed, unchanged⟩
  · have present : (client.spawn
        { goal := goal, priority := priority, parentID := "" }
        readings).2.stateOf agentID = some AgentState.spawned.asStr := by
      rw [written agentID, if_pos rfl]
      rfl
    obtain ⟨legal, final⟩ := proceed_path
      [.planning, .thinking, .reviewing, .completing] unixMilli
      runStates_legal present
    simp only [replied]
    refine .inl ⟨_, rfl, legal, ?_⟩
    intro other
    apply (final other).trans
    rw [written other]
    by_cases same : other = agentID
    · simp [same]
    · simp [same]
  · cases replied : (client.spawn
        { goal := goal, priority := priority, parentID := "" } readings).1 with
    | ok response => exact absurd replied (failed response)
    | error message =>
        exact .inr ⟨fun response => by simp, rfl, unchanged⟩
    | panic => exact .inr ⟨fun response => by simp, rfl, unchanged⟩

theorem spawn_mirrors (mirrors : Mirrors state) (request : SpawnRequest)
    (readings : SpawnReadings) :
    Mirrors (serveMirrored state (.spawn request readings)) := by
  simp only [serveMirrored, serve, reflect]
  rcases state.client.spawn_cases request readings with
    ⟨agentID, replied, written⟩ | ⟨failed, unchanged⟩
  · rw [replied]
    exact mirrors_put mirrors written
  · rw [unchanged]
    cases replied : (state.client.spawn request readings).1 with
    | ok response => exact absurd replied (failed response)
    | error message => exact mirrors
    | panic => exact mirrors

theorem kill_mirrors (mirrors : Mirrors state) (agentID : String)
    (unixMilli : Int) :
    Mirrors (serveMirrored state (.kill agentID unixMilli)) := by
  apply mirrors_put mirrors
  intro other
  rcases state.client.kill_cases agentID unixMilli with
    ⟨_, _, _, written⟩ | ⟨_, absent, unchanged⟩
  · exact written other
  · simp only [serve, unchanged]
    by_cases same : other = agentID
    · simp [same, absent]
    · simp [same]

theorem transition_mirrors (mirrors : Mirrors state)
    {request : TransitionRequest} {unixMilli : Int}
    (names : NamesSuccessor state (.transition request unixMilli)) :
    Mirrors (serveMirrored state (.transition request unixMilli)) := by
  simp only [serveMirrored, serve, reflect]
  rcases state.client.transition_cases request unixMilli with
    ⟨_, _, present, written⟩ | ⟨_, absent, unchanged⟩
  · rw [mirrors request.agentID] at present
    obtain ⟨source, mirrored, _⟩ := Option.map_eq_some_iff.mp present
    obtain ⟨target, named, allowed⟩ := names source mirrored
    rw [mirrored, namedState_eq_some_iff.mpr named]
    simp only [allowed, if_true]
    apply mirrors_put mirrors
    rw [Option.map_some, named]
    exact written
  · rw [mirrors request.agentID, Option.map_eq_none_iff] at absent
    rw [unchanged, absent]
    exact mirrors

theorem runAgent_mirrors (mirrors : Mirrors state) (goal priority : String)
    (readings : SpawnReadings) (unixMilli : String → Int) :
    Mirrors
      (serveMirrored state (.runAgent goal priority readings unixMilli)) := by
  simp only [serveMirrored, serve, reflect]
  rcases state.client.runAgent_cases goal priority readings unixMilli with
    ⟨response, replied, _, written⟩ | ⟨failed, _, unchanged⟩
  · rw [replied]
    exact mirrors_put mirrors written
  · rw [unchanged]
    cases replied : (state.client.spawn
        { goal := goal, priority := priority, parentID := "" } readings).1 with
    | ok response => exact absurd replied (failed response)
    | error message => exact mirrors
    | panic => exact mirrors

theorem serveMirrored_mirrors (mirrors : Mirrors state) {call : Call}
    (names : NamesSuccessor state call) :
    Mirrors (serveMirrored state call) := by
  cases call with
  | spawn request readings => exact spawn_mirrors mirrors request readings
  | kill agentID unixMilli => exact kill_mirrors mirrors agentID unixMilli
  | transition request unixMilli => exact transition_mirrors mirrors names
  | runAgent goal priority readings unixMilli =>
      exact runAgent_mirrors mirrors goal priority readings unixMilli

/-- While client and machine agree, the accepted moves of a call are legal
exactly when it names a successor. -/
theorem movesLegal_iff_namesSuccessor (mirrors : Mirrors state)
    (call : Call) : MovesLegal state call ↔ NamesSuccessor state call := by
  cases call with
  | spawn request readings =>
      exact iff_of_true (fun _ member => nomatch member) trivial
  | kill agentID unixMilli =>
      exact iff_of_true (fun _ member => nomatch member) trivial
  | runAgent goal priority readings unixMilli =>
      refine iff_of_true ?_ trivial
      rcases state.client.runAgent_cases goal priority readings unixMilli with
        ⟨_, _, legal, _⟩ | ⟨_, none, _⟩
      · exact legal
      · intro move member
        rw [none] at member
        cases member
  | transition request unixMilli =>
      simp only [MovesLegal, NamesSuccessor, moves, accepted]
      rcases state.client.transition_cases request unixMilli with
        ⟨_, replied, present, written⟩ | ⟨replied, absent, _⟩
      · rw [replied, written request.agentID, if_pos rfl,
          mirrors request.agentID]
        rw [mirrors request.agentID] at present
        obtain ⟨source, mirrored, _⟩ := Option.map_eq_some_iff.mp present
        simp only [mirrored, List.mem_singleton, forall_eq, Move.Legal,
          Option.map_some, Option.some.injEq, forall_eq']
        constructor
        · intro legal
          obtain ⟨other, target, same, named, allowed⟩ := legal
          rw [AgentState.asStr_injective same]
          exact ⟨target, named.symm, allowed⟩
        · intro successor
          obtain ⟨target, named, allowed⟩ := successor
          exact ⟨source, target, rfl, named.symm, allowed⟩
      · rw [mirrors request.agentID, Option.map_eq_none_iff] at absent
        simp [replied, absent]

end Steps

/-- Every transition that a run gets accepted is a step of the lifecycle
machine exactly when every request names a successor. -/
theorem movesLegal_eachCall_iff (maxAgents : Int) (calls : List Call) :
    EachCall serveMirrored MovesLegal (.fresh maxAgents) calls ↔
      EachCall serveMirrored NamesSuccessor (.fresh maxAgents) calls := by
  have kept : ∀ state call, Mirrors state → NamesSuccessor state call →
      Mirrors (serveMirrored state call) :=
    fun _ _ mirrors names => serveMirrored_mirrors mirrors names
  have agree : ∀ state call, Mirrors state →
      (MovesLegal state call ↔ NamesSuccessor state call) :=
    fun _ call mirrors => movesLegal_iff_namesSuccessor mirrors call
  exact eachCall_congr kept agree (mirrors_fresh maxAgents) calls

/-- The client moves a fresh agent to a state no machine has. -/
theorem unknown_state_accepted :
    ¬ ∀ (maxAgents : Int) (calls : List Call),
      EachCall serveMirrored MovesLegal (.fresh maxAgents) calls := by
  intro claimed
  let calls : List Call :=
    [.spawn { goal := "goal", priority := "", parentID := "" }
        { unixNano := 1700000000000004514
          latencyUs := 1
          unixMilli := 1700000000000 },
      .transition { agentID := "VWJ5izjb0lnS", newState := "dancing" } 0]
  obtain ⟨_, legal, _⟩ := claimed 8 calls
  obtain ⟨_, target, _, named, _⟩ := legal
    { source := some "spawned", target := some "dancing" }
    List.mem_cons_self
  have unnamed : namedState "dancing" = none := by decide
  rw [namedState_eq_some_iff.mpr (Option.some.inj named).symm] at unnamed
  cases unnamed

end Client

end Ughi.Orchestrator
