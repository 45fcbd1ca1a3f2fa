import Ughi.Orchestrator.Client
import Ughi.Orchestrator.Tree

/-!
# The request handlers

A handler calls the client first and the tree afterwards, and each call holds
the mutex of its own store only.  Requests between the two calls are in flight,
in the order of their client calls; a step begins a request or advances one
that is in flight, so a list of steps is an interleaving.
-/

namespace Ughi.Orchestrator

open Ughi.Lib

/-- A parsed request. -/
inductive Request where
  | spawn (request : SpawnRequest)
  | kill (agentID : String)
  | transition (request : TransitionRequest)
  | run (goal priority : String)
deriving DecidableEq, Repr

inductive Response where
  | failed (status : Nat) (message : String)
  | spawned (agentID : String) (spawnLatencyUs : Int) (goal : String)
  | killed (snapshot : AgentSnapshot)
  | transitioned (agentID newState : String)
  | completed (snapshot : AgentSnapshot)
deriving DecidableEq, Repr

/-- A request whose first client call has succeeded: it still has its tree
call to make, or, for a run, the client calls of the listed states. -/
inductive InFlight where
  | spawned (response : SpawnResponse) (request : SpawnRequest)
  | killed (agentID : String) (snapshot : AgentSnapshot)
  | transitioned (request : TransitionRequest)
  | running (agentID : String) (states : List String)
deriving DecidableEq, Repr

structure Server where
  client : Client
  tree : Tree
  inFlight : List InFlight

inductive Step where
  | start (request : Request) (readings : SpawnReadings)
  | advance (index : Nat) (unixMilli : Int)

/-- A request that ended at once has a response; a panic has none. -/
structure Started where
  response : Option Response
  client : Client
  flight : Option InFlight

namespace Started

def fail (status : Nat) (message : String) (client : Client) : Started :=
  { response := some (.failed status message)
    client := client
    flight := none }

def fly (flight : InFlight) (client : Client) : Started :=
  { response := none
    client := client
    flight := some flight }

/-- Go on with a successful client call, or report its error. -/
def ofReply {α : Type} (replied : Reply α × Client) (status : Nat)
    (flight : α → InFlight) : Started :=
  match replied.1 with
  | .ok value => fly (flight value) replied.2
  | .error message => fail status message replied.2
  | .panic =>
      { response := none
        client := replied.2
        flight := none }

end Started

namespace Server

def new (maxAgents maxNodes : Int) : Server :=
  { client := .new maxAgents
    tree := .new maxNodes
    inFlight := [] }

def startSpawn (client : Client) (request : SpawnRequest)
    (readings : SpawnReadings) : Started :=
  if request.goal = "" then .fail 400 "goal is required" client
  else
    .ofReply (client.spawn request readings) 500 fun response =>
      .spawned response request

def startKill (client : Client) (agentID : String)
    (readings : SpawnReadings) : Started :=
  if agentID = "" then .fail 400 "agent_id is required" client
  else
    .ofReply (client.kill agentID readings.unixMilli) 404 (.killed agentID)

def startTransition (client : Client) (request : TransitionRequest)
    (readings : SpawnReadings) : Started :=
  .ofReply (client.transition request readings.unixMilli) 400 fun _ =>
    .transitioned request

/-- The spawn request of a run. -/
def runRequest (goal priority : String) : SpawnRequest :=
  { goal := goal
    priority := if priority = "" then "high" else priority
    parentID := "" }

def startRun (client : Client) (goal priority : String)
    (readings : SpawnReadings) : Started :=
  if goal = "" then .fail 400 "goal is required" client
  else
    .ofReply (client.spawn (runRequest goal priority) readings) 500
      fun response => .running response.agentID Client.runStates

def startRequest (client : Client) (readings : SpawnReadings) :
    Request → Started
  | .spawn request => startSpawn client request readings
  | .kill agentID => startKill client agentID readings
  | .transition request => startTransition client request readings
  | .run goal priority => startRun client goal priority readings

/-- What a request in flight does next: its response, the stores after it, and
what is left of it. -/
structure Advanced where
  response : Option Response
  client : Client
  tree : Tree
  rest : List InFlight

/-- The next client call of a run. -/
def advanceRun (server : Server) (agentID : String) (unixMilli : Int) :
    List String → Advanced
  | [] =>
      let response : Option Response :=
        match server.client.monitor agentID with
        | .ok snapshot => some (.completed snapshot)
        | .error message => some (.failed 500 message)
        | .panic => none
      { response := response
        client := server.client
        tree := server.tree
        rest := [] }
  | state :: states =>
      let request : TransitionRequest :=
        { agentID := agentID, newState := state }
      let moved := server.client.transition request unixMilli
      match moved.1 with
      | .ok () =>
          { response := none
            client := moved.2
            tree := server.tree
            rest := [.running agentID states] }
      | .error message =>
          { response := some (.failed 500
              ("transition to " ++ state ++ " failed: " ++ message))
            client := moved.2
            tree := server.tree
            rest := [] }
      | .panic =>
          { response := none
            client := moved.2
            tree := server.tree
            rest := [] }

def advanceFlight (server : Server) (unixMilli : Int) : InFlight → Advanced
  | .spawned response request =>
      { response := some (.spawned response.agentID response.spawnLatencyUs
          request.goal)
        client := server.client
        tree := (server.tree.addNode response.agentID request.parentID
          request.goal request.priority unixMilli).tree
        rest := [] }
  | .killed agentID snapshot =>
      { response := some (.killed snapshot)
        client := server.client
        tree := (server.tree.removeNode agentID unixMilli).tree
        rest := [] }
  | .transitioned request =>
      { response := some (.transitioned request.agentID request.newState)
        client := server.client
        tree := (server.tree.updateState request.agentID request.newState
          unixMilli).tree
        rest := [] }
  | .running agentID states => server.advanceRun agentID unixMilli states

/-- One step of the server, and the response it sends. -/
def step (server : Server) : Step → Option Response × Server
  | .start request readings =>
      let started := startRequest server.client readings request
      (started.response,
        { server with
          client := started.client
          inFlight := server.inFlight ++ started.flight.toList })
  | .advance index unixMilli =>
      match server.inFlight[index]? with
      | none => (none, server)
      | some flight =>
          let advanced := server.advanceFlight unixMilli flight
          (advanced.response,
            { client := advanced.client
              tree := advanced.tree
              inFlight := server.inFlight.take index ++ advanced.rest ++
                server.inFlight.drop (index + 1) })

def serve (server : Server) (step : Step) : Server :=
  (server.step step).2

end Server

end Ughi.Orchestrator
