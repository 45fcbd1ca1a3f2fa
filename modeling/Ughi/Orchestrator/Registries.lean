import Ughi.Lib.Run
import Ughi.Orchestrator.Handlers

/-!
# When the two registries agree

`settle` carries the tree calls in flight out on the state of one node.  As
long as the steps of a run are `Coordinated`, settling the tree's state of
every node gives the client's state of the agent, so the registries agree
whenever nothing is in flight.
-/

namespace Ughi.Orchestrator

open Ughi.Lib

namespace Tree

/-- The state the tree has for a node. -/
def stateOf (tree : Tree) (id : String) : Option NodeState :=
  (tree.nodes.lookup id).map AgentNode.state

section States

variable {tree : Tree}

theorem stateOf_addNode (id parentID goal priority : String) (now : Int)
    (room : (HashMap.size tree.nodes : Int) < tree.maxNodes)
    (other : String) :
    (tree.addNode id parentID goal priority now).tree.stateOf other =
      if other = id then some stateSpawned else tree.stateOf other := by
  have free : ¬ (HashMap.size tree.nodes : Int) ≥ tree.maxNodes := by omega
  have linked : ∀ node : Option AgentNode,
      (node.map (addChild id)).map AgentNode.state =
        node.map AgentNode.state := by
    intro node
    cases node <;> rfl
  simp only [addNode, if_neg free, stateOf, lookup_link]
  by_cases same : other = id
  · simp only [same, if_true]
    split <;> rfl
  · simp only [same, if_false]
    split
    · exact linked _
    · rfl

theorem stateOf_updateState (id : String) (newState : NodeState) (now : Int)
    (other : String) :
    (tree.updateState id newState now).tree.stateOf other =
      if other = id then (tree.stateOf other).map fun _ => newState
      else tree.stateOf other := by
  simp only [updateState]
  cases found : tree.nodes.lookup id with
  | none =>
      by_cases same : other = id
      · subst same
        simp [stateOf, found]
      · simp [same]
  | some node =>
      simp only [stateOf]
      rw [HashMap.lookup_insert_eq]
      by_cases same : other = id
      · subst same
        simp [found, setState]
      · simp [same]

/-- A removal takes away one node only, when none of its children is left in
the tree. -/
theorem stateOf_removeNode (id : String) (now : Int)
    (childless : ∀ node, tree.nodes.lookup id = some node →
      ∀ child ∈ node.children, child ∈ tree.nodes → child = id)
    (other : String) :
    (tree.removeNode id now).tree.stateOf other =
      if other = id then none else tree.stateOf other := by
  simp only [removeNode]
  cases found : tree.nodes.lookup id with
  | none =>
      by_cases same : other = id
      · subst same
        simp [stateOf, found]
      · simp [same]
  | some node =>
      have dropped : ∀ kept : Option AgentNode,
          (kept.map (dropChild id)).map AgentNode.state =
            kept.map AgentNode.state := by
        intro kept
        cases kept <;> rfl
      have absent : ∀ child ∈ node.children, child ≠ id →
          tree.nodes.lookup child = none := by
        intro child member different
        by_contra present
        obtain ⟨childNode, childFound⟩ :=
          Option.ne_none_iff_exists'.mp present
        exact different (childless node found child member
          (HashMap.mem_of_lookup childFound))
      have kept : (if other = id ∨ other ∈ node.children then none
            else tree.nodes.lookup other) =
          if other = id then none else tree.nodes.lookup other := by
        by_cases same : other = id
        · simp [same]
        · by_cases child : other ∈ node.children
          · simp [same, child, absent other child same]
          · simp [same, child]
      simp only [stateOf, lookup_unlink, kept]
      have plain : ((if other = id then none
            else tree.nodes.lookup other).map AgentNode.state) =
          if other = id then none
          else (tree.nodes.lookup other).map AgentNode.state := by
        split <;> rfl
      rw [← plain]
      split
      · exact dropped _
      · rfl

end States

end Tree

/-- The effect of a tree call in flight on the state of a node. -/
def InFlight.effect (flight : InFlight) (id : String)
    (state : Option String) : Option String :=
  match flight with
  | .spawned response _ =>
      if id = response.agentID then some stateSpawned else state
  | .killed agentID _ => if id = agentID then none else state
  | .transitioned request =>
      if id = request.agentID then state.map fun _ => request.newState
      else state
  | .running _ _ => state

/-- Carry out the tree calls in flight, in the order of their client calls. -/
def settle (flights : List InFlight) (id : String)
    (state : Option String) : Option String :=
  flights.foldl (fun state flight => flight.effect id state) state

theorem settle_append (first second : List InFlight) (id : String)
    (state : Option String) :
    settle (first ++ second) id state =
      settle second id (settle first id state) :=
  List.foldl_append

/-- The node whose state a tree call in flight is about. -/
def InFlight.node : InFlight → Option String
  | .spawned response _ => some response.agentID
  | .killed agentID _ => some agentID
  | .transitioned request => some request.agentID
  | .running _ _ => none

theorem InFlight.effect_of_node_ne {flight : InFlight} {id : String}
    (other : flight.node ≠ some id) (state : Option String) :
    flight.effect id state = state := by
  have different : ∀ agentID, some agentID ≠ some id → id ≠ agentID := by
    intro agentID other same
    exact other (congrArg some same.symm)
  cases flight with
  | spawned response request => exact if_neg (different _ other)
  | killed agentID snapshot => exact if_neg (different _ other)
  | transitioned request => exact if_neg (different _ other)
  | running agentID states => rfl

theorem settle_of_node_ne {flights : List InFlight} {id : String}
    (others : ∀ flight ∈ flights, flight.node ≠ some id)
    (state : Option String) : settle flights id state = state := by
  induction flights generalizing state with
  | nil => rfl
  | cons flight flights induction =>
      obtain ⟨first, later⟩ := List.forall_mem_cons.mp others
      rw [settle, List.foldl_cons, InFlight.effect_of_node_ne first]
      exact induction later state

namespace Server

/-- The same agents in the same states on both sides. -/
def Agree (server : Server) : Prop :=
  ∀ id, server.client.stateOf id = server.tree.stateOf id

/-- The registries agree unless a request is in flight. -/
def AgreeWhenIdle (server : Server) : Prop :=
  server.inFlight = [] → server.Agree

/-- A tree call out of turn leads, with the others still in flight, to the
same states as in its turn. -/
def InTurn (server : Server) (index : Nat) (flight : InFlight) : Prop :=
  ∀ id,
    settle (server.inFlight.eraseIdx index) id
        (flight.effect id (server.tree.stateOf id)) =
      settle server.inFlight id (server.tree.stateOf id)

/-- A tree call is in its turn when no call ahead of it is about its node. -/
theorem inTurn_of_node_ne {server : Server} {index : Nat}
    {flight : InFlight} (found : server.inFlight[index]? = some flight)
    (others : ∀ ahead ∈ server.inFlight.take index, ∀ id,
      flight.node = some id → ahead.node ≠ some id) :
    server.InTurn index flight := by
  intro id
  obtain ⟨inside, same⟩ := List.getElem?_eq_some_iff.mp found
  have whole : server.inFlight.take index ++
      flight :: server.inFlight.drop (index + 1) = server.inFlight := by
    rw [← same, ← List.drop_eq_getElem_cons inside, List.take_append_drop]
  have commutes : settle (server.inFlight.take index) id
        (flight.effect id (server.tree.stateOf id)) =
      flight.effect id
        (settle (server.inFlight.take index) id
          (server.tree.stateOf id)) := by
    by_cases about : flight.node = some id
    · have ahead : ∀ other ∈ server.inFlight.take index,
          other.node ≠ some id :=
        fun other member => others other member id about
      rw [settle_of_node_ne ahead, settle_of_node_ne ahead]
    · rw [InFlight.effect_of_node_ne about,
        InFlight.effect_of_node_ne about]
  rw [List.eraseIdx_eq_take_drop_succ, settle_append, commutes,
    ← congrArg (settle · id (server.tree.stateOf id)) whole, settle_append]
  rfl

/-- No run gets to spawn an agent; tree calls have the effect of their turn;
the tree has room for a node that is added; and a node that is removed has no
child left in the tree. -/
def Coordinated (server : Server) : Step → Prop
  | .start (.run goal priority) readings =>
      goal = "" ∨
        ∀ response, (server.client.spawn (runRequest goal priority)
          readings).1 ≠ .ok response
  | .start _ _ => True
  | .advance index _ =>
      ∀ flight, server.inFlight[index]? = some flight →
        server.InTurn index flight ∧
          match flight with
          | .spawned _ _ =>
              (HashMap.size server.tree.nodes : Int) < server.tree.maxNodes
          | .killed agentID _ =>
              ∀ node, server.tree.nodes.lookup agentID = some node →
                ∀ child ∈ node.children,
                  child ∈ server.tree.nodes → child = agentID
          | .transitioned _ | .running _ _ => True

/-- Requests in flight about different nodes advance in any order while the
tree has room and no node has children. -/
theorem coordinated_advance {server : Server}
    (apart : (server.inFlight.map InFlight.node).Nodup)
    (room : (HashMap.size server.tree.nodes : Int) < server.tree.maxNodes)
    (leaves : ∀ node ∈ HashMap.values server.tree.nodes, node.children = [])
    (index : Nat) (unixMilli : Int) :
    server.Coordinated (.advance index unixMilli) := by
  intro flight found
  constructor
  · apply inTurn_of_node_ne found
    intro ahead member id about same
    obtain ⟨earlier, below, rfl⟩ := List.mem_take_iff_getElem.mp member
    obtain ⟨inside, rfl⟩ := List.getElem?_eq_some_iff.mp found
    have different := List.pairwise_iff_getElem.mp apart earlier index
      (by rw [List.length_map]; omega) (by rwa [List.length_map])
      (by omega)
    rw [List.getElem_map, List.getElem_map] at different
    exact different (same.trans about.symm)
  · cases flight with
    | spawned response request => exact room
    | killed agentID snapshot =>
        intro node stored child member
        rw [leaves node (HashMap.mem_values stored)] at member
        cases member
    | transitioned request => trivial
    | running agentID states => trivial

/-- Settling what is in flight turns the tree's states into the client's, and
no run is in flight. -/
structure Settles (server : Server) : Prop where
  settled : ∀ id, settle server.inFlight id (server.tree.stateOf id) =
    server.client.stateOf id
  noRun : ∀ agentID states, .running agentID states ∉ server.inFlight

theorem settles_new (maxAgents maxNodes : Int) :
    (new maxAgents maxNodes).Settles where
  settled _ := rfl
  noRun _ _ := List.not_mem_nil

theorem Settles.agreeWhenIdle {server : Server} (settles : server.Settles) :
    server.AgreeWhenIdle := by
  intro idle id
  have settled := settles.settled id
  rw [idle] at settled
  exact settled.symm

section Steps

variable {server : Server}

theorem Settles.ended (settles : server.Settles) :
    Settles
      { server with inFlight := server.inFlight ++ [] } := by
  rw [List.append_nil]
  exact settles

theorem Settles.refused {α : Type} (settles : server.Settles)
    {replied : Reply α × Client} (status : Nat) (flight : α → InFlight)
    (failed : ∀ value, replied.1 ≠ .ok value)
    (unchanged : replied.2 = server.client) :
    Settles
      { server with
        client := (Started.ofReply replied status flight).client
        inFlight := server.inFlight ++
          (Started.ofReply replied status flight).flight.toList } := by
  rw [Started.ofReply]
  split
  next value accepted =>
    exact absurd accepted (failed value)
  · rw [Started.fail, unchanged]
    exact settles.ended
  · rw [unchanged]
    exact settles.ended

theorem Settles.flown (settles : server.Settles) {client : Client}
    {flight : InFlight}
    (matched : ∀ id, client.stateOf id =
      flight.effect id (server.client.stateOf id))
    (noRun : ∀ agentID states, flight ≠ .running agentID states) :
    Settles
      { server with
        client := client
        inFlight := server.inFlight ++ [flight] } where
  settled id := by
    rw [settle_append, settles.settled id, matched id]
    rfl
  noRun agentID states := by
    intro member
    rcases List.mem_append.mp member with old | new
    · exact settles.noRun agentID states old
    · exact noRun agentID states (List.mem_singleton.mp new).symm

theorem startSpawn_settles (settles : server.Settles)
    (request : SpawnRequest) (readings : SpawnReadings) :
    (server.serve (.start (.spawn request) readings)).Settles := by
  simp only [serve, step, startRequest, startSpawn]
  split
  · exact settles.ended
  · rcases server.client.spawn_cases request readings with
      ⟨agentID, replied, written⟩ | ⟨failed, unchanged⟩
    · simp only [Started.ofReply, replied]
      exact settles.flown written (by simp)
    · exact settles.refused _ _ failed unchanged

theorem startKill_settles (settles : server.Settles) (agentID : String)
    (readings : SpawnReadings) :
    (server.serve (.start (.kill agentID) readings)).Settles := by
  simp only [serve, step, startRequest, startKill]
  split
  · exact settles.ended
  · rcases server.client.kill_cases agentID readings.unixMilli with
      ⟨snapshot, replied, _, written⟩ | ⟨replied, _, unchanged⟩
    · simp only [Started.ofReply, replied]
      exact settles.flown written (by simp)
    · exact settles.refused _ _ (by simp [replied]) unchanged

theorem startTransition_settles (settles : server.Settles)
    (request : TransitionRequest) (readings : SpawnReadings) :
    (server.serve (.start (.transition request) readings)).Settles := by
  simp only [serve, step, startRequest, startTransition]
  rcases server.client.transition_cases request readings.unixMilli with
    ⟨_, replied, present, written⟩ | ⟨replied, _, unchanged⟩
  · simp only [Started.ofReply, replied]
    have matched : ∀ id,
        (server.client.transition request readings.unixMilli).2.stateOf id =
          (InFlight.transitioned request).effect id
            (server.client.stateOf id) := by
      intro id
      rw [written id, InFlight.effect]
      by_cases same : id = request.agentID
      · simp [same, present]
      · simp [same]
    exact settles.flown matched (by simp)
  · exact settles.refused _ _ (by simp [replied]) unchanged

theorem startRun_settles (settles : server.Settles) {goal priority : String}
    {readings : SpawnReadings}
    (coordinated : server.Coordinated (.start (.run goal priority)
      readings)) :
    (server.serve (.start (.run goal priority) readings)).Settles := by
  simp only [serve, step, startRequest, startRun]
  split
  · exact settles.ended
  next named =>
    have failed := coordinated.resolve_left named
    rcases server.client.spawn_cases (runRequest goal priority) readings with
      ⟨agentID, replied, _⟩ | ⟨_, unchanged⟩
    · exact absurd replied (failed _)
    · exact settles.refused _ _ failed unchanged

theorem Settles.landed (settles : server.Settles) {index : Nat}
    {flight : InFlight} (inTurn : server.InTurn index flight) {tree : Tree}
    (matched : ∀ id, tree.stateOf id =
      flight.effect id (server.tree.stateOf id)) :
    Settles
      { client := server.client
        tree := tree
        inFlight := server.inFlight.take index ++ [] ++
          server.inFlight.drop (index + 1) } where
  settled id := by
    rw [List.append_nil, ← List.eraseIdx_eq_take_drop_succ, matched id,
      inTurn id]
    exact settles.settled id
  noRun agentID states := by
    rw [List.append_nil, ← List.eraseIdx_eq_take_drop_succ]
    intro member
    exact settles.noRun agentID states (List.mem_of_mem_eraseIdx member)

theorem advance_settles (settles : server.Settles) {index : Nat}
    {unixMilli : Int}
    (coordinated : server.Coordinated (.advance index unixMilli)) :
    (server.serve (.advance index unixMilli)).Settles := by
  simp only [serve, step]
  cases found : server.inFlight[index]? with
  | none => exact settles
  | some flight =>
      obtain ⟨inTurn, safe⟩ := coordinated flight found
      cases flight with
      | spawned response request =>
          exact settles.landed inTurn
            (Tree.stateOf_addNode response.agentID request.parentID
              request.goal request.priority unixMilli safe)
      | killed agentID snapshot =>
          exact settles.landed inTurn
            (Tree.stateOf_removeNode agentID unixMilli safe)
      | transitioned request =>
          exact settles.landed inTurn
            (Tree.stateOf_updateState request.agentID request.newState
              unixMilli)
      | running agentID states =>
          exact absurd (List.mem_of_getElem? found)
            (settles.noRun agentID states)

theorem serve_settles (settles : server.Settles) {next : Step}
    (coordinated : server.Coordinated next) : (server.serve next).Settles := by
  cases next with
  | advance index unixMilli => exact advance_settles settles coordinated
  | start request readings =>
      cases request with
      | spawn request => exact startSpawn_settles settles request readings
      | kill agentID => exact startKill_settles settles agentID readings
      | transition request =>
          exact startTransition_settles settles request readings
      | run goal priority => exact startRun_settles settles coordinated

end Steps

/-- In every interleaving of coordinated steps, the registries agree whenever
nothing is in flight. -/
theorem agreeWhenIdle_throughout (maxAgents maxNodes : Int)
    (steps : List Step)
    (coordinated : EachCall serve Coordinated (new maxAgents maxNodes)
      steps) :
    Throughout serve AgreeWhenIdle (new maxAgents maxNodes) steps := by
  intro served isPrefix
  obtain ⟨later, rfl⟩ := isPrefix
  rw [eachCall_append] at coordinated
  have preserved : ∀ server next, Settles server → Coordinated server next →
      Settles (serve server next) :=
    fun _ _ settles coordinated => serve_settles settles coordinated
  have settles : (runCalls serve (new maxAgents maxNodes) served).Settles :=
    invariant_of_eachCall preserved (settles_new maxAgents maxNodes)
      coordinated.1
  exact settles.agreeWhenIdle

/-- The readings of two spawns. -/
def readingsAt (unixNano : Int) : SpawnReadings :=
  { unixNano
    latencyUs := 1
    unixMilli := 1700000000000 }

/-- Two spawns cross between the client and the tree, and so do a transition
of the first agent and a kill of the second. -/
def crossingSteps : List Step :=
  [.start (.spawn { goal := "first", priority := "", parentID := "" })
      (readingsAt 1700000000000004514),
    .start (.spawn { goal := "second", priority := "", parentID := "" })
      (readingsAt 1700000000000005529),
    .advance 1 1,
    .advance 0 2,
    .start (.transition
      { agentID := "VWJ5izjb0lnS", newState := "planning" })
      (readingsAt 0),
    .start (.kill "nCSmpROB96va") (readingsAt 0),
    .advance 1 3,
    .advance 0 4]

theorem agreeWhenIdle_crossing :
    EachCall serve Coordinated (new 8 8) crossingSteps ∧
      Throughout serve AgreeWhenIdle (new 8 8) crossingSteps := by
  let before (turns : Nat) : Server :=
    runCalls serve (new 8 8) (crossingSteps.take turns)
  have secondSpawn : (before 2).Coordinated (.advance 1 1) :=
    coordinated_advance (by decide +kernel) (by decide +kernel)
      (by decide +kernel) 1 1
  have firstSpawn : (before 3).Coordinated (.advance 0 2) :=
    coordinated_advance (by decide +kernel) (by decide +kernel)
      (by decide +kernel) 0 2
  have removal : (before 6).Coordinated (.advance 1 3) :=
    coordinated_advance (by decide +kernel) (by decide +kernel)
      (by decide +kernel) 1 3
  have move : (before 7).Coordinated (.advance 0 4) :=
    coordinated_advance (by decide +kernel) (by decide +kernel)
      (by decide +kernel) 0 4
  have coordinated : EachCall serve Coordinated (new 8 8) crossingSteps :=
    ⟨trivial, trivial, secondSpawn, firstSpawn, trivial, trivial, removal,
      move, trivial⟩
  exact ⟨coordinated, agreeWhenIdle_throughout 8 8 crossingSteps coordinated⟩

/-- Two transitions of one agent cross between the client and the tree. -/
theorem crossed_transitions_disagree :
    ¬ ∀ (maxAgents maxNodes : Int) (steps : List Step),
      Throughout serve AgreeWhenIdle (new maxAgents maxNodes) steps := by
  intro claimed
  let readings : SpawnReadings :=
    { unixNano := 1700000000000004514
      latencyUs := 1
      unixMilli := 1700000000000 }
  let steps : List Step :=
    [.start (.spawn { goal := "goal", priority := "", parentID := "" })
        readings,
      .advance 0 0,
      .start (.transition
        { agentID := "VWJ5izjb0lnS", newState := "planning" }) readings,
      .start (.transition
        { agentID := "VWJ5izjb0lnS", newState := "thinking" }) readings,
      .advance 1 0,
      .advance 0 0]
  have idle : (runCalls serve (new 8 8) steps).inFlight = [] := by decide
  have agree := (claimed 8 8 steps).last idle "VWJ5izjb0lnS"
  have client : (runCalls serve (new 8 8) steps).client.stateOf
      "VWJ5izjb0lnS" = some "thinking" := by decide
  have tree : (runCalls serve (new 8 8) steps).tree.stateOf
      "VWJ5izjb0lnS" = some "planning" := by decide
  rw [client, tree] at agree
  exact absurd agree (by decide)

end Server

end Ughi.Orchestrator
