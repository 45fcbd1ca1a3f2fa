import Ughi.Lib.HashMap

/-!
# The supervisor tree

The tree keeps its nodes in a map, the children of a node in the node, and the
roots in a list.  Every operation returns the event it broadcasts; readings of
the clock are arguments.
-/

namespace Ughi.Orchestrator

open Ughi.Lib

/-- A lifecycle state is any text. -/
abbrev NodeState : Type := String

def stateSpawned : NodeState := "spawned"

structure AgentNode where
  id : String
  parentID : String
  goal : String
  state : NodeState
  priority : String
  children : List String
  memoryBytes : Nat
  transitions : Nat
  createdAt : Int
  updatedAt : Int
deriving DecidableEq, Repr

structure TreeEvent where
  type : String
  nodeID : String
  oldState : String
  newState : String
  timestamp : Int
deriving DecidableEq, Repr

structure Tree where
  nodes : HashMap String AgentNode
  rootIDs : List String
  maxNodes : Int

/-- What an operation returns, the event it broadcasts, and the tree after
it. -/
structure TreeOutcome (α : Type) where
  result : α
  event : Option TreeEvent
  tree : Tree

namespace Tree

def new (maxNodes : Int) : Tree :=
  { nodes := ∅
    rootIDs := []
    maxNodes := maxNodes }

/-- The node an addition writes. -/
def newNode (id parentID goal priority : String) (now : Int) : AgentNode :=
  { id := id
    parentID := parentID
    goal := goal
    state := stateSpawned
    priority := priority
    children := []
    memoryBytes := 0
    transitions := 0
    createdAt := now
    updatedAt := now }

def addChild (child : String) (node : AgentNode) : AgentNode :=
  { node with children := node.children ++ [child] }

def dropChild (child : String) (node : AgentNode) : AgentNode :=
  { node with children := node.children.erase child }

/-- Write the node, and link it to its parent or list it as a root.  An
unknown parent is passed over. -/
def link (tree : Tree) (id parentID goal priority : String) (now : Int) :
    Tree :=
  let nodes := tree.nodes.insert id (newNode id parentID goal priority now)
  if parentID ≠ "" then
    { tree with nodes := HashMap.modify parentID (addChild id) nodes }
  else { tree with nodes := nodes, rootIDs := tree.rootIDs ++ [id] }

def addNode (tree : Tree) (id parentID goal priority : String) (now : Int) :
    TreeOutcome Bool :=
  if (HashMap.size tree.nodes : Int) ≥ tree.maxNodes then
    { result := false
      event := none
      tree := tree }
  else
    { result := true
      event := some
        { type := "node_added"
          nodeID := id
          oldState := ""
          newState := stateSpawned
          timestamp := now }
      tree := tree.link id parentID goal priority now }

def setState (newState : NodeState) (now : Int) (node : AgentNode) :
    AgentNode :=
  { node with
    state := newState
    transitions := node.transitions + 1
    updatedAt := now }

def updateState (tree : Tree) (id : String) (newState : NodeState)
    (now : Int) : TreeOutcome Bool :=
  match tree.nodes.lookup id with
  | none =>
      { result := false
        event := none
        tree := tree }
  | some node =>
      { result := true
        event := some
          { type := "state_changed"
            nodeID := id
            oldState := node.state
            newState := newState
            timestamp := now }
        tree :=
          { tree with
            nodes := tree.nodes.insert id (setState newState now node) } }

/-- Delete a node and its children, and strike it from the roots and from its
parent. -/
def unlink (tree : Tree) (id : String) (node : AgentNode) : Tree :=
  let remaining := (HashMap.eraseAll node.children tree.nodes).erase id
  { tree with
    nodes :=
      if node.parentID ≠ "" then
        HashMap.modify node.parentID (dropChild id) remaining
      else remaining
    rootIDs := tree.rootIDs.erase id }

def removeNode (tree : Tree) (id : String) (now : Int) : TreeOutcome Unit :=
  match tree.nodes.lookup id with
  | none =>
      { result := ()
        event := none
        tree := tree }
  | some node =>
      { result := ()
        event := some
          { type := "node_removed"
            nodeID := id
            oldState := ""
            newState := ""
            timestamp := now }
        tree := tree.unlink id node }

inductive Call where
  | addNode (id parentID goal priority : String) (now : Int)
  | updateState (id : String) (newState : NodeState) (now : Int)
  | removeNode (id : String) (now : Int)

def serve (tree : Tree) : Call → Tree
  | .addNode id parentID goal priority now =>
      (tree.addNode id parentID goal priority now).tree
  | .updateState id newState now => (tree.updateState id newState now).tree
  | .removeNode id now => (tree.removeNode id now).tree

section Lookups

variable {tree : Tree} {id parentID goal priority : String} {now : Int}

theorem lookup_link (other : String) :
    (tree.link id parentID goal priority now).nodes.lookup other =
      let written :=
        if other = id then some (newNode id parentID goal priority now)
        else tree.nodes.lookup other
      if other = parentID ∧ parentID ≠ "" then written.map (addChild id)
      else written := by
  simp only [link]
  split
  next inner =>
    rw [HashMap.lookup_modify, HashMap.lookup_insert_eq]
    simp [inner]
  next atTop =>
    rw [HashMap.lookup_insert_eq]
    simp only [not_ne_iff] at atTop
    simp [atTop]

theorem lookup_unlink (node : AgentNode) (other : String) :
    (tree.unlink id node).nodes.lookup other =
      let kept :=
        if other = id ∨ other ∈ node.children then none
        else tree.nodes.lookup other
      if other = node.parentID ∧ node.parentID ≠ "" then
        kept.map (dropChild id)
      else kept := by
  have erased : ((HashMap.eraseAll node.children tree.nodes).erase id).lookup
        other =
      if other = id ∨ other ∈ node.children then none
      else tree.nodes.lookup other := by
    rw [HashMap.lookup_erase_eq, HashMap.lookup_eraseAll]
    by_cases same : other = id
    · simp [same]
    · simp [same]
  simp only [unlink]
  split
  next inner =>
    rw [HashMap.lookup_modify, erased]
    simp [inner]
  next atTop =>
    rw [erased]
    simp only [not_ne_iff] at atTop
    simp [atTop]

theorem size_updateState (newState : NodeState) :
    HashMap.size (tree.updateState id newState now).tree.nodes =
      HashMap.size tree.nodes := by
  simp only [updateState]
  cases found : tree.nodes.lookup id with
  | none => rfl
  | some node => exact HashMap.size_insert_of_mem (HashMap.mem_of_lookup found)

theorem size_link_of_notMem (fresh : id ∉ tree.nodes)
    (parentID goal priority : String) (now : Int) :
    HashMap.size (tree.link id parentID goal priority now).nodes =
      HashMap.size tree.nodes + 1 := by
  simp only [link]
  split
  · rw [HashMap.size_modify, HashMap.size_insert_of_notMem fresh]
  · rw [HashMap.size_insert_of_notMem fresh]

theorem size_unlink_le (tree : Tree) (id : String) (node : AgentNode) :
    HashMap.size (tree.unlink id node).nodes ≤ HashMap.size tree.nodes := by
  have erased : HashMap.size
        ((HashMap.eraseAll node.children tree.nodes).erase id) ≤
      HashMap.size tree.nodes :=
    Nat.le_trans (HashMap.size_erase_le id)
      (HashMap.size_eraseAll_le node.children)
  simp only [unlink]
  split
  · rw [HashMap.size_modify]
    exact erased
  · exact erased

theorem serve_maxNodes (tree : Tree) (call : Call) :
    (tree.serve call).maxNodes = tree.maxNodes := by
  cases call with
  | addNode id parentID goal priority now =>
      simp only [serve, addNode, link]
      split
      · rfl
      · split <;> rfl
  | updateState id newState now =>
      simp only [serve, updateState]
      split <;> rfl
  | removeNode id now =>
      simp only [serve, removeNode]
      split <;> rfl

end Lookups

end Tree

end Ughi.Orchestrator
