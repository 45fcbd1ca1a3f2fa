import Ughi.Lib.Forest
import Ughi.Lib.Run
import Ughi.Orchestrator.Tree

/-!
# When the supervisor tree is a forest

`record` reads the parents, the children and the roots of a tree as one
recorded forest, and every operation of the tree is an edit of that record.
The tree is well formed throughout a run exactly when no call adds a node twice
or under an unknown parent, and no call removes a node that has grandchildren.
-/

namespace Ughi.Orchestrator

open Ughi.Lib

namespace Tree

/-- The forest the tree records; the empty text marks a root. -/
def record (tree : Tree) : Recording String :=
  { parent := fun id => (tree.nodes.lookup id).map AgentNode.parentID
    children := fun id =>
      match tree.nodes.lookup id with
      | none => []
      | some node => node.children
    roots := tree.rootIDs }

/-- Every node is listed exactly once, as a root or among the children of the
parent it names, the lists name nothing else, every node leads up to a root,
and there are at most `maxNodes` nodes. -/
structure WellFormed (tree : Tree) : Prop where
  forest : IsForest "" tree.record
  bounded : (HashMap.size tree.nodes : Int) ≤ tree.maxNodes

/-- The calls that keep a tree well formed: an addition the tree has room for
is of a new node, under no parent or a known one, and a removal is of a node
whose children are leaves. -/
def KeepsForest (tree : Tree) : Call → Prop
  | .addNode id parentID _ _ _ =>
      (HashMap.size tree.nodes : Int) < tree.maxNodes →
        id ∉ tree.nodes ∧ (parentID = "" ∨ parentID ∈ tree.nodes)
  | .updateState _ _ _ => True
  | .removeNode id _ =>
      ∀ node, tree.nodes.lookup id = some node →
        ∀ child ∈ node.children, ∀ childNode,
          tree.nodes.lookup child = some childNode → childNode.children = []

section Records

variable {tree : Tree} {id parentID goal priority : String} {now : Int}

theorem record_parent_ne_none_iff :
    tree.record.parent id ≠ none ↔ id ∈ tree.nodes := by
  simp [record, HashMap.mem_iff_exists_lookup, Option.ne_none_iff_exists']

theorem record_children_of_lookup {node : AgentNode}
    (found : tree.nodes.lookup id = some node) :
    tree.record.children id = node.children := by
  simp [record, found]

theorem recording_ext {left right : Recording String}
    (parent : ∀ id, left.parent id = right.parent id)
    (children : ∀ id, left.children id = right.children id)
    (roots : left.roots = right.roots) : left = right := by
  cases left
  cases right
  simp only [Recording.mk.injEq]
  exact ⟨funext parent, funext children, roots⟩

theorem record_link (tree : Tree) (id parentID goal priority : String)
    (now : Int) :
    (tree.link id parentID goal priority now).record =
      tree.record.add "" id parentID := by
  apply recording_ext
  · intro other
    simp only [record, lookup_link, Recording.add]
    by_cases same : other = id
    · simp only [same, if_true]
      split <;> rfl
    · simp only [same, if_false]
      split
      · cases tree.nodes.lookup other <;> rfl
      · rfl
  · intro other
    simp only [record, lookup_link, Recording.add]
    by_cases same : other = id
    · subst same
      by_cases inner : other = parentID ∧ parentID ≠ ""
      · obtain ⟨rfl, inner⟩ := inner
        simp [inner, newNode, addChild]
      · have unlisted : ¬ (other = parentID ∧ parentID ≠ "" ∧
            (parentID = other ∨
              ((tree.nodes.lookup parentID).map AgentNode.parentID).isSome =
                true)) :=
          fun both => inner ⟨both.1, both.2.1⟩
        simp only [if_true]
        rw [if_neg inner, if_neg unlisted]
        rfl
    · simp only [same, if_false]
      by_cases inner : other = parentID ∧ parentID ≠ ""
      · obtain ⟨rfl, inner⟩ := inner
        cases found : tree.nodes.lookup other with
        | none => simp [same, inner]
        | some node => simp [inner, addChild]
      · have unlisted : ¬ (other = parentID ∧ parentID ≠ "" ∧
            (parentID = id ∨
              ((tree.nodes.lookup parentID).map AgentNode.parentID).isSome =
                true)) :=
          fun both => inner ⟨both.1, both.2.1⟩
        rw [if_neg inner, if_neg unlisted]
  · simp only [record, link, Recording.add]
    by_cases atTop : parentID = ""
    · simp [atTop]
    · simp [atTop]

theorem record_unlink {node : AgentNode}
    (found : tree.nodes.lookup id = some node) :
    (tree.unlink id node).record = tree.record.remove "" id := by
  have children := record_children_of_lookup found
  have parent : tree.record.parent id = some node.parentID := by
    simp [record, found]
  apply recording_ext
  · intro other
    simp only [Recording.remove, children]
    simp only [record, lookup_unlink]
    by_cases gone : other = id ∨ other ∈ node.children
    · simp only [gone, if_true]
      split <;> rfl
    · simp only [gone, if_false]
      split
      · cases tree.nodes.lookup other <;> rfl
      · rfl
  · intro other
    simp only [Recording.remove, children, parent]
    simp only [record, lookup_unlink]
    by_cases gone : other = id ∨ other ∈ node.children
    · simp [gone]
    · simp only [gone, if_false]
      by_cases under : other = node.parentID ∧ node.parentID ≠ ""
      · obtain ⟨rfl, inner⟩ := under
        cases tree.nodes.lookup node.parentID with
        | none => simp [inner]
        | some above => simp [inner, dropChild]
      · have apart : ¬ (some node.parentID = some other ∧ other ≠ "") := by
          intro above
          obtain ⟨same, inner⟩ := above
          cases same
          exact under ⟨rfl, inner⟩
        rw [if_neg under, if_neg apart]
  · rfl

theorem record_children (tree : Tree) (other : String) :
    tree.record.children other =
      ((tree.nodes.lookup other).map AgentNode.children).getD [] := by
  cases found : tree.nodes.lookup other with
  | none => simp [record, found]
  | some node => simp [record, found]

theorem lookup_setState {α : Type} {part : AgentNode → α} {node : AgentNode}
    {newState : NodeState} (found : tree.nodes.lookup id = some node)
    (kept : part (setState newState now node) = part node) (other : String) :
    ((tree.nodes.insert id (setState newState now node)).lookup other).map
        part =
      (tree.nodes.lookup other).map part := by
  rw [HashMap.lookup_insert_eq]
  by_cases same : other = id
  · rw [if_pos same, same, found, Option.map_some, Option.map_some, kept]
  · rw [if_neg same]

theorem record_updateState (newState : NodeState) :
    (tree.updateState id newState now).tree.record = tree.record := by
  simp only [updateState]
  cases found : tree.nodes.lookup id with
  | none => rfl
  | some node =>
      apply recording_ext
      · intro other
        exact lookup_setState found rfl other
      · intro other
        simp only [record_children]
        rw [lookup_setState found rfl other]
      · rfl

/-- A removal keeps the forest when the children of the node are leaves. -/
theorem keepsForest_removeNode_iff {node : AgentNode}
    (found : tree.nodes.lookup id = some node) (now : Int) :
    tree.KeepsForest (.removeNode id now) ↔
      ∀ child ∈ tree.record.children id, tree.record.children child = [] := by
  simp only [KeepsForest, found, Option.some.injEq, forall_eq']
  rw [record_children_of_lookup found]
  apply forall₂_congr
  intro child _
  cases childFound : tree.nodes.lookup child with
  | none => simp [record, childFound]
  | some childNode => simp [record, childFound]

end Records

section Steps

variable {tree : Tree}

theorem addNode_wellFormed_iff (wellFormed : tree.WellFormed)
    (id parentID goal priority : String) (now : Int) :
    (tree.addNode id parentID goal priority now).tree.WellFormed ↔
      tree.KeepsForest (.addNode id parentID goal priority now) := by
  simp only [addNode, KeepsForest]
  split
  next full =>
    have closed : ¬ (HashMap.size tree.nodes : Int) < tree.maxNodes := by
      omega
    simp [closed, wellFormed]
  next room =>
    have free : (HashMap.size tree.nodes : Int) < tree.maxNodes := by omega
    have edited := Recording.add_isForest_iff wellFormed.forest id parentID
    rw [record_parent_ne_none_iff] at edited
    have absent : tree.record.parent id = none ↔ id ∉ tree.nodes := by
      rw [← record_parent_ne_none_iff, not_ne_iff]
    rw [absent] at edited
    rw [← record_link tree id parentID goal priority now] at edited
    simp only [free, true_implies, ← edited]
    constructor
    · intro result
      exact result.forest
    · intro forest
      refine ⟨forest, ?_⟩
      have fresh : id ∉ tree.nodes := (edited.mp forest).1
      have grown := size_link_of_notMem fresh parentID goal priority now
      have kept := serve_maxNodes tree (.addNode id parentID goal priority now)
      simp only [serve, addNode, if_neg room] at kept
      rw [grown, kept]
      push_cast
      omega

theorem updateState_wellFormed (wellFormed : tree.WellFormed) (id : String)
    (newState : NodeState) (now : Int) :
    (tree.updateState id newState now).tree.WellFormed := by
  have kept := serve_maxNodes tree (.updateState id newState now)
  constructor
  · rw [record_updateState]
    exact wellFormed.forest
  · rw [size_updateState]
    exact Int.le_trans wellFormed.bounded (Int.le_of_eq kept.symm)

theorem removeNode_wellFormed_iff (wellFormed : tree.WellFormed)
    (id : String) (now : Int) :
    (tree.removeNode id now).tree.WellFormed ↔
      tree.KeepsForest (.removeNode id now) := by
  rw [removeNode]
  cases found : tree.nodes.lookup id with
  | none => simp [KeepsForest, found, wellFormed]
  | some node =>
      dsimp only
      have edited := Recording.remove_isForest_iff wellFormed.forest id
      rw [← keepsForest_removeNode_iff found now, ← record_unlink found]
        at edited
      rw [← edited]
      constructor
      · intro result
        exact result.forest
      · intro forest
        refine ⟨forest, ?_⟩
        have smaller := size_unlink_le tree id node
        have bounded := wellFormed.bounded
        have kept : (tree.unlink id node).maxNodes = tree.maxNodes := rfl
        rw [kept]
        omega

theorem serve_wellFormed_iff (wellFormed : tree.WellFormed) (call : Call) :
    (tree.serve call).WellFormed ↔ tree.KeepsForest call := by
  cases call with
  | addNode id parentID goal priority now =>
      exact addNode_wellFormed_iff wellFormed id parentID goal priority now
  | updateState id newState now =>
      exact iff_of_true (updateState_wellFormed wellFormed id newState now)
        trivial
  | removeNode id now => exact removeNode_wellFormed_iff wellFormed id now

theorem new_wellFormed_iff (maxNodes : Int) :
    (new maxNodes).WellFormed ↔ 0 ≤ maxNodes := by
  constructor
  · intro wellFormed
    exact wellFormed.bounded
  · intro nonneg
    refine ⟨⟨?_, ?_, ?_⟩, nonneg⟩
    · exact ⟨List.nodup_nil, fun id => by simp [new, record]⟩
    · intro node
      exact ⟨List.nodup_nil, fun id => by simp [new, record]⟩
    · intro node present
      simp [new, record] at present

end Steps

/-- A tree is well formed throughout a run exactly when its capacity is no
negative number and every call keeps the forest. -/
theorem wellFormed_throughout_iff (maxNodes : Int) (calls : List Call) :
    Throughout serve WellFormed (new maxNodes) calls ↔
      0 ≤ maxNodes ∧ EachCall serve KeepsForest (new maxNodes) calls := by
  have run : (new maxNodes).WellFormed →
      (Throughout serve WellFormed (new maxNodes) calls ↔
        EachCall serve KeepsForest (new maxNodes) calls) := by
    intro initial
    have kept : ∀ (tree : Tree) (call : Call), True → True → True :=
      fun _ _ _ _ => trivial
    have exact_step : ∀ (tree : Tree) (call : Call), True → True →
        tree.WellFormed →
          ((tree.serve call).WellFormed ↔ tree.KeepsForest call) :=
      fun _ call _ _ wellFormed => serve_wellFormed_iff wellFormed call
    exact throughout_iff_eachCall kept exact_step (fun _ _ => trivial)
      trivial initial
  rw [← new_wellFormed_iff]
  constructor
  · intro throughout
    have initial : (new maxNodes).WellFormed :=
      throughout [] List.nil_prefix
    exact ⟨initial, (run initial).mp throughout⟩
  · intro kept
    obtain ⟨initial, each⟩ := kept
    exact (run initial).mpr each

/-- Removing the root of a chain of three leaves the last node behind. -/
theorem grandchild_orphaned :
    ¬ ∀ (maxNodes : Int) (calls : List Call), 0 ≤ maxNodes →
      Throughout serve WellFormed (new maxNodes) calls := by
  intro claimed
  let calls : List Call :=
    [.addNode "root" "" "goal" "normal" 0,
      .addNode "child" "root" "goal" "normal" 0,
      .addNode "grandchild" "child" "goal" "normal" 0,
      .removeNode "root" 0]
  have wellFormed := (claimed 8 calls (by decide)).last
  let tree := runCalls serve (new 8) calls
  have linked : tree.record.parent "grandchild" = some "child" := rfl
  have gone : tree.record.parent "child" = none := rfl
  have ascends := wellFormed.forest.ascends "grandchild" (by
    rw [linked]
    exact Option.some_ne_none _)
  exact (ascends.ofParent linked (by decide)).present gone

end Tree

end Ughi.Orchestrator
