import Ughi.Orchestrator.TreeShape

/-!
# What a removal takes away

A removal deletes a node and its children, and leaves everything else as it
was.  So it removes exactly a subtree when no child of the node has children.
-/

namespace Ughi.Orchestrator

open Ughi.Lib

namespace Tree

/-- The node and its descendants are gone, and nothing else changes, apart
from the node being struck from its parent's list. -/
structure RemovesSubtree (id : String) (before after : Tree) : Prop where
  remaining : ∀ other, other ∈ after.nodes ↔
    other ∈ before.nodes ∧ other ≠ id ∧
      ¬ Descends before.record.parent "" id other
  unchanged : ∀ other old new, before.nodes.lookup other = some old →
    after.nodes.lookup other = some new →
      new.parentID = old.parentID ∧ new.state = old.state ∧
        new.goal = old.goal ∧
        new.children =
          if before.record.parent id = some other then old.children.erase id
          else old.children
  roots : after.rootIDs = before.rootIDs.erase id

section Removal

variable {tree : Tree} {id : String} {node : AgentNode}

theorem mem_unlink_iff (other : String) :
    other ∈ (tree.unlink id node).nodes ↔
      other ∈ tree.nodes ∧ ¬ (other = id ∨ other ∈ node.children) := by
  rw [HashMap.mem_iff_exists_lookup, HashMap.mem_iff_exists_lookup,
    lookup_unlink]
  by_cases gone : other = id ∨ other ∈ node.children
  · rw [if_pos gone]
    simp [gone]
  · rw [if_neg gone]
    dsimp only
    split
    · simp [gone]
    · simp [gone]

theorem unlink_unchanged (forest : IsForest "" tree.record)
    (found : tree.nodes.lookup id = some node) (other : String)
    (old new : AgentNode) (before : tree.nodes.lookup other = some old)
    (after : (tree.unlink id node).nodes.lookup other = some new) :
    new.parentID = old.parentID ∧ new.state = old.state ∧
      new.goal = old.goal ∧
      new.children =
        if tree.record.parent id = some other then old.children.erase id
        else old.children := by
  have parent : tree.record.parent id = some node.parentID := by
    simp [record, found]
  rw [lookup_unlink] at after
  dsimp only at after
  by_cases gone : other = id ∨ other ∈ node.children
  · rw [if_pos gone] at after
    split at after
    · cases after
    · cases after
  · rw [if_neg gone, before] at after
    by_cases under : other = node.parentID
    · by_cases inner : node.parentID ≠ ""
      · rw [if_pos ⟨under, inner⟩] at after
        cases after
        rw [parent, if_pos (congrArg some under.symm)]
        exact ⟨rfl, rfl, rfl, rfl⟩
      · rw [if_neg fun both => inner both.2] at after
        cases after
        have top : other = "" := under.trans (not_not.mp inner)
        have childless : old.children = [] := by
          rw [← record_children_of_lookup before]
          apply (forest.children other).nil_of_forall
          intro child listed
          exact listed.1 top
        rw [childless]
        simp
    · rw [if_neg fun both => under both.1] at after
      cases after
      have apart : tree.record.parent id ≠ some other := by
        rw [parent]
        intro same
        exact under (Option.some.inj same).symm
      rw [if_neg apart]
      exact ⟨rfl, rfl, rfl, rfl⟩

/-- The removal is of a subtree exactly when nothing lies deeper than the
children. -/
theorem removesSubtree_unlink_iff (forest : IsForest "" tree.record)
    (found : tree.nodes.lookup id = some node) :
    RemovesSubtree id tree (tree.unlink id node) ↔
      ∀ other, Descends tree.record.parent "" id other →
        other = id ∨ other ∈ tree.record.children id := by
  rw [record_children_of_lookup found]
  constructor
  · intro removes other descends
    by_contra kept
    have present : other ∈ tree.nodes := by
      apply record_parent_ne_none_iff.mp
      cases descends with
      | child linked _ => simp [linked]
      | step linked _ _ => simp [linked]
    have stays := (mem_unlink_iff other).mpr ⟨present, kept⟩
    exact ((removes.remaining other).mp stays).2.2 descends
  · intro shallow
    refine ⟨?_, unlink_unchanged forest found, rfl⟩
    intro other
    rw [mem_unlink_iff]
    have children : other ∈ node.children →
        Descends tree.record.parent "" id other := by
      rw [← record_children_of_lookup found]
      exact forest.descends_of_mem_children
    have below := shallow other
    tauto

end Removal

/-- In a tree that is a forest, removing a node removes exactly its subtree
when every child of it is a leaf, and only then. -/
theorem removeNode_removesSubtree_iff {tree : Tree} {id : String}
    (forest : IsForest "" tree.record) (present : id ∈ tree.nodes)
    (now : Int) :
    RemovesSubtree id tree (tree.removeNode id now).tree ↔
      tree.KeepsForest (.removeNode id now) := by
  obtain ⟨node, found⟩ := HashMap.mem_iff_exists_lookup.mp present
  rw [removeNode, found]
  dsimp only
  rw [removesSubtree_unlink_iff forest found,
    forest.subtree_eq_children_iff, keepsForest_removeNode_iff found]

/-! ## Chains -/

def rootAlone : Tree :=
  (new 8).serve (.addNode "root" "" "goal" "normal" 0)

def rootAndChild : Tree :=
  rootAlone.serve (.addNode "child" "root" "goal" "normal" 0)

def threeInChain : Tree :=
  rootAndChild.serve (.addNode "grandchild" "child" "goal" "normal" 0)

theorem rootAndChild_wellFormed : rootAndChild.WellFormed := by
  have empty : (new 8).WellFormed := (new_wellFormed_iff 8).mpr (by decide)
  have root : rootAlone.WellFormed := by
    apply (serve_wellFormed_iff empty _).mpr
    exact fun _ => ⟨by decide, .inl rfl⟩
  apply (serve_wellFormed_iff root _).mpr
  exact fun _ => ⟨by decide, .inr (by decide)⟩

theorem threeInChain_wellFormed : threeInChain.WellFormed := by
  apply (serve_wellFormed_iff rootAndChild_wellFormed _).mpr
  exact fun _ => ⟨by decide, .inr (by decide)⟩

theorem root_removed_with_child :
    RemovesSubtree "root" rootAndChild
      (rootAndChild.removeNode "root" 1).tree := by
  have forest := rootAndChild_wellFormed.forest
  apply (removeNode_removesSubtree_iff forest (by decide) 1).mpr
  intro node found child listed childNode childFound
  cases found
  cases List.mem_singleton.mp listed
  cases childFound
  rfl

/-- A grandchild of the removed node stays. -/
theorem grandchild_stays :
    ¬ ∀ (tree : Tree) (id : String) (now : Int),
      IsForest "" tree.record → id ∈ tree.nodes →
        RemovesSubtree id tree (tree.removeNode id now).tree := by
  intro claimed
  have removes := claimed threeInChain "root" 1
    threeInChain_wellFormed.forest (by decide)
  have stays : "grandchild" ∈
      (threeInChain.removeNode "root" 1).tree.nodes := by
    decide
  apply ((removes.remaining "grandchild").mp stays).2.2
  have grandchild : threeInChain.record.parent "grandchild" =
      some "child" :=
    rfl
  have child : threeInChain.record.parent "child" = some "root" := rfl
  exact .step grandchild (by decide) (.child child (by decide))

end Tree

end Ughi.Orchestrator
