import Mathlib.Data.List.Nodup

/-!
# Forests recorded three times

A forest can be recorded by the parent of each node, by the children of each
node and by a list of roots, all at once.  `IsForest` says that the three
agree and that every node leads up to a root.  `add` and `remove` edit the
three records piece by piece; `add_isForest_iff` and `remove_isForest_iff` say
exactly when the result is a forest again.
-/

namespace Ughi.Lib

universe u

variable {κ : Type u}

/-- The list has exactly the items with the property, each once. -/
structure Lists (items : List κ) (property : κ → Prop) : Prop where
  nodup : items.Nodup
  mem_iff : ∀ item, item ∈ items ↔ property item

theorem Lists.congr {items : List κ} {property other : κ → Prop}
    (lists : Lists items property)
    (same : ∀ item, property item ↔ other item) : Lists items other where
  nodup := lists.nodup
  mem_iff item := (lists.mem_iff item).trans (same item)

theorem Lists.concat {items : List κ} {property : κ → Prop} {added : κ}
    (lists : Lists items property) (fresh : ¬ property added) :
    Lists (items ++ [added]) fun item => property item ∨ item = added where
  nodup := by
    have absent : added ∉ items := fun member =>
      fresh ((lists.mem_iff added).mp member)
    exact List.nodup_append.mpr ⟨lists.nodup, List.nodup_singleton added, by
      intro item member other again same
      rw [List.mem_singleton.mp again] at same
      exact absent (same ▸ member)⟩
  mem_iff item := by
    rw [List.mem_append, lists.mem_iff, List.mem_singleton]

theorem Lists.erase [DecidableEq κ] {items : List κ} {property : κ → Prop}
    (lists : Lists items property) (removed : κ) :
    Lists (items.erase removed) fun item =>
      property item ∧ item ≠ removed where
  nodup := lists.nodup.erase removed
  mem_iff item := by
    rw [lists.nodup.mem_erase_iff, lists.mem_iff, and_comm]

theorem Lists.nil_of_forall {items : List κ} {property : κ → Prop}
    (lists : Lists items property) (none : ∀ item, ¬ property item) :
    items = [] := by
  apply List.eq_nil_iff_forall_not_mem.mpr
  intro item member
  exact none item ((lists.mem_iff item).mp member)

/-- Following parents leads to a node whose recorded parent is `top`, the mark
of a root. -/
inductive Ascends (parent : κ → Option κ) (top : κ) : κ → Prop where
  | root {node : κ} (mark : parent node = some top) : Ascends parent top node
  | step {node above : κ} (linked : parent node = some above)
      (inner : above ≠ top) (rest : Ascends parent top above) :
      Ascends parent top node

section Ascends

variable {parent other : κ → Option κ} {top node above : κ}

theorem Ascends.present (ascends : Ascends parent top node) :
    parent node ≠ none := by
  cases ascends with
  | root mark => simp [mark]
  | step linked _ _ => simp [linked]

theorem Ascends.ofParent (ascends : Ascends parent top node)
    (linked : parent node = some above) (inner : above ≠ top) :
    Ascends parent top above := by
  cases ascends with
  | root mark =>
      rw [linked] at mark
      exact absurd (Option.some.inj mark) inner
  | step same _ rest =>
      rw [linked] at same
      rw [Option.some.inj same]
      exact rest

theorem Ascends.loop_eq_top (ascends : Ascends parent top node)
    (loop : parent node = some node) : node = top := by
  induction ascends with
  | root mark =>
      rw [loop] at mark
      exact Option.some.inj mark
  | step linked _ _ induction =>
      rw [loop] at linked
      cases linked
      exact induction loop

theorem Ascends.no_pair (ascends : Ascends parent top node)
    (inner : node ≠ top) (linked : parent node = some above)
    (aboveInner : above ≠ top) (back : parent above = some node) : False := by
  induction ascends generalizing above with
  | root mark =>
      rw [linked] at mark
      exact aboveInner (Option.some.inj mark)
  | step same _ _ induction =>
      rw [linked] at same
      cases same
      exact induction aboveInner back inner linked

theorem Ascends.transfer (keep : κ → Prop)
    (closed : ∀ node above, keep node → parent node = some above →
      above ≠ top → keep above)
    (agree : ∀ node, keep node → other node = parent node)
    (ascends : Ascends parent top node) (kept : keep node) :
    Ascends other top node := by
  induction ascends with
  | root mark => exact .root ((agree _ kept).trans mark)
  | step linked inner _ induction =>
      have above := induction (closed _ _ kept linked inner)
      exact .step ((agree _ kept).trans linked) inner above

end Ascends

structure Recording (κ : Type u) where
  parent : κ → Option κ
  children : κ → List κ
  roots : List κ

/-- The three records describe one forest. -/
structure IsForest (top : κ) (record : Recording κ) : Prop where
  roots : Lists record.roots fun node => record.parent node = some top
  children : ∀ node, Lists (record.children node) fun child =>
    node ≠ top ∧ record.parent child = some node
  ascends : ∀ node, record.parent node ≠ none →
    Ascends record.parent top node

theorem IsForest.children_eq_nil {record : Recording κ} {top node : κ}
    (forest : IsForest top record) (absent : record.parent node = none) :
    record.children node = [] := by
  apply (forest.children node).nil_of_forall
  intro child listed
  obtain ⟨inner, linked⟩ := listed
  have ascends := forest.ascends child (by simp [linked])
  exact (ascends.ofParent linked inner).present absent

/-- Where the children of a node are leaves, the parent of a node that is
neither the node nor a child of it is neither as well. -/
theorem IsForest.kept_above {record : Recording κ} {top node : κ}
    (forest : IsForest top record)
    (leaves : ∀ child ∈ record.children node, record.children child = [])
    {lower upper : κ}
    (kept : ¬ (lower = node ∨ lower ∈ record.children node))
    (linked : record.parent lower = some upper) (inner : upper ≠ top) :
    ¬ (upper = node ∨ upper ∈ record.children node) := by
  intro gone
  have listed : lower ∈ record.children upper :=
    ((forest.children upper).mem_iff lower).mpr ⟨inner, linked⟩
  rcases gone with rfl | child
  · exact kept (.inr listed)
  · rw [leaves upper child] at listed
    cases listed

theorem IsForest.grandchild_kept {record : Recording κ}
    {top node child deeper : κ} (forest : IsForest top record)
    (childMember : child ∈ record.children node)
    (deeperMember : deeper ∈ record.children child) :
    ¬ (deeper = node ∨ deeper ∈ record.children node) := by
  obtain ⟨nodeInner, linked⟩ :=
    ((forest.children node).mem_iff child).mp childMember
  obtain ⟨childInner, deeperLinked⟩ :=
    ((forest.children child).mem_iff deeper).mp deeperMember
  have childAscends := forest.ascends child (by simp [linked])
  intro gone
  rcases gone with same | again
  · rw [same] at deeperLinked
    exact childAscends.no_pair childInner linked nodeInner deeperLinked
  · have relinked := (((forest.children node).mem_iff deeper).mp again).2
    rw [deeperLinked] at relinked
    have same := Option.some.inj relinked
    rw [← same] at linked
    exact childInner (childAscends.loop_eq_top linked)

theorem Recording.above_ne_of_fresh {record : Recording κ} {top node above : κ}
    (fresh : record.parent node = none)
    (known : above = top ∨ record.parent above ≠ none)
    (inner : above ≠ top) : above ≠ node := by
  intro same
  rw [same] at known inner
  exact known.elim inner fun present => present fresh

namespace Recording

variable [DecidableEq κ]

/-- Write a node afresh, and list it under its parent, if there is one, or as a
root. -/
def add (record : Recording κ) (top node above : κ) : Recording κ :=
  { parent := fun other =>
      if other = node then some above else record.parent other
    children := fun other =>
      let kept := if other = node then [] else record.children other
      if other = above ∧ above ≠ top ∧
          (above = node ∨ (record.parent above).isSome) then
        kept ++ [node]
      else kept
    roots := if above = top then record.roots ++ [node] else record.roots }

/-- Delete a node with its children, and strike it from the lists of its
parent and of the roots. -/
def remove (record : Recording κ) (top node : κ) : Recording κ :=
  { parent := fun other =>
      if other = node ∨ other ∈ record.children node then none
      else record.parent other
    children := fun other =>
      if other = node ∨ other ∈ record.children node then []
      else if record.parent node = some other ∧ other ≠ top then
        (record.children other).erase node
      else record.children other
    roots := record.roots.erase node }

section Edits

variable {record : Recording κ} {top node above : κ}

theorem add_parent_self : (record.add top node above).parent node =
    some above := by
  simp [add]

theorem add_parent_of_ne {other : κ} (different : other ≠ node) :
    (record.add top node above).parent other = record.parent other := by
  simp [add, different]

theorem add_children_of_ne {other : κ} (different : other ≠ node)
    (elsewhere : other ≠ above ∨ above = top) :
    (record.add top node above).children other = record.children other := by
  rcases elsewhere with elsewhere | atTop
  · simp [add, different, elsewhere]
  · simp [add, different, atTop]

theorem add_children_above (inner : above ≠ top) (different : above ≠ node)
    (present : record.parent above ≠ none) :
    (record.add top node above).children above =
      record.children above ++ [node] := by
  simp [add, inner, different, Option.isSome_iff_ne_none.mpr present]

theorem add_roots_lists (forest : IsForest top record)
    (fresh : record.parent node = none) :
    Lists (record.add top node above).roots fun other =>
      (record.add top node above).parent other = some top := by
  by_cases atTop : above = top
  · have roots : (record.add top node above).roots =
        record.roots ++ [node] := if_pos atTop
    rw [roots]
    apply (forest.roots.concat (by simp [fresh])).congr
    intro other
    by_cases same : other = node
    · simp [add, same, atTop]
    · simp [add, same]
  · have roots : (record.add top node above).roots = record.roots :=
      if_neg atTop
    rw [roots]
    apply forest.roots.congr
    intro other
    by_cases same : other = node
    · simp [add, same, atTop, fresh]
    · simp [add, same]

theorem add_children_lists (forest : IsForest top record)
    (fresh : record.parent node = none)
    (known : above = top ∨ record.parent above ≠ none) (other : κ) :
    Lists ((record.add top node above).children other) fun child =>
      other ≠ top ∧
        (record.add top node above).parent child = some other := by
  by_cases listed : other = above ∧ above ≠ top
  · obtain ⟨rfl, inner⟩ := listed
    have different := above_ne_of_fresh fresh known inner
    rw [add_children_above inner different (known.resolve_left inner)]
    apply ((forest.children other).concat (by simp [fresh])).congr
    intro child
    by_cases same : child = node
    · simp [add, same, inner]
    · simp [add, same, inner]
  · have kept : (record.add top node above).children other =
        record.children other := by
      by_cases same : other = node
      · have empty := forest.children_eq_nil fresh
        have unlisted : ¬ (node = above ∧ above ≠ top) := same ▸ listed
        subst same
        simp only [add, if_true]
        rw [if_neg (fun both => unlisted ⟨both.1, both.2.1⟩), empty]
      · exact add_children_of_ne same (by tauto)
    rw [kept]
    apply (forest.children other).congr
    intro child
    by_cases same : child = node
    · subst same
      simp only [add_parent_self, fresh, Option.some.injEq]
      constructor
      · rintro ⟨_, absent⟩
        cases absent
      · rintro ⟨inner, rfl⟩
        exact absurd ⟨rfl, inner⟩ listed
    · rw [add_parent_of_ne same]

theorem add_ascends_of_ne (forest : IsForest top record)
    (fresh : record.parent node = none) {other : κ}
    (different : other ≠ node) (present : record.parent other ≠ none) :
    Ascends (record.add top node above).parent top other := by
  refine (forest.ascends other present).transfer (· ≠ node) ?_ ?_ different
  · intro lower upper _ linked inner same
    have ascends := forest.ascends lower (by simp [linked])
    rw [same] at linked inner
    exact (ascends.ofParent linked inner).present fresh
  · intro other different
    exact add_parent_of_ne different

theorem add_isForest (forest : IsForest top record)
    (fresh : record.parent node = none)
    (known : above = top ∨ record.parent above ≠ none) :
    IsForest top (record.add top node above) where
  roots := add_roots_lists forest fresh
  children other := add_children_lists forest fresh known other
  ascends other present := by
    by_cases same : other = node
    · subst same
      by_cases atTop : above = top
      · exact .root (add_parent_self.trans (congrArg some atTop))
      · have different := above_ne_of_fresh fresh known atTop
        exact .step add_parent_self atTop
          (add_ascends_of_ne forest fresh different
            (known.resolve_left atTop))
    · rw [add_parent_of_ne same] at present
      exact add_ascends_of_ne forest fresh same present

theorem known_of_add_isForest
    (result : IsForest top (record.add top node above))
    (inner : above ≠ top) : above ≠ node ∧ record.parent above ≠ none := by
  have linked : (record.add top node above).parent node = some above :=
    add_parent_self
  have ascends := result.ascends node (by simp [linked])
  have different : above ≠ node := by
    intro same
    exact inner (same.trans (ascends.loop_eq_top (same ▸ linked)))
  have present := (ascends.ofParent linked inner).present
  rw [add_parent_of_ne different] at present
  exact ⟨different, present⟩

theorem notMem_children_of_add_isForest
    (result : IsForest top (record.add top node above)) {old : κ}
    (different : old ≠ node) (elsewhere : old ≠ above ∨ above = top) :
    node ∉ record.children old := by
  intro member
  rw [← add_children_of_ne different elsewhere] at member
  obtain ⟨inner, linked⟩ := ((result.children old).mem_iff node).mp member
  rw [add_parent_self] at linked
  cases linked
  rcases elsewhere with changed | atTop
  · exact changed rfl
  · exact inner atTop

theorem notMem_children_above_of_add_isForest
    (result : IsForest top (record.add top node above))
    (inner : above ≠ top) : node ∉ record.children above := by
  intro member
  obtain ⟨different, known⟩ := known_of_add_isForest result inner
  have distinct := (result.children above).nodup
  rw [add_children_above inner different known] at distinct
  exact List.disjoint_of_nodup_append distinct member
    (List.mem_singleton_self node)

theorem notMem_roots_of_add_isForest
    (result : IsForest top (record.add top node above)) :
    node ∉ record.roots := by
  intro member
  have distinct := result.roots.nodup
  by_cases atTop : above = top
  · simp only [add, if_pos atTop] at distinct
    exact List.disjoint_of_nodup_append distinct member
      (List.mem_singleton_self node)
  · have roots : (record.add top node above).roots = record.roots :=
      if_neg atTop
    rw [← roots] at member
    have marked := (result.roots.mem_iff node).mp member
    rw [add_parent_self] at marked
    exact atTop (Option.some.inj marked)

/-- Where an addition gives a forest, the node was not recorded before: no old
list could have had it. -/
theorem fresh_of_add_isForest (forest : IsForest top record)
    (result : IsForest top (record.add top node above)) :
    record.parent node = none := by
  by_contra present
  obtain ⟨old, linked⟩ := Option.ne_none_iff_exists'.mp present
  have ascends := forest.ascends node present
  by_cases oldTop : old = top
  · have member : node ∈ record.roots :=
      (forest.roots.mem_iff node).mpr (oldTop ▸ linked)
    exact notMem_roots_of_add_isForest result member
  · have member : node ∈ record.children old :=
      ((forest.children old).mem_iff node).mpr ⟨oldTop, linked⟩
    have different : old ≠ node := by
      intro same
      exact oldTop (same ▸ ascends.loop_eq_top (same ▸ linked))
    by_cases elsewhere : old ≠ above ∨ above = top
    · exact notMem_children_of_add_isForest result different elsewhere member
    · obtain ⟨same, inner⟩ := not_or.mp elsewhere
      rw [not_not.mp same] at member
      exact notMem_children_above_of_add_isForest result inner member

/-- Adding gives a forest again exactly for a new node under the top or under
a recorded node. -/
theorem add_isForest_iff (forest : IsForest top record) (node above : κ) :
    IsForest top (record.add top node above) ↔
      record.parent node = none ∧
        (above = top ∨ record.parent above ≠ none) := by
  constructor
  · intro result
    refine ⟨fresh_of_add_isForest forest result, ?_⟩
    by_cases atTop : above = top
    · exact .inl atTop
    · exact .inr (known_of_add_isForest result atTop).2
  · intro admissible
    obtain ⟨fresh, known⟩ := admissible
    exact add_isForest forest fresh known

theorem remove_parent_of_gone {other : κ}
    (gone : other = node ∨ other ∈ record.children node) :
    (record.remove top node).parent other = none :=
  if_pos gone

theorem remove_parent_of_kept {other : κ}
    (kept : ¬ (other = node ∨ other ∈ record.children node)) :
    (record.remove top node).parent other = record.parent other :=
  if_neg kept

theorem remove_roots_lists (forest : IsForest top record) :
    Lists (record.remove top node).roots fun other =>
      (record.remove top node).parent other = some top := by
  apply (forest.roots.erase node).congr
  intro other
  by_cases gone : other = node ∨ other ∈ record.children node
  · rw [remove_parent_of_gone gone]
    rcases gone with rfl | child
    · simp
    · obtain ⟨inner, linked⟩ :=
        ((forest.children node).mem_iff other).mp child
      simp [linked, inner]
  · rw [remove_parent_of_kept gone]
    have different : other ≠ node := fun same => gone (.inl same)
    simp [different]

theorem remove_parent_eq_some_iff (forest : IsForest top record) {other : κ}
    (kept : ¬ (other = node ∨ other ∈ record.children node)) (child : κ) :
    (record.remove top node).parent child = some other ↔
      record.parent child = some other ∧ child ≠ node := by
  by_cases same : child = node
  · rw [remove_parent_of_gone (.inl same)]
    simp [same]
  · by_cases gone : child = node ∨ child ∈ record.children node
    · rw [remove_parent_of_gone gone]
      have member := gone.resolve_left same
      obtain ⟨_, linked⟩ := ((forest.children node).mem_iff child).mp member
      have apart : node ≠ other := fun same => kept (.inl same.symm)
      simp [linked, apart]
    · rw [remove_parent_of_kept gone]
      simp [same]

theorem remove_children_lists (forest : IsForest top record)
    (leaves : ∀ child ∈ record.children node, record.children child = [])
    (other : κ) :
    Lists ((record.remove top node).children other) fun child =>
      other ≠ top ∧ (record.remove top node).parent child = some other := by
  by_cases gone : other = node ∨ other ∈ record.children node
  · have empty : (record.remove top node).children other = [] := if_pos gone
    rw [empty]
    refine ⟨List.nodup_nil, fun child =>
      iff_of_false List.not_mem_nil ?_⟩
    intro under
    obtain ⟨inner, linked⟩ := under
    by_cases childGone : child = node ∨ child ∈ record.children node
    · rw [remove_parent_of_gone childGone] at linked
      cases linked
    · rw [remove_parent_of_kept childGone] at linked
      exact forest.kept_above leaves childGone linked inner gone
  · by_cases under : record.parent node = some other ∧ other ≠ top
    · have erased : (record.remove top node).children other =
          (record.children other).erase node := by
        simp only [remove, if_neg gone, if_pos under]
      rw [erased]
      apply ((forest.children other).erase node).congr
      intro child
      rw [remove_parent_eq_some_iff forest gone child, and_assoc]
    · have kept : (record.remove top node).children other =
          record.children other := by
        simp only [remove, if_neg gone, if_neg under]
      rw [kept]
      apply (forest.children other).congr
      intro child
      rw [remove_parent_eq_some_iff forest gone child]
      have apart : ∀ linked : record.parent child = some other, other ≠ top →
          child ≠ node := by
        rintro linked inner rfl
        exact under ⟨linked, inner⟩
      tauto

theorem remove_isForest (forest : IsForest top record)
    (leaves : ∀ child ∈ record.children node, record.children child = []) :
    IsForest top (record.remove top node) where
  roots := remove_roots_lists forest
  children other := remove_children_lists forest leaves other
  ascends other present := by
    have kept : ¬ (other = node ∨ other ∈ record.children node) := by
      intro gone
      exact present (remove_parent_of_gone gone)
    rw [remove_parent_of_kept kept] at present
    apply (forest.ascends other present).transfer
      (fun item => ¬ (item = node ∨ item ∈ record.children node))
    · intro lower upper kept linked inner
      exact forest.kept_above leaves kept linked inner
    · intro item kept
      exact remove_parent_of_kept kept
    · exact kept

/-- Removing gives a forest again exactly when every child is a leaf: deeper
descendants stay behind without a parent. -/
theorem remove_isForest_iff (forest : IsForest top record) (node : κ) :
    IsForest top (record.remove top node) ↔
      ∀ child ∈ record.children node, record.children child = [] := by
  constructor
  · intro result child member
    apply List.eq_nil_iff_forall_not_mem.mpr
    intro deeper deeperMember
    obtain ⟨childInner, deeperLinked⟩ :=
      ((forest.children child).mem_iff deeper).mp deeperMember
    have kept := forest.grandchild_kept member deeperMember
    have resultLinked : (record.remove top node).parent deeper =
        some child := by
      rw [remove_parent_of_kept kept, deeperLinked]
    have ascends := result.ascends deeper (by simp [resultLinked])
    exact (ascends.ofParent resultLinked childInner).present
      (remove_parent_of_gone (.inr member))
  · exact remove_isForest forest

end Edits

end Recording

/-! ## Descendants -/

/-- Following parents leads to the ancestor, before any root. -/
inductive Descends (parent : κ → Option κ) (top ancestor : κ) : κ → Prop where
  | child {node : κ} (linked : parent node = some ancestor)
      (inner : ancestor ≠ top) : Descends parent top ancestor node
  | step {node above : κ} (linked : parent node = some above)
      (inner : above ≠ top) (rest : Descends parent top ancestor above) :
      Descends parent top ancestor node

section Descendants

variable {record : Recording κ} {top node : κ}

theorem IsForest.mem_children_of_descends (forest : IsForest top record)
    (leaves : ∀ child ∈ record.children node, record.children child = [])
    {other : κ} (descends : Descends record.parent top node other) :
    other ∈ record.children node := by
  induction descends with
  | child linked inner =>
      exact ((forest.children node).mem_iff _).mpr ⟨inner, linked⟩
  | step linked inner _ induction =>
      have listed := ((forest.children _).mem_iff _).mpr ⟨inner, linked⟩
      rw [leaves _ induction] at listed
      cases listed

theorem IsForest.descends_of_mem_children (forest : IsForest top record)
    {other : κ} (listed : other ∈ record.children node) :
    Descends record.parent top node other := by
  obtain ⟨inner, linked⟩ := ((forest.children node).mem_iff other).mp listed
  exact .child linked inner

/-- A node and its children are all there is below it exactly when the
children are leaves. -/
theorem IsForest.subtree_eq_children_iff (forest : IsForest top record) :
    (∀ other, Descends record.parent top node other →
        other = node ∨ other ∈ record.children node) ↔
      ∀ child ∈ record.children node, record.children child = [] := by
  constructor
  · intro shallow child childMember
    apply List.eq_nil_iff_forall_not_mem.mpr
    intro deeper deeperMember
    obtain ⟨inner, linked⟩ :=
      ((forest.children child).mem_iff deeper).mp deeperMember
    apply forest.grandchild_kept childMember deeperMember
    apply shallow
    exact .step linked inner (forest.descends_of_mem_children childMember)
  · intro leaves other descends
    exact .inr (forest.mem_children_of_descends leaves descends)

end Descendants

end Ughi.Lib
