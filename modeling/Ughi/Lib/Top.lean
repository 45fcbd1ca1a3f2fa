import Mathlib.Data.List.Sort

/-!
# The best items of a list

`IsTop` says what a search that returns a bounded number of results owes its
caller.  `r a b` reads: `a` is at least as good as `b`.  When the relation is
total and transitive, a choice can be judged by counting: an item is passed
over rightly when the limit is reached by items at least as good.
-/

namespace Ughi.Lib

universe u v

variable {α : Type u} {β : Type v} {r : α → α → Prop} {limit : Nat}
  {items other chosen : List α}

/-- A choice of the best items in order, as many as the limit allows. -/
structure IsTop (r : α → α → Prop) (limit : Nat) (items chosen : List α) :
    Prop where
  ordered : chosen.Pairwise r
  length : chosen.length = min limit items.length
  best : ∃ rest, items.Perm (chosen ++ rest) ∧
    ∀ a ∈ chosen, ∀ b ∈ rest, r a b

theorem IsTop.perm (top : IsTop r limit items chosen)
    (same : items.Perm other) : IsTop r limit other chosen where
  ordered := top.ordered
  length := by rw [top.length, same.length_eq]
  best := by
    obtain ⟨rest, split, better⟩ := top.best
    exact ⟨rest, same.symm.trans split, better⟩

theorem IsTop.map {s : β → β → Prop} {view : α → β}
    (keeps : ∀ a b, r a b → s (view a) (view b))
    (top : IsTop r limit items chosen) :
    IsTop s limit (items.map view) (chosen.map view) where
  ordered := List.pairwise_map.mpr (top.ordered.imp (keeps _ _))
  length := by rw [List.length_map, List.length_map, top.length]
  best := by
    obtain ⟨rest, split, better⟩ := top.best
    refine ⟨rest.map view, ?_, ?_⟩
    · rw [← List.map_append]
      exact split.map view
    · intro a chosenA b restB
      obtain ⟨source, sourceChosen, rfl⟩ := List.mem_map.mp chosenA
      obtain ⟨target, targetRest, rfl⟩ := List.mem_map.mp restB
      exact keeps _ _ (better source sourceChosen target targetRest)

theorem IsTop.subperm (top : IsTop r limit items chosen) :
    chosen.Subperm items := by
  obtain ⟨rest, split, _⟩ := top.best
  exact (List.sublist_append_left chosen rest).subperm.trans
    split.symm.subperm

theorem IsTop.nodup (top : IsTop r limit items chosen)
    (distinct : items.Nodup) : chosen.Nodup := by
  obtain ⟨rest, split, _⟩ := top.best
  exact (split.nodup_iff.mp distinct).of_append_left

/-- Whatever holds of an item when it holds of a worse one is counted in full
among the chosen items, up to the limit. -/
theorem IsTop.countP_eq (top : IsTop r limit items chosen) {good : α → Bool}
    (upward : ∀ a b, r a b → good b = true → good a = true) :
    chosen.countP good = min limit (items.countP good) := by
  obtain ⟨rest, split, better⟩ := top.best
  have counted : items.countP good = chosen.countP good + rest.countP good := by
    rw [split.countP_eq, List.countP_append]
  have sized : items.length = chosen.length + rest.length := by
    rw [split.length_eq, List.length_append]
  have bound := top.length
  by_cases missed : ∃ b ∈ rest, good b = true
  · obtain ⟨b, restB, goodB⟩ := missed
    have allGood : chosen.countP good = chosen.length :=
      List.countP_eq_length.mpr fun a member =>
        upward a b (better a member b restB) goodB
    have nonempty : 0 < rest.length := List.length_pos_of_mem restB
    omega
  · have noneMissed : rest.countP good = 0 := by
      rw [List.countP_eq_zero]
      intro b member goodB
      exact missed ⟨b, member, goodB⟩
    have atMost : chosen.countP good ≤ chosen.length :=
      List.countP_le_length
    omega

section Ranked

variable [DecidableRel r]

theorem IsTop.limit_le_countP (top : IsTop r limit items chosen)
    {rest : List α} (split : items.Perm (chosen ++ rest))
    (better : ∀ a ∈ chosen, ∀ b ∈ rest, r a b) {item : α}
    (left : item ∈ rest) : limit ≤ chosen.countP fun a => r a item := by
  have allBetter : (chosen.countP fun a => r a item) = chosen.length :=
    List.countP_eq_length.mpr fun a member =>
      decide_eq_true (better a member item left)
  have sized := split.length_eq
  have bound := top.length
  have nonempty : 0 < rest.length := List.length_pos_of_mem left
  rw [List.length_append] at sized
  omega

variable [IsTrans α r]

theorem IsTop.countP_rel (top : IsTop r limit items chosen) (item : α) :
    (chosen.countP fun a => r a item) =
      min limit (items.countP fun a => r a item) := by
  apply top.countP_eq
  intro a b better good
  exact decide_eq_true (IsTrans.trans a b item better (of_decide_eq_true good))

/-- The best of some items are also the best once others join them exactly
when the limit is reached without each of these. -/
theorem isTop_append_iff {later : List α}
    (top : IsTop r limit items chosen) :
    IsTop r limit (items ++ later) chosen ↔
      ∀ b ∈ later, limit ≤ items.countP fun a => r a b := by
  obtain ⟨rest, split, better⟩ := top.best
  have whole : (items ++ later).Perm (chosen ++ (rest ++ later)) := by
    rw [← List.append_assoc]
    exact split.append_right later
  constructor
  · intro wider b member
    obtain ⟨passed, widerSplit, widerBetter⟩ := wider.best
    have samePassed := (List.perm_append_left_iff chosen).mp
      (widerSplit.symm.trans whole)
    have passedB : b ∈ passed :=
      samePassed.mem_iff.mpr (List.mem_append_right rest member)
    have reached := wider.limit_le_countP widerSplit widerBetter passedB
    have counted := top.countP_rel b
    omega
  · intro reached
    refine ⟨top.ordered, ?_, rest ++ later, whole, ?_⟩
    · have narrowLength := top.length
      rw [List.length_append]
      cases later with
      | nil => exact narrowLength
      | cons b later =>
          have enough := reached b List.mem_cons_self
          have atMost : (items.countP fun a => r a b) ≤ items.length :=
            List.countP_le_length
          omega
    · intro a chosenA b passedB
      rcases List.mem_append.mp passedB with restB | laterB
      · exact better a chosenA b restB
      · have enough := reached b laterB
        have counted := top.countP_rel b
        have atMost : (chosen.countP fun a => r a b) ≤ chosen.length :=
          List.countP_le_length
        have narrowLength := top.length
        have allBetter : (chosen.countP fun a => r a b) = chosen.length := by
          omega
        have relA := List.countP_eq_length.mp allBetter a chosenA
        exact of_decide_eq_true relA

/-- Choosing from the best of some items and from others is choosing from all
of them. -/
theorem IsTop.merge {first joined : List α}
    (top : IsTop r limit items first)
    (topJoined : IsTop r limit (first ++ joined) chosen) :
    IsTop r limit (items ++ joined) chosen := by
  obtain ⟨rest, split, better⟩ := top.best
  have wider : IsTop r limit ((first ++ joined) ++ rest) chosen := by
    apply (isTop_append_iff topJoined).mpr
    intro b member
    have reached := top.limit_le_countP split better member
    rw [List.countP_append]
    omega
  apply wider.perm
  rw [List.append_assoc]
  have moved : (first ++ (joined ++ rest)).Perm (first ++ (rest ++ joined)) :=
    List.perm_append_comm.append_left first
  apply moved.trans
  rw [← List.append_assoc]
  exact (split.append_right joined).symm

theorem rel_head_of_countP_pos {a item : α} {rest : List α}
    (ordered : (a :: rest).Pairwise r)
    (ahead : 0 < (a :: rest).countP fun b => r b item) : r a item := by
  obtain ⟨b, member, better⟩ := List.countP_pos_iff.mp ahead
  have betterB := of_decide_eq_true better
  rcases List.mem_cons.mp member with rfl | later
  · exact betterB
  · have first := (List.pairwise_cons.mp ordered).1 b later
    exact IsTrans.trans a b item first betterB

theorem forall₂_of_countP_eq [Std.Total r] {left right : List α}
    (leftOrdered : left.Pairwise r) (rightOrdered : right.Pairwise r)
    (same : ∀ item, (left.countP fun a => r a item) =
      right.countP fun a => r a item) :
    List.Forall₂ (fun a b => r a b ∧ r b a) left right := by
  have self : ∀ a (rest : List α), 0 < (a :: rest).countP fun b => r b a := by
    intro a rest
    have reflexive : r a a := or_self_iff.mp (Std.Total.total a a)
    exact List.countP_pos_iff.mpr
      ⟨a, List.mem_cons_self, decide_eq_true reflexive⟩
  induction left generalizing right with
  | nil =>
      cases right with
      | nil => exact .nil
      | cons b right =>
          have none := self b right
          rw [← same b] at none
          cases none
  | cons a left induction =>
      cases right with
      | nil =>
          have none := self a left
          rw [same a] at none
          cases none
      | cons b right =>
          have ahead : r a b :=
            rel_head_of_countP_pos leftOrdered (same b ▸ self b right)
          have behind : r b a :=
            rel_head_of_countP_pos rightOrdered (same a ▸ self a left)
          refine .cons ⟨ahead, behind⟩ (induction
            (List.pairwise_cons.mp leftOrdered).2
            (List.pairwise_cons.mp rightOrdered).2 ?_)
          intro item
          have counted := same item
          have alike : r a item ↔ r b item :=
            ⟨IsTrans.trans b a item behind, IsTrans.trans a b item ahead⟩
          rw [List.countP_cons, List.countP_cons, decide_eq_decide.mpr alike]
            at counted
          exact Nat.add_right_cancel counted

/-- Two choices of the best of some items are, place by place, equally
good. -/
theorem IsTop.forall₂ [Std.Total r] {left right : List α}
    (first : IsTop r limit items left) (second : IsTop r limit items right) :
    List.Forall₂ (fun a b => r a b ∧ r b a) left right := by
  apply forall₂_of_countP_eq first.ordered second.ordered
  intro item
  rw [first.countP_rel, second.countP_rel]

theorem isTop_take_insertionSort [Std.Total r] (limit : Nat) (items : List α) :
    IsTop r limit items ((items.insertionSort r).take limit) where
  ordered := (List.pairwise_insertionSort r items).sublist
    (List.take_sublist _ _)
  length := by rw [List.length_take, List.length_insertionSort]
  best := by
    have sorted := List.pairwise_insertionSort r items
    refine ⟨(items.insertionSort r).drop limit, ?_, ?_⟩
    · rw [List.take_append_drop]
      exact (List.perm_insertionSort r items).symm
    · rw [← List.take_append_drop limit (items.insertionSort r),
        List.pairwise_append] at sorted
      exact sorted.2.2

end Ranked

end Ughi.Lib
