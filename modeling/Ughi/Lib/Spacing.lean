import Mathlib.Data.List.Chain
import Mathlib.Order.Lattice
import Mathlib.Order.Monotone.Defs

/-!
# How many items of a sorted list fall into one interval

An interval reaches from `t` to `reach t`.  Every interval holds at most
`limit` items exactly when an item and the one `limit` places after it are
never in reach of each other.  Where the list is cut into groups of at most
`limit` items, only neighbouring groups have to be looked at.
-/

namespace Ughi.Lib

universe u

section Sublists

variable {α : Type u}

theorem sublist_flatten_map {thin : List α → List α}
    (thinner : ∀ group, (thin group).Sublist group)
    (groups : List (List α)) :
    (groups.map thin).flatten.Sublist groups.flatten := by
  induction groups with
  | nil => exact List.Sublist.refl _
  | cons group groups induction => exact (thinner group).append induction

end Sublists

variable {α : Type u} [LinearOrder α]

/-- An item and the one `limit` places after it are out of reach. -/
def Spaced (reach : α → α) (limit : Nat) (items : List α) : Prop :=
  ∀ index earlier later, items[index]? = some earlier →
    items[index + limit]? = some later → reach earlier < later

/-- The items from `start` to what it reaches. -/
def within (reach : α → α) (start : α) (items : List α) : List α :=
  items.filter fun item => start ≤ item ∧ item ≤ reach start

variable {reach : α → α} {limit : Nat} {items first second rest : List α}

theorem spaced_of_length_le (short : items.length ≤ limit) :
    Spaced reach limit items := by
  intro index earlier later _ found
  obtain ⟨inside, _⟩ := List.getElem?_eq_some_iff.mp found
  omega

theorem Spaced.tail {item : α} (spaced : Spaced reach limit (item :: items)) :
    Spaced reach limit items := by
  intro index earlier later earlierFound laterFound
  apply spaced (index + 1) earlier later
  · rw [List.getElem?_cons_succ]
    exact earlierFound
  · rw [show index + 1 + limit = (index + limit) + 1 by omega,
      List.getElem?_cons_succ]
    exact laterFound

theorem Spaced.right (spaced : Spaced reach limit (first ++ second)) :
    Spaced reach limit second := by
  induction first with
  | nil => exact spaced
  | cons item first induction => exact induction spaced.tail

theorem Spaced.left (spaced : Spaced reach limit (first ++ second)) :
    Spaced reach limit first := by
  intro index earlier later earlierFound laterFound
  obtain ⟨earlierInside, _⟩ := List.getElem?_eq_some_iff.mp earlierFound
  obtain ⟨laterInside, _⟩ := List.getElem?_eq_some_iff.mp laterFound
  apply spaced index earlier later
  · rw [List.getElem?_append_left earlierInside]
    exact earlierFound
  · rw [List.getElem?_append_left laterInside]
    exact laterFound

/-- In a spaced list, an interval that holds the first item holds none of the
items from place `limit` on. -/
theorem length_within_cons_le (monotone : Monotone reach) {start item : α}
    (spaced : Spaced reach limit (item :: items))
    (sorted : (item :: items).Pairwise (· ≤ ·)) (inside : start ≤ item) :
    (within reach start (item :: items)).length ≤ limit := by
  have beyond : within reach start ((item :: items).drop limit) = [] := by
    apply List.filter_eq_nil_iff.mpr
    intro later member
    obtain ⟨offset, bound, rfl⟩ := List.getElem_of_mem member
    rw [List.length_drop] at bound
    have place : limit + offset < (item :: items).length := by omega
    have base : offset < (item :: items).length := by omega
    have far := spaced offset (item :: items)[offset]
      (item :: items)[limit + offset]
      (List.getElem?_eq_getElem base)
      (by rw [Nat.add_comm, List.getElem?_eq_getElem place])
    have above : item ≤ (item :: items)[offset] := by
      cases offset with
      | zero => exact le_rfl
      | succ offset =>
          exact List.rel_of_pairwise_cons sorted (List.getElem_mem _)
    have reached : reach start ≤ reach (item :: items)[offset] :=
      monotone (inside.trans above)
    rw [List.getElem_drop, decide_eq_true_eq]
    intro both
    exact absurd (lt_of_le_of_lt reached far) (not_lt_of_ge both.2)
  have split : within reach start (item :: items) =
      within reach start ((item :: items).take limit) ++
        within reach start ((item :: items).drop limit) := by
    rw [within, within, within, ← List.filter_append, List.take_append_drop]
  rw [split, beyond, List.append_nil]
  exact (List.length_filter_le _ _).trans (List.length_take_le _ _)

/-- Every interval holds at most `limit` items of a sorted list exactly when
the list is spaced. -/
theorem forall_within_le_iff_spaced (monotone : Monotone reach)
    (sorted : items.Pairwise (· ≤ ·)) :
    (∀ start, (within reach start items).length ≤ limit) ↔
      Spaced reach limit items := by
  constructor
  · intro few index earlier later earlierFound laterFound
    by_contra inReach
    obtain ⟨earlierInside, rfl⟩ := List.getElem?_eq_some_iff.mp earlierFound
    obtain ⟨laterInside, rfl⟩ := List.getElem?_eq_some_iff.mp laterFound
    let block := (items.drop index).take (limit + 1)
    have blockLength : block.length = limit + 1 := by
      simp only [block, List.length_take, List.length_drop]
      omega
    have ordered := List.pairwise_iff_getElem.mp sorted
    have atMost : ∀ low high (lowInside : low < items.length)
        (highInside : high < items.length), low ≤ high →
          items[low] ≤ items[high] := by
      intro low high lowInside highInside le
      rcases Nat.eq_or_lt_of_le le with same | less
      · subst same
        exact le_rfl
      · exact ordered low high lowInside highInside less
    have allInside : within reach items[index] block = block := by
      apply List.filter_eq_self.mpr
      intro item member
      obtain ⟨offset, bound, rfl⟩ := List.getElem_of_mem member
      rw [blockLength] at bound
      rw [List.getElem_take, List.getElem_drop, decide_eq_true_eq]
      constructor
      · exact atMost _ _ _ _ (Nat.le_add_right _ _)
      · exact (atMost _ _ _ laterInside (by omega)).trans
          (le_of_not_gt inReach)
    have contained : (within reach items[index] block).Sublist
        (within reach items[index] items) :=
      ((List.take_sublist _ _).trans (List.drop_sublist _ _)).filter _
    have many := contained.length_le
    rw [allInside, blockLength] at many
    have bounded := few items[index]
    omega
  · intro spaced start
    induction items with
    | nil => simp [within]
    | cons item items induction =>
        have rest := induction (List.Pairwise.of_cons sorted) spaced.tail
        by_cases inside : start ≤ item
        · exact length_within_cons_le monotone spaced sorted inside
        · rw [within, List.filter_cons_of_neg (by simp [inside])]
          exact rest

/-! ## Groups -/

/-- Items are out of reach of every group but their own and the next. -/
def FarApart (reach : α → α) : List (List α) → Prop
  | group :: next :: groups =>
      (∀ earlier ∈ group, ∀ later ∈ groups.flatten,
        reach earlier < later) ∧ FarApart reach (next :: groups)
  | _ => True

theorem FarApart.map {groups : List (List α)} (far : FarApart reach groups)
    {thin : List α → List α} (thinner : ∀ group, (thin group).Sublist group) :
    FarApart reach (groups.map thin) := by
  induction groups with
  | nil => exact trivial
  | cons group groups induction =>
      cases groups with
      | nil => exact trivial
      | cons next groups =>
          obtain ⟨groupFar, restFar⟩ := far
          refine ⟨?_, induction restFar⟩
          intro earlier earlierMember later laterMember
          have whole := sublist_flatten_map thinner groups
          exact groupFar earlier ((thinner group).subset earlierMember) later
            (whole.subset laterMember)

theorem spaced_append_iff {next : List α} {groups : List (List α)}
    (short : first.length ≤ limit)
    (far : ∀ earlier ∈ first, ∀ later ∈ groups.flatten,
      reach earlier < later) :
    Spaced reach limit (first ++ (next :: groups).flatten) ↔
      Spaced reach limit (first ++ next) ∧
        Spaced reach limit (next :: groups).flatten := by
  rw [List.flatten_cons]
  constructor
  · intro spaced
    refine ⟨?_, spaced.right⟩
    rw [← List.append_assoc] at spaced
    exact spaced.left
  · rintro ⟨near, later⟩ index earlier last earlierFound lastFound
    by_cases inFirst : index < first.length
    · rw [List.getElem?_append_left inFirst] at earlierFound
      rw [List.getElem?_append_right (by omega)] at lastFound
      by_cases inNext : index + limit - first.length < next.length
      · apply near index earlier last
        · rw [List.getElem?_append_left inFirst]
          exact earlierFound
        · rw [List.getElem?_append_left inNext] at lastFound
          rw [List.getElem?_append_right (by omega)]
          exact lastFound
      · rw [List.getElem?_append_right (by omega)] at lastFound
        exact far earlier (List.mem_of_getElem? earlierFound) last
          (List.mem_of_getElem? lastFound)
    · rw [List.getElem?_append_right (by omega)] at earlierFound lastFound
      apply later (index - first.length) earlier last earlierFound
      rw [show index - first.length + limit = index + limit - first.length by
        omega]
      exact lastFound

/-- Only neighbouring groups decide whether the whole list is spaced. -/
theorem spaced_flatten_iff {groups : List (List α)}
    (short : ∀ group ∈ groups, group.length ≤ limit)
    (far : FarApart reach groups) :
    Spaced reach limit groups.flatten ↔
      groups.IsChain fun group next =>
        Spaced reach limit (group ++ next) := by
  induction groups with
  | nil =>
      exact iff_of_true (spaced_of_length_le (Nat.zero_le _)) .nil
  | cons group groups induction =>
      have groupShort := short group List.mem_cons_self
      have restShort : ∀ other ∈ groups, other.length ≤ limit :=
        fun other member => short other (List.mem_cons_of_mem _ member)
      cases groups with
      | nil =>
          have alone : Spaced reach limit [group].flatten := by
            apply spaced_of_length_le
            simpa using groupShort
          exact iff_of_true alone (.singleton group)
      | cons next groups =>
          obtain ⟨groupFar, restFar⟩ := far
          rw [List.flatten_cons, spaced_append_iff groupShort groupFar,
            induction restShort restFar, List.isChain_cons_cons]

theorem spaced_flatten_add_self {groups : List (List α)}
    (short : ∀ group ∈ groups, group.length ≤ limit)
    (far : FarApart reach groups) :
    Spaced reach (limit + limit) groups.flatten := by
  induction groups with
  | nil => exact spaced_of_length_le (Nat.zero_le _)
  | cons group groups induction =>
      have groupShort := short group List.mem_cons_self
      have restShort : ∀ other ∈ groups, other.length ≤ limit :=
        fun other member => short other (List.mem_cons_of_mem _ member)
      cases groups with
      | nil =>
          apply spaced_of_length_le
          rw [List.flatten_singleton]
          omega
      | cons next groups =>
          obtain ⟨groupFar, restFar⟩ := far
          have nextShort := restShort next List.mem_cons_self
          rw [List.flatten_cons, spaced_append_iff (by omega) groupFar]
          refine ⟨spaced_of_length_le ?_, induction restShort restFar⟩
          rw [List.length_append]
          omega

end Ughi.Lib
