import Ughi.Lib.StableSort
import Ughi.Lib.Top

/-!
# Choosing the best of two sources

The best items of one source are merged with items of another, of which some
must not be chosen.  The merge only sorts and truncates, so these stay out
exactly when they are outranked.
-/

namespace Ughi.Lib

universe u

variable {α : Type u}

/-- Each later item that is not fresh has enough fresh ones ahead of it: the
first items and the fresh ones before it that are at least as good, and the
fresh ones after it that are better. -/
def Outranked (r : α → α → Prop) [DecidableRel r] (fresh : α → Bool)
    (limit : Nat) (first later : List α) : Prop :=
  ∀ before item after, later = before ++ item :: after →
    fresh item = false →
      limit ≤ ((first ++ before.filter fresh).countP fun a => r a item) +
        (after.filter fresh).countP fun a => ¬ r item a

variable {r : α → α → Prop} [DecidableRel r] {fresh : α → Bool}
  {limit : Nat} {items first later chosen : List α} {item : α}

theorem outranked_cons_fresh (isFresh : fresh item = true) :
    Outranked r fresh limit first (item :: later) ↔
      Outranked r fresh limit (first ++ [item]) later := by
  have moved : ∀ before : List α,
      first ++ (item :: before).filter fresh =
        first ++ [item] ++ before.filter fresh := by
    intro before
    rw [List.filter_cons, if_pos isFresh, List.append_assoc,
      List.singleton_append]
  constructor
  · intro outranked before other after split stale
    rw [← moved]
    exact outranked (item :: before) other after (by rw [split]; rfl) stale
  · intro outranked before other after split stale
    cases before with
    | nil =>
        obtain ⟨rfl, rfl⟩ := List.cons.inj split
        rw [isFresh] at stale
        cases stale
    | cons head before =>
        obtain ⟨rfl, rfl⟩ := List.cons.inj split
        rw [moved]
        exact outranked before other after rfl stale

theorem outranked_cons_stale (stale : fresh item = false) :
    Outranked r fresh limit first (item :: later) ↔
      (limit ≤ (first.countP fun a => r a item) +
          (later.filter fresh).countP fun a => ¬ r item a) ∧
        Outranked r fresh limit first later := by
  have dropped : ∀ before : List α,
      (item :: before).filter fresh = before.filter fresh := by
    intro before
    rw [List.filter_cons, if_neg (Bool.eq_false_iff.mp stale)]
  constructor
  · intro outranked
    constructor
    · have reached := outranked [] item later rfl stale
      rwa [List.filter_nil, List.append_nil] at reached
    · intro before other after split otherStale
      rw [← dropped]
      exact outranked (item :: before) other after (by rw [split]; rfl)
        otherStale
  · rintro ⟨reached, outranked⟩ before other after split otherStale
    cases before with
    | nil =>
        obtain ⟨rfl, rfl⟩ := List.cons.inj split
        rwa [List.filter_nil, List.append_nil]
    | cons head before =>
        obtain ⟨rfl, rfl⟩ := List.cons.inj split
        rw [dropped]
        exact outranked before other after rfl otherStale

theorem Outranked.append (outranked : Outranked r fresh limit first later)
    (more : List α) : Outranked r fresh limit (first ++ more) later := by
  intro before item after split stale
  have reached := outranked before item after split stale
  rw [List.countP_append] at reached ⊢
  rw [List.countP_append]
  omega

/-- The first items only matter up to the limit. -/
theorem outranked_iff_of_isTop [IsTrans α r] (top : IsTop r limit items first) :
    Outranked r fresh limit first later ↔
      Outranked r fresh limit items later := by
  have same : ∀ item count,
      limit ≤ (first.countP fun a => r a item) + count ↔
        limit ≤ (items.countP fun a => r a item) + count := by
    intro item count
    have counted := top.countP_rel item
    omega
  apply forall₄_congr
  intro before item after split
  apply imp_congr_right
  intro stale
  rw [List.countP_append, List.countP_append, Nat.add_assoc, Nat.add_assoc]
  exact same item _

variable [Std.Total r] [IsTrans α r]

theorem take_insertionSort_filter
    (outranked : Outranked r fresh limit first later) :
    ((first ++ later).insertionSort r).take limit =
      ((first ++ later.filter fresh).insertionSort r).take limit := by
  induction later generalizing first with
  | nil => rfl
  | cons item later induction =>
      cases isFresh : fresh item with
      | true =>
          have rest := induction ((outranked_cons_fresh isFresh).mp outranked)
          rw [List.append_assoc, List.append_assoc, List.singleton_append,
            List.singleton_append] at rest
          rw [List.filter_cons, if_pos isFresh]
          exact rest
      | false =>
          obtain ⟨reached, others⟩ :=
            (outranked_cons_stale isFresh).mp outranked
          have more := List.filter_sublist (p := fresh) (l := later)
            |>.countP_le (p := fun a => decide ¬ r item a)
          rw [List.filter_cons, if_neg (Bool.eq_false_iff.mp isFresh),
            take_insertionSort_of_reached (by omega)]
          exact induction others

theorem outranked_of_take_eq
    (passedOver : ∀ more item after, fresh item = false →
      ((first ++ more ++ item :: after).insertionSort r).take limit =
          chosen →
        limit ≤ ((first ++ more).countP fun a => r a item) +
          after.countP fun a => ¬ r item a)
    (same : ((first ++ later).insertionSort r).take limit = chosen) :
    Outranked r fresh limit first later := by
  induction later generalizing first with
  | nil =>
      intro before item after split
      cases before with
      | nil => cases split
      | cons head before => cases split
  | cons item later induction =>
      cases isFresh : fresh item with
      | true =>
          apply (outranked_cons_fresh isFresh).mpr
          apply induction
          · intro more other after stale taken
            rw [List.append_assoc first [item] more] at taken ⊢
            exact passedOver ([item] ++ more) other after stale taken
          · rw [List.append_assoc, List.singleton_append]
            exact same
      | false =>
          have reached := passedOver [] item later isFresh
          rw [List.append_nil] at reached
          have outranked : Outranked r fresh limit first later := by
            apply induction passedOver
            rw [← take_insertionSort_of_reached (reached same)]
            exact same
          apply (outranked_cons_stale isFresh).mpr
          refine ⟨?_, outranked⟩
          have freshAfter := passedOver [] item (later.filter fresh) isFresh
          rw [List.append_nil] at freshAfter
          apply freshAfter
          have filtered := take_insertionSort_filter (outranked.append [item])
          rw [List.append_assoc, List.append_assoc, List.singleton_append,
            List.singleton_append] at filtered
          rw [← filtered]
          exact same

/-- An item that is among the first ones but of which a copy follows is not
chosen from the copy, when the chosen items are distinct. -/
theorem reached_of_distinct {before after : List α}
    (top : IsTop r limit items first)
    (distinct : (((first ++ before ++ item :: after).insertionSort r).take
      limit).Nodup)
    (copied : item ∈ ((first ++ before ++ item :: after).insertionSort r).take
      limit → item ∈ items) :
    limit ≤ ((first ++ before).countP fun a => r a item) +
      after.countP fun a => ¬ r item a := by
  by_contra short
  obtain ⟨ahead, behind, sorted, _, same⟩ :=
    exists_insertionSort_split (r := r) (first ++ before) after item
  have early : ahead.length < limit := by
    rw [same.length_eq, List.length_append, ← List.countP_eq_length_filter,
      ← List.countP_eq_length_filter]
    exact Nat.lt_of_not_le short
  rw [sorted, List.take_append, List.take_of_length_le (by omega),
    List.take_cons (by omega)] at distinct copied
  have member := copied (List.mem_append_right ahead List.mem_cons_self)
  obtain ⟨passed, split, better⟩ := top.best
  rcases List.mem_append.mp (split.mem_iff.mp member) with chosenFirst | left
  · have itself : r item item := by
      rcases Std.Total.total (r := r) item item with rel | rel
      · exact rel
      · exact rel
    have isAhead : item ∈ ahead := by
      apply same.mem_iff.mpr
      apply List.mem_append_left
      apply List.mem_filter.mpr
      exact ⟨List.mem_append_left before chosenFirst, decide_eq_true itself⟩
    exact (List.disjoint_of_nodup_append distinct) isAhead
      List.mem_cons_self
  · have reached := top.limit_le_countP split better left
    rw [List.countP_append] at short
    omega

/-- Merging chosen items with later ones, of which some must not be chosen,
chooses the best of all the others exactly when each of these is outranked and
nothing is missed. -/
theorem isTop_merge_iff {missing : List α}
    (top : IsTop r limit items first)
    (distinct : (items ++ later.filter fresh ++ missing).Nodup)
    (missingFresh : ∀ b ∈ missing, fresh b = true) :
    IsTop r limit (items ++ later.filter fresh ++ missing)
        (((first ++ later).insertionSort r).take limit) ↔
      Outranked r fresh limit items later ∧
        ∀ b ∈ missing,
          limit ≤ (items ++ later.filter fresh).countP fun a => r a b := by
  have mergedTop : IsTop r limit (items ++ later.filter fresh)
      (((first ++ later.filter fresh).insertionSort r).take limit) :=
    top.merge (isTop_take_insertionSort limit _)
  constructor
  · intro chosenTop
    have chosenDistinct := chosenTop.nodup distinct
    have outranked : Outranked r fresh limit first later := by
      refine outranked_of_take_eq ?_ rfl
      intro before item after stale taken
      apply reached_of_distinct top
      · rw [taken]
        exact chosenDistinct
      · intro member
        rw [taken] at member
        rcases List.mem_append.mp (chosenTop.subperm.subset member) with
          joined | late
        · rcases List.mem_append.mp joined with inItems | filtered
          · exact inItems
          · rw [List.of_mem_filter filtered] at stale
            cases stale
        · rw [missingFresh item late] at stale
          cases stale
    refine ⟨(outranked_iff_of_isTop top).mp outranked, ?_⟩
    rw [take_insertionSort_filter outranked] at chosenTop
    exact (isTop_append_iff mergedTop).mp chosenTop
  · rintro ⟨outranked, reached⟩
    rw [take_insertionSort_filter ((outranked_iff_of_isTop top).mpr outranked)]
    exact (isTop_append_iff mergedTop).mpr reached

end Ughi.Lib
