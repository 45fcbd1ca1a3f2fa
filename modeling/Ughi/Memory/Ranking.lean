import Ughi.Lib.Top
import Ughi.Memory.Namespaces

/-!
# What a search ranks

Scores are compared as a total preorder, so no score is a NaN.  A short-term
search considers every entry of the agent, and returns the most similar ones;
touching the entries it matches changes nothing of what it returns about them.
-/

namespace Ughi.Memory

open Ughi.Lib

variable {Value Score : Type} {α : Type}

/-- The comparisons of the scores are those of a total preorder. -/
structure TotalPreorder (sim : Similarity Score) : Prop where
  asymm : ∀ a b, sim.lessThan a b = true → sim.lessThan b a = false
  trans : ∀ a b c, sim.lessThan a b = false → sim.lessThan b c = false →
    sim.lessThan a c = false
  atLeast : ∀ a b, sim.atLeast a b = !sim.lessThan a b

/-- The score of the left item is not less than that of the right one; a
missing score counts as zero. -/
def NoLess (sim : Similarity Score) (similarity : α → Option Score)
    (left right : α) : Prop :=
  sim.lessThan ((similarity left).getD sim.zero)
    ((similarity right).getD sim.zero) = false

instance (sim : Similarity Score) (similarity : α → Option Score) :
    DecidableRel (NoLess sim similarity) :=
  fun _ _ => inferInstanceAs (Decidable (_ = false))

/-- What a search says about a memory. -/
structure Recalled (Value Score : Type) where
  agentId : String
  key : String
  value : Value
  similarity : Option Score
deriving DecidableEq

/-- A memory is filed under its agent and key. -/
def Recalled.address (memory : Recalled Value Score) : String × String :=
  (memory.agentId, memory.key)

def SearchResult.recalled (result : SearchResult Value Score) :
    Recalled Value Score :=
  { agentId := result.entry.agentId
    key := result.entry.key
    value := result.entry.value
    similarity := result.similarity }

/-- What a search says about an entry, if it returns it. -/
def recallEntry (sim : Similarity Score) (query : MemoryQuery Score)
    (entry : MemoryEntry Value) : Option (Recalled Value Score) :=
  (ShortTermStore.matchEntry sim query entry).map fun similarity =>
    SearchResult.recalled { entry, similarity }

section Ordered

variable {sim : Similarity Score} (ordered : TotalPreorder sim)
  (similarity : α → Option Score)

include ordered

theorem TotalPreorder.total : Std.Total (NoLess sim similarity) where
  total := by
    intro left right
    cases less : sim.lessThan ((similarity left).getD sim.zero)
        ((similarity right).getD sim.zero) with
    | true => exact .inr (ordered.asymm _ _ less)
    | false => exact .inl less

theorem TotalPreorder.isTrans : IsTrans α (NoLess sim similarity) where
  trans := fun _ _ _ first second => ordered.trans _ _ _ first second

theorem compareSimilarity_ne_gt_iff {left right : SearchResult Value Score} :
    left.compareSimilarity sim right ≠ .gt ↔
      NoLess sim SearchResult.similarity left right := by
  rw [SearchResult.compareSimilarity, NoLess]
  split
  next less =>
    exact iff_of_true nofun (ordered.asymm _ _ less)
  · split
    next less =>
      rw [less]
      simp
    next notLess =>
      exact iff_of_true nofun (Bool.eq_false_iff.mpr notLess)

theorem map_insertionSort_results (view : SearchResult Value Score → α)
    (kept : ∀ result, similarity (view result) = result.similarity)
    (results : List (SearchResult Value Score)) :
    (results.insertionSort fun left right =>
        left.compareSimilarity sim right ≠ .gt).map view =
      (results.map view).insertionSort (NoLess sim similarity) := by
  apply List.map_insertionSort
  intro left _ right _
  rw [compareSimilarity_ne_gt_iff ordered, NoLess, NoLess, kept, kept]

open ShortTermStore

theorem searchOrder_ne_gt_iff {left right : SearchResult Value Score} :
    searchOrder sim left right ≠ .gt ↔
      NoLess sim SearchResult.similarity left right ∧
        (NoLess sim SearchResult.similarity right left →
          right.entry.lastAccessed ≤ left.entry.lastAccessed) := by
  rw [searchOrder, SearchResult.compareSimilarity, NoLess, NoLess]
  split
  next less =>
    refine iff_of_true nofun ⟨ordered.asymm _ _ less, ?_⟩
    intro notLess
    rw [less] at notLess
    cases notLess
  next notLess =>
    have noLess := Bool.eq_false_iff.mpr notLess
    split
    next less =>
      rw [less]
      simp [Ordering.then]
    next notGreater =>
      have noGreater := Bool.eq_false_iff.mpr notGreater
      have recent : (Ordering.eq.then (compare right.entry.lastAccessed
          left.entry.lastAccessed) ≠ .gt) ↔
          right.entry.lastAccessed ≤ left.entry.lastAccessed :=
        Nat.compare_ne_gt
      rw [recent]
      exact ⟨fun later => ⟨noGreater, fun _ => later⟩,
        fun both => both.2 noLess⟩

theorem searchOrder_total :
    Std.Total fun left right : SearchResult Value Score =>
      searchOrder sim left right ≠ .gt where
  total := by
    intro left right
    rw [searchOrder_ne_gt_iff ordered, searchOrder_ne_gt_iff ordered]
    have either := (ordered.total SearchResult.similarity).total left right
    have accessed := Nat.le_total left.entry.lastAccessed
      right.entry.lastAccessed
    tauto

theorem searchOrder_trans :
    IsTrans (SearchResult Value Score) fun left right =>
      searchOrder sim left right ≠ .gt where
  trans := by
    intro first second third
    simp only [searchOrder_ne_gt_iff ordered]
    rintro ⟨upper, upperTie⟩ ⟨lower, lowerTie⟩
    have transitive := ordered.isTrans (α := SearchResult Value Score)
      SearchResult.similarity
    refine ⟨transitive.trans _ _ _ upper lower, ?_⟩
    intro tie
    have upperAccess := upperTie (transitive.trans _ _ _ lower tie)
    have lowerAccess := lowerTie (transitive.trans _ _ _ tie upper)
    exact lowerAccess.trans upperAccess

end Ordered

/-! ## The short-term search -/

namespace ShortTermStore

variable {sim : Similarity Score}

/-- The results of a search before they are ordered. -/
def visitedResults (sim : Similarity Score) (query : MemoryQuery Score)
    (clock : Nat → Nat) (bucket : List (MemoryEntry Value)) :
    List (SearchResult Value Score) :=
  (visit sim query clock bucket).filterMap fun (entry, score) =>
    score.map fun similarity => { entry, similarity }

theorem recalled_visitedResults (query : MemoryQuery Score)
    (clock : Nat → Nat) (bucket : List (MemoryEntry Value)) :
    (visitedResults sim query clock bucket).map SearchResult.recalled =
      bucket.filterMap (recallEntry sim query) := by
  rw [visitedResults, visit, List.filterMap_map, List.map_filterMap]
  apply filterMap_zipIdx
  intro entry turn
  rw [recallEntry, Function.comp_apply]
  cases found : matchEntry sim query entry with
  | none =>
      simp only [found]
      rfl
  | some score =>
      simp only [found]
      rfl

/-- A short-term search returns the most similar of the agent's entries that
match the query. -/
theorem search_isTop (ordered : TotalPreorder sim)
    (store : ShortTermStore Value) (query : MemoryQuery Score)
    (clock : Nat → Nat) :
    IsTop (NoLess sim Recalled.similarity) query.limit
      ((entriesOf store.entries query.agentId).filterMap
        (recallEntry sim query))
      ((store.search sim query clock).1.map SearchResult.recalled) := by
  have total := @searchOrder_total Value _ _ ordered
  have transitive := @searchOrder_trans Value _ _ ordered
  rw [(search_eq_searchAlone sim store query clock).1,
    ← recalled_visitedResults query clock]
  apply IsTop.map (r := fun left right => searchOrder sim left right ≠ .gt)
  · intro left right better
    exact ((searchOrder_ne_gt_iff ordered).mp better).1
  · exact isTop_take_insertionSort query.limit _

end ShortTermStore

end Ughi.Memory
