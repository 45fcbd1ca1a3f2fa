import Ughi.Lib.LeastPrefix
import Ughi.Memory.LongTerm

/-!
# Pruning an agent's rows to its disk budget

How many rows go is estimated from the excess, at 512 bytes a row, and not
from the sizes of the rows.  So the budget may still be exceeded afterwards,
and more rows may go than had to.
-/

namespace Ughi.Memory

open Ughi.Lib

/-- Fourteen megabytes. -/
def agentDiskBudgetBytes : Nat := 14 * 1024 * 1024

/-- `LENGTH` of a text: its characters up to the first NUL. -/
def sqlLength (text : String) : Nat :=
  (text.toList.takeWhile fun c => c ≠ Char.ofNat 0).length

/-- `LENGTH(value) + COALESCE(LENGTH(embedding), 0)`. -/
def EntryRow.length (row : EntryRow) : Nat :=
  sqlLength row.value + (row.embedding.map List.length).getD 0

/-- `ORDER BY last_accessed ASC`: which of two rows accessed at one time
comes first is left to the database. -/
structure OrderByAccess where
  sort : List EntryRow → List EntryRow
  perm : ∀ rows, (sort rows).Perm rows
  sorted : ∀ rows, (sort rows).Pairwise fun left right =>
    left.lastAccessed ≤ right.lastAccessed

namespace LongTermStore

def agentUsageBytes (store : LongTermStore) (agentId : String) : Nat :=
  totalOf EntryRow.length (store.namespaceRows agentId)

def pruneAgentBudget (orderBy : OrderByAccess) (store : LongTermStore)
    (agentId : String) : MemoryResult Nat × LongTermStore :=
  let usage := store.agentUsageBytes agentId
  if usage ≤ agentDiskBudgetBytes then (.ok 0, store)
  else
    let overBytes := usage - agentDiskBudgetBytes
    let limit := max (overBytes / 512) 1
    let selected := (orderBy.sort (store.namespaceRows agentId)).take limit
    let pruned := store.memoryEntries.deleteWhere fun row =>
      row.address ∈ selected.map EntryRow.address
    (.ok (store.memoryEntries.rows.length - pruned.rows.length),
      { store with memoryEntries := pruned })

/-- The rows of an agent, least recently accessed first. -/
def leastRecent (orderBy : OrderByAccess) (store : LongTermStore)
    (agentId : String) : List EntryRow :=
  orderBy.sort (store.namespaceRows agentId)

/-- How many rows of the agent go when it is over budget. -/
def estimate (store : LongTermStore) (agentId : String) : Nat :=
  max ((store.agentUsageBytes agentId - agentDiskBudgetBytes) / 512) 1

/-- The usage is within the budget, the rows that went are the least recently
accessed ones and as few as that takes, and no row of another agent went or
changed. -/
structure PrunedToBudget (orderBy : OrderByAccess) (agentId : String)
    (before after : LongTermStore) : Prop where
  within : after.agentUsageBytes agentId ≤ agentDiskBudgetBytes
  fewest : ∃ count,
    (after.namespaceRows agentId).Perm
        ((before.leastRecent orderBy agentId).drop count) ∧
      ∀ fewer < count, agentDiskBudgetBytes <
        totalOf EntryRow.length
          ((before.leastRecent orderBy agentId).drop fewer)
  others : ∀ other ≠ agentId,
    after.namespaceRows other = before.namespaceRows other

section Steps

variable (orderBy : OrderByAccess) (store : LongTermStore) (agentId : String)

theorem leastRecent_perm :
    (store.leastRecent orderBy agentId).Perm (store.namespaceRows agentId) :=
  orderBy.perm (store.namespaceRows agentId)

theorem leastRecent_nodup :
    ((store.leastRecent orderBy agentId).map EntryRow.address).Nodup := by
  have distinct : ((store.namespaceRows agentId).map EntryRow.address).Nodup :=
    store.memoryEntries.unique.sublist (List.filter_sublist.map _)
  exact ((leastRecent_perm orderBy store agentId).map _).nodup_iff.mpr distinct

theorem totalOf_leastRecent :
    totalOf EntryRow.length (store.leastRecent orderBy agentId) =
      store.agentUsageBytes agentId :=
  totalOf_perm _ _ (leastRecent_perm orderBy store agentId)

variable {store agentId}

theorem pruneAgentBudget_of_within
    (within : store.agentUsageBytes agentId ≤ agentDiskBudgetBytes) :
    store.pruneAgentBudget orderBy agentId = (.ok 0, store) :=
  if_pos within

theorem pruneAgentBudget_of_exceeded
    (exceeded : ¬ store.agentUsageBytes agentId ≤ agentDiskBudgetBytes) :
    (store.pruneAgentBudget orderBy agentId).2 =
      { store with
        memoryEntries := store.memoryEntries.deleteWhere fun row =>
          row.address ∈ ((store.leastRecent orderBy agentId).take
            (store.estimate agentId)).map EntryRow.address } := by
  rw [pruneAgentBudget, if_neg exceeded]
  rfl

theorem namespaceRows_pruneAgentBudget
    (exceeded : ¬ store.agentUsageBytes agentId ≤ agentDiskBudgetBytes) :
    ((store.pruneAgentBudget orderBy agentId).2.namespaceRows agentId).Perm
      ((store.leastRecent orderBy agentId).drop
        (store.estimate agentId)) := by
  rw [pruneAgentBudget_of_exceeded orderBy exceeded]
  have kept := filter_notMem_take (leastRecent_nodup orderBy store agentId)
    (store.estimate agentId)
  rw [← kept, namespaceRows, Table.deleteWhere, List.filter_filter]
  have swapped : (store.memoryEntries.rows.filter fun row =>
      decide (row.agentId = agentId) &&
        !decide (row.address ∈ ((store.leastRecent orderBy agentId).take
          (store.estimate agentId)).map EntryRow.address)) =
      (store.namespaceRows agentId).filter fun row =>
        row.address ∉ ((store.leastRecent orderBy agentId).take
          (store.estimate agentId)).map EntryRow.address := by
    rw [namespaceRows, List.filter_filter]
    apply List.filter_congr
    intro row _
    rw [Bool.and_comm, decide_not]
  rw [swapped]
  have permuted := (leastRecent_perm orderBy store agentId).symm.filter
    fun row => row.address ∉ ((store.leastRecent orderBy agentId).take
      (store.estimate agentId)).map EntryRow.address
  convert permuted

theorem namespaceRows_pruneAgentBudget_other {other : String}
    (different : other ≠ agentId) :
    (store.pruneAgentBudget orderBy agentId).2.namespaceRows other =
      store.namespaceRows other := by
  by_cases within : store.agentUsageBytes agentId ≤ agentDiskBudgetBytes
  · rw [pruneAgentBudget_of_within orderBy within]
  · rw [pruneAgentBudget_of_exceeded orderBy within, namespaceRows,
      namespaceRows, Table.deleteWhere, List.filter_filter]
    apply List.filter_congr
    intro row _
    by_cases own : row.agentId = other
    · have stays : row.address ∉ ((store.leastRecent orderBy agentId).take
          (store.estimate agentId)).map EntryRow.address := by
        intro gone
        obtain ⟨taken, member, same⟩ := List.mem_map.mp gone
        have inside := (leastRecent_perm orderBy store agentId).mem_iff.mp
          (List.mem_of_mem_take member)
        have ofAgent : taken.agentId = agentId :=
          of_decide_eq_true (List.mem_filter.mp inside).2
        have agents : taken.agentId = row.agentId :=
          congrArg Prod.fst same
        exact different (own.symm.trans (agents.symm.trans ofAgent))
      rw [decide_eq_false stays]
      simp [own]
    · simp [own]

end Steps

section Contract

variable (orderBy : OrderByAccess) (store : LongTermStore) (agentId : String)

/-- Over budget, the contract holds when as many rows go as have to. -/
theorem prunedToBudget_iff_leastPrefix
    (exceeded : ¬ store.agentUsageBytes agentId ≤ agentDiskBudgetBytes) :
    PrunedToBudget orderBy agentId store
        (store.pruneAgentBudget orderBy agentId).2 ↔
      LeastPrefix EntryRow.length
        (store.agentUsageBytes agentId - agentDiskBudgetBytes)
        (store.leastRecent orderBy agentId)
        (min (store.estimate agentId)
          (store.leastRecent orderBy agentId).length) := by
  have kept := namespaceRows_pruneAgentBudget orderBy exceeded
  have excess : totalOf EntryRow.length
      (store.leastRecent orderBy agentId) = agentDiskBudgetBytes +
        (store.agentUsageBytes agentId - agentDiskBudgetBytes) := by
    rw [totalOf_leastRecent]
    exact (Nat.add_sub_of_le (Nat.le_of_not_ge exceeded)).symm
  have capped : (store.leastRecent orderBy agentId).drop
      (min (store.estimate agentId)
        (store.leastRecent orderBy agentId).length) =
      (store.leastRecent orderBy agentId).drop
        (store.estimate agentId) := by
    rw [← List.drop_eq_drop_min]
  constructor
  · rintro ⟨within, ⟨count, rest, beyond⟩, others⟩
    have usage := totalOf_perm EntryRow.length _ rest
    have least : LeastPrefix EntryRow.length
        (store.agentUsageBytes agentId - agentDiskBudgetBytes)
        (store.leastRecent orderBy agentId) count := by
      apply (leastPrefix_iff_drop excess).mpr
      refine ⟨?_, beyond⟩
      rw [← usage]
      exact within
    have lengths := (kept.symm.trans rest).length_eq
    rw [least.min_eq lengths]
    exact least
  · intro least
    obtain ⟨within, beyond⟩ := (leastPrefix_iff_drop excess).mp least
    rw [capped] at within
    refine ⟨?_, ⟨_, ?_, beyond⟩, ?_⟩
    · rw [agentUsageBytes, totalOf_perm _ _ kept]
      exact within
    · rw [capped]
      exact kept
    · intro other different
      exact namespaceRows_pruneAgentBudget_other orderBy different

/-- The first rows, as many as estimated, make up for the excess, and one row
fewer would not. -/
def EstimatesRight : Prop :=
  let excess := store.agentUsageBytes agentId - agentDiskBudgetBytes
  let rows := store.leastRecent orderBy agentId
  let count := min (store.estimate agentId) rows.length
  excess ≤ totalOf EntryRow.length (rows.take count) ∧
    totalOf EntryRow.length (rows.take (count - 1)) < excess

theorem leastPrefix_estimate_iff
    (exceeded : ¬ store.agentUsageBytes agentId ≤ agentDiskBudgetBytes) :
    LeastPrefix EntryRow.length
        (store.agentUsageBytes agentId - agentDiskBudgetBytes)
        (store.leastRecent orderBy agentId)
        (min (store.estimate agentId)
          (store.leastRecent orderBy agentId).length) ↔
      EstimatesRight orderBy store agentId := by
  apply leastPrefix_iff
  have some : 0 < (store.leastRecent orderBy agentId).length := by
    apply List.length_pos_of_ne_nil
    intro empty
    have usage := totalOf_leastRecent orderBy store agentId
    rw [empty] at usage
    apply exceeded
    rw [← usage]
    exact Nat.zero_le _
  have one : 0 < store.estimate agentId :=
    Nat.lt_of_lt_of_le Nat.zero_lt_one (Nat.le_max_right _ 1)
  exact Nat.lt_min.mpr ⟨one, some⟩

/-- Pruning meets its contract when nothing has to go, or when the estimate
is right. -/
theorem prunedToBudget_iff :
    PrunedToBudget orderBy agentId store
        (store.pruneAgentBudget orderBy agentId).2 ↔
      store.agentUsageBytes agentId ≤ agentDiskBudgetBytes ∨
        EstimatesRight orderBy store agentId := by
  by_cases within : store.agentUsageBytes agentId ≤ agentDiskBudgetBytes
  · rw [pruneAgentBudget_of_within orderBy within]
    constructor
    · intro _
      exact .inl within
    · intro _
      refine ⟨within, ⟨0, ?_, ?_⟩, fun _ _ => rfl⟩
      · exact (leastRecent_perm orderBy store agentId).symm
      · intro fewer below
        cases below
  · rw [prunedToBudget_iff_leastPrefix orderBy store agentId within,
      leastPrefix_estimate_iff orderBy store agentId within]
    constructor
    · exact .inr
    · rintro (absent | right)
      · exact absurd absent within
      · exact right

end Contract

/-! ## An estimate too small -/

def byLastAccessed : OrderByAccess where
  sort rows := rows.insertionSort fun left right =>
    left.lastAccessed ≤ right.lastAccessed
  perm := List.perm_insertionSort _
  sorted rows := List.pairwise_insertionSort
    (fun left right : EntryRow => left.lastAccessed ≤ right.lastAccessed) rows

/-- A number stored with an embedding of so many bytes. -/
def numberRow (key : String) (bytes lastAccessed : Nat) : EntryRow :=
  { agentId := "agent"
    key := key
    value := "7"
    embedding := some (List.replicate bytes 0)
    createdAt := 0
    lastAccessed := lastAccessed
    accessCount := 0 }

theorem length_numberRow (key : String) (bytes lastAccessed : Nat) :
    (numberRow key bytes lastAccessed).length = bytes + 1 := by
  have value : sqlLength "7" = 1 := by decide
  simp only [EntryRow.length, numberRow, value, Option.map_some,
    Option.getD_some, List.length_replicate]
  exact Nat.add_comm 1 bytes

/-- A row without embedding, and one accessed later whose embedding alone
takes so many bytes. -/
def noteAndEmbedding (bytes : Nat) : LongTermStore :=
  { memoryEntries :=
      { rows := [numberRow "note" 0 1, numberRow "image" bytes 2]
        unique := by simp [EntryRow.address, numberRow] }
    agentUsage := ∅ }

theorem leastRecent_noteAndEmbedding (bytes : Nat) :
    (noteAndEmbedding bytes).leastRecent byLastAccessed "agent" =
      [numberRow "note" 0 1, numberRow "image" bytes 2] := by
  simp [leastRecent, namespaceRows, noteAndEmbedding, byLastAccessed,
    numberRow]

theorem agentUsageBytes_noteAndEmbedding (bytes : Nat) :
    (noteAndEmbedding bytes).agentUsageBytes "agent" = bytes + 2 := by
  rw [← totalOf_leastRecent byLastAccessed, leastRecent_noteAndEmbedding,
    totalOf, List.map_cons, List.map_cons, length_numberRow,
    length_numberRow, List.map_nil, List.sum_cons, List.sum_cons,
    List.sum_nil]
  omega

/-- Two bytes over budget, pruning deletes the note and stays over. -/
theorem not_prunedToBudget :
    ¬ PrunedToBudget byLastAccessed "agent"
      (noteAndEmbedding agentDiskBudgetBytes)
      ((noteAndEmbedding agentDiskBudgetBytes).pruneAgentBudget
        byLastAccessed "agent").2 := by
  have usage := agentUsageBytes_noteAndEmbedding agentDiskBudgetBytes
  have excess : (noteAndEmbedding agentDiskBudgetBytes).agentUsageBytes
      "agent" - agentDiskBudgetBytes = 2 := by
    rw [usage, Nat.add_sub_cancel_left]
  have exceeded : ¬ (noteAndEmbedding agentDiskBudgetBytes).agentUsageBytes
      "agent" ≤ agentDiskBudgetBytes := by
    intro within
    have none := Nat.sub_eq_zero_of_le within
    rw [excess] at none
    cases none
  have one : (noteAndEmbedding agentDiskBudgetBytes).estimate "agent" = 1 := by
    rw [estimate, excess]
    rfl
  rw [prunedToBudget_iff_leastPrefix _ _ _ exceeded, excess, one,
    leastRecent_noteAndEmbedding]
  intro least
  have first : ∀ bytes : Nat,
      List.take (min 1 [numberRow "note" 0 1, numberRow "image" bytes 2].length)
        [numberRow "note" 0 1, numberRow "image" bytes 2] =
      [numberRow "note" 0 1] :=
    fun _ => rfl
  have reached := least.reached
  rw [first, totalOf, List.map_singleton, List.sum_singleton,
    length_numberRow] at reached
  omega

end LongTermStore

end Ughi.Memory
