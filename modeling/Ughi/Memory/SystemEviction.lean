import Ughi.Lib.LeastFirst
import Ughi.Memory.ShortTermAccounting

/-!
# System-wide eviction

The loop walks the candidates of all agents from the least recently used on,
and takes at each turn the least recently used entry the named agent has left.
The candidates are a plan in the sense of `Queued`, so what goes is least
recently used in the whole store, and no more goes than the target asks for.
-/

namespace Ughi.Memory

open Ughi.Lib

namespace ShortTermStore

variable {Value : Type} (json : SerdeJson Value)

/-- The size of an entry. -/
abbrev entryBytes (entry : MemoryEntry Value) : Nat :=
  entry.estimatedBytes json

/-- The entries were evicted from the store in this order: least recently used
first, until the target was reached. -/
abbrev EvictedLru (targetBytes : Nat) (before after : AgentEntries Value)
    (evicted : List (String × MemoryEntry Value)) : Prop :=
  TakenLeastFirst MemoryEntry.lastAccessed (entryBytes json) targetBytes
    (entriesOf before) (entriesOf after) evicted

/-- The candidates plan the evictions from the entries. -/
abbrev Planned (queue : List (String × Nat × Nat))
    (entries : AgentEntries Value) : Prop :=
  Queued Prod.fst (fun candidate => candidate.2.2) MemoryEntry.lastAccessed
    queue (entriesOf entries)

section Plan

variable (entries : AgentEntries Value)

theorem filter_candidates (order : List String) (agentId : String) :
    ((candidates entries order).filter fun candidate =>
        candidate.1 = agentId).map (fun candidate => candidate.2.2) =
      (entriesOf entries agentId).map MemoryEntry.lastAccessed := by
  have owned : ∀ agentId, ∀ candidate ∈
      (entriesOf entries agentId).zipIdx.map
        (fun pair => (agentId, pair.2, pair.1.lastAccessed)),
        candidate.1 = agentId := by
    intro agentId candidate member
    obtain ⟨pair, _, rfl⟩ := List.mem_map.mp member
    rfl
  rw [candidates, filter_flatMap_owner owned (HashMap.nodup_iterate _ _)]
  by_cases present : agentId ∈ HashMap.iterate order entries
  · rw [if_pos present, List.map_map]
    have marks : (fun candidate : String × Nat × Nat => candidate.2.2) ∘
        (fun pair : MemoryEntry Value × Nat =>
          (agentId, pair.2, pair.1.lastAccessed)) =
        MemoryEntry.lastAccessed ∘ Prod.fst := rfl
    calc
      ((entriesOf entries agentId).zipIdx).map _ =
          ((entriesOf entries agentId).zipIdx.map Prod.fst).map
            MemoryEntry.lastAccessed := by
        rw [List.map_map]
        exact congrArg (fun change =>
          (entriesOf entries agentId).zipIdx.map change) marks
      _ = (entriesOf entries agentId).map MemoryEntry.lastAccessed := by
        rw [List.zipIdx_map_fst]
  · rw [if_neg present]
    have absent : agentId ∉ entries := by
      intro member
      exact present ((HashMap.mem_iterate order).mpr member)
    have missing : entries.lookup agentId = none :=
      AList.lookup_eq_none.mpr absent
    simp [entriesOf, missing]

theorem planned_candidates (order : List String) :
    Planned ((candidates entries order).insertionSort
      fun left right => left.2.2 ≤ right.2.2) entries where
  sorted := by
    have sorted := List.pairwise_insertionSort
      (fun left right : String × Nat × Nat => left.2.2 ≤ right.2.2)
      (candidates entries order)
    exact sorted
  marks agentId := by
    rw [← filter_candidates entries order agentId]
    apply List.Perm.map
    apply List.Perm.filter
    exact List.perm_insertionSort _ _

end Plan

/-- The entry the loop takes first. -/
def firstVictim (queue : List (String × Nat × Nat))
    (entries : AgentEntries Value) : Option (String × MemoryEntry Value) :=
  queue.head?.bind fun candidate =>
    (removeMinOn MemoryEntry.lastAccessed (entriesOf entries candidate.1)).map
      fun removed => (candidate.1, removed.1)

/-- The entry a system-wide eviction takes first. -/
def systemVictim (store : ShortTermStore Value) (order : List String) :
    Option (String × MemoryEntry Value) :=
  firstVictim ((candidates store.entries order).insertionSort
    fun left right => left.2.2 ≤ right.2.2) store.entries

/-- The loop takes entries of the planned agents until the target is reached,
and adds up their sizes. -/
theorem evictCandidates_evicted (targetBytes : Nat)
    {queue : List (String × Nat × Nat)} {entries : AgentEntries Value}
    (planned : Planned queue entries) (freed : Nat) :
    ∃ evicted,
      EvictedLru json (targetBytes - freed) entries
          (evictCandidates json targetBytes queue freed entries).2 evicted ∧
        (evictCandidates json targetBytes queue freed entries).1 =
          freed + takenSize (entryBytes json) evicted ∧
        (freed < targetBytes → evicted.head? = firstVictim queue entries) := by
  induction queue generalizing freed entries with
  | nil =>
      exact ⟨[], takenLeastFirst_nil (.inr planned.empty), rfl, fun _ => rfl⟩
  | cons candidate queue induction =>
      obtain ⟨agentId, index, lastAccessed⟩ := candidate
      obtain ⟨first, inside, _⟩ := planned.exists_rank_eq
      rw [evictCandidates]
      split
      next reached =>
        have nothing := Nat.sub_eq_zero_of_le reached
        refine ⟨[], takenLeastFirst_nil (.inl nothing), rfl, ?_⟩
        intro short
        exact absurd reached (Nat.not_le_of_lt short)
      next short =>
        cases found : entries.lookup agentId with
        | none =>
            rw [entriesOf, found] at inside
            cases inside
        | some bucket =>
            have filed := entriesOf_of_lookup found
            rw [filed] at inside
            obtain ⟨⟨lru, kept⟩, removed⟩ :=
              @exists_removeMinOn _ MemoryEntry.lastAccessed bucket
                (List.ne_nil_of_mem inside)
            have parted := perm_of_removeMinOn removed
            have least := le_of_removeMinOn removed
            have member : lru ∈ bucket :=
              parted.mem_iff.mpr List.mem_cons_self
            rw [← filed] at parted least member
            have replaced := entriesOf_insert entries kept agentId
            have first := planned.rank_eq member least
            have tail := planned.tail parted first replaced
            obtain ⟨evicted, taken, total, _⟩ :=
              induction tail (freed + lru.estimatedBytes json)
            simp only [removed]
            refine ⟨(agentId, lru) :: evicted, ?_, ?_, ?_⟩
            · rw [← Nat.sub_sub] at taken
              apply taken.cons (by omega) parted replaced
              intro other stays member
              rw [first]
              exact planned.mark_le member
            · rw [total, takenSize_cons, Nat.add_assoc]
            · intro _
              simp [firstVictim, filed, removed]

theorem systemEvicted_evicted (store : ShortTermStore Value)
    (targetBytes : Nat) (order : List String) :
    ∃ evicted,
      EvictedLru json targetBytes store.entries
          (systemEvicted json store targetBytes order).2 evicted ∧
        (systemEvicted json store targetBytes order).1 =
          takenSize (entryBytes json) evicted ∧
        (0 < targetBytes → evicted.head? = systemVictim store order) := by
  obtain ⟨evicted, taken, total, first⟩ :=
    evictCandidates_evicted json targetBytes
      (planned_candidates store.entries order) 0
  rw [Nat.zero_add] at total
  exact ⟨evicted, taken, total, first⟩

/-- An eviction takes the least recently used entries of the whole store, up
to the first that reaches the target, and leaves the others as they are. -/
theorem evictSystemLru_leastFirst (store : ShortTermStore Value)
    (targetBytes : Nat) (order : List String) :
    ∃ evicted,
      EvictedLru json targetBytes store.entries
          (store.evictSystemLru json targetBytes order).entries evicted ∧
        (store.evictSystemLru json targetBytes order).totalBytes =
          store.totalBytes - takenSize (entryBytes json) evicted := by
  obtain ⟨evicted, taken, freed, _⟩ :=
    systemEvicted_evicted json store targetBytes order
  refine ⟨evicted, taken, ?_⟩
  rw [← freed]
  rfl

/-! ## What an eviction makes room for -/

section Room

variable {json} {store : ShortTermStore Value}

theorem storedBytes_of_empty {entries : AgentEntries Value}
    (empty : ∀ agentId, entriesOf entries agentId = []) :
    storedBytes json entries = 0 := by
  apply List.sum_eq_zero
  intro bytes member
  obtain ⟨bucket, inside, rfl⟩ := List.mem_map.mp member
  obtain ⟨agentId, found⟩ := HashMap.exists_lookup_of_mem_values inside
  have none := empty agentId
  rw [entriesOf_of_lookup found] at none
  rw [none]
  rfl

/-- After an eviction there is room for the target within every limit that the
store and the target kept before. -/
theorem totalBytes_evictSystemLru (accounted : Accounted json store)
    {limit entrySize : Nat} (within : store.totalBytes ≤ limit)
    (small : entrySize ≤ limit) (order : List String) :
    (store.evictSystemLru json entrySize order).totalBytes + entrySize ≤
      limit := by
  obtain ⟨evicted, taken, freed, _⟩ :=
    systemEvicted_evicted json store entrySize order
  obtain ⟨below, after⟩ := systemEvicted_freed json accounted entrySize order
  have total : (store.evictSystemLru json entrySize order).totalBytes =
      store.totalBytes - (systemEvicted json store entrySize order).1 := rfl
  rcases taken.enough with reached | empty
  · rw [total, freed]
    omega
  · have nothing := after.total
    have none : storedBytes json
        (store.evictSystemLru json entrySize order).entries = 0 :=
      storedBytes_of_empty empty
    omega

end Room

end ShortTermStore

end Ughi.Memory
