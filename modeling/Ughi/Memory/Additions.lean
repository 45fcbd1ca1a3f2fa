import Ughi.Memory.AgentBudget

/-!
# When a write only adds

A write to the short-term store may evict entries of any agent, drop one of
its own agent's and overwrite the entry of its key.  It leaves one entry more
for its agent and as many as before for every other agent exactly when it does
none of these.
-/

namespace Ughi.Memory

open Ughi.Lib

namespace ShortTermStore

variable {Value : Type} (json : SerdeJson Value)

/-- The entry is new, and nothing has to go for it: it fits into each budget,
or the budget has nothing left to evict, and its agent's vector is not
full. -/
structure AddsEntry (store : ShortTermStore Value)
    (entry : MemoryEntry Value) : Prop where
  system : wrappingAdd 64 store.totalBytes (entry.estimatedBytes json) ≤
      systemBudgetBytes ∨
    ∀ agentId, entriesOf store.entries agentId = []
  agent : store.agentBytes json entry.agentId + entry.estimatedBytes json ≤
      agentBudgetBytes ∨
    entriesOf store.entries entry.agentId = []
  absent : held store.entries entry.agentId entry.key = none
  spare : (entriesOf store.entries entry.agentId).length < 500

/-- The entries of each agent after a write that only adds. -/
def Added (before after : AgentEntries Value) (entry : MemoryEntry Value) :
    Prop :=
  ∀ agentId, entriesOf after agentId =
    if agentId = entry.agentId then
      entriesOf before agentId ++ [{ entry with tier := .shortTerm }]
    else entriesOf before agentId

/-- The number of entries of each agent after a write that only adds. -/
def GrowsByOne (before after : AgentEntries Value) (agentId : String) :
    Prop :=
  ∀ other, (entriesOf after other).length =
    (entriesOf before other).length + if other = agentId then 1 else 0

section Buckets

variable {bucket : List (MemoryEntry Value)} {entrySize : Nat}

theorem length_trim_le :
    (trim json bucket entrySize).length ≤ bucket.length := by
  rw [trim]
  split
  · rw [dropOldest, List.length_drop, List.length_insertionSort]
    exact Nat.sub_le _ _
  · exact Nat.le_refl _

theorem dropOldest_nil : dropOldest ([] : List (MemoryEntry Value)) = [] := by
  simp [dropOldest]

theorem room_of_length_trim
    (same : (trim json bucket entrySize).length = bucket.length) :
    bytesOf json bucket + entrySize ≤ agentBudgetBytes ∨ bucket = [] := by
  by_cases fits : bytesOf json bucket + entrySize ≤ agentBudgetBytes
  · exact .inl fits
  · have trimmed : trim json bucket entrySize = dropOldest bucket :=
      if_pos (Nat.lt_of_not_le fits)
    rw [trimmed, dropOldest, List.length_drop,
      List.length_insertionSort] at same
    right
    apply List.length_eq_zero_iff.mp
    omega

theorem trim_of_room
    (room : bytesOf json bucket + entrySize ≤ agentBudgetBytes ∨
      bucket = []) :
    trim json bucket entrySize = bucket := by
  rcases room with fits | empty
  · exact if_neg (Nat.not_lt_of_le fits)
  · rw [trim, empty, dropOldest_nil]
    split <;> rfl

theorem length_limit_lt (full : 500 ≤ bucket.length) :
    (limit bucket).length < bucket.length := by
  have nonempty : bucket ≠ [] := by
    intro empty
    rw [empty] at full
    cases full
  obtain ⟨⟨lru, kept⟩, removed⟩ :=
    @exists_removeMinOn _ MemoryEntry.lastAccessed bucket nonempty
  have parted := (perm_of_removeMinOn removed).length_eq
  rw [limit, if_pos full, removed, parted]
  exact Nat.lt_succ_self _

theorem length_putAlone_le (entry : MemoryEntry Value) :
    (putAlone json bucket entry).length ≤ bucket.length + 1 := by
  have shorter := @length_trim_le _ json bucket (entry.estimatedBytes json)
  rcases putAlone_cases json bucket entry with
    ⟨_, _, written⟩ | ⟨_, written⟩
  · rw [written, length_modifyFirst]
    omega
  · have smaller := (subperm_limit json
      (trim json bucket (entry.estimatedBytes json))).length_le
    rw [written, List.length_append, List.length_singleton]
    omega

theorem putAlone_of_room {entry : MemoryEntry Value}
    (room : bytesOf json bucket + entry.estimatedBytes json ≤
      agentBudgetBytes ∨ bucket = [])
    (missing : firstWith MemoryEntry.key entry.key bucket = none)
    (short : bucket.length < 500) :
    putAlone json bucket entry =
      bucket ++ [{ entry with tier := .shortTerm }] := by
  have untrimmed := trim_of_room json room
  rcases putAlone_cases json bucket entry with
    ⟨old, found, written⟩ | ⟨_, written⟩
  · rw [untrimmed, missing] at found
    cases found
  · rw [written, untrimmed, limit_of_lt short]

theorem length_putAlone_eq_iff (entry : MemoryEntry Value) :
    (putAlone json bucket entry).length = bucket.length + 1 ↔
      (bytesOf json bucket + entry.estimatedBytes json ≤ agentBudgetBytes ∨
          bucket = []) ∧
        firstWith MemoryEntry.key entry.key bucket = none ∧
        bucket.length < 500 := by
  have shorter := @length_trim_le _ json bucket (entry.estimatedBytes json)
  constructor
  · intro grown
    rcases putAlone_cases json bucket entry with
      ⟨old, found, written⟩ | ⟨missing, written⟩
    · rw [written, length_modifyFirst] at grown
      omega
    · have smaller := (subperm_limit json
        (trim json bucket (entry.estimatedBytes json))).length_le
      rw [written, List.length_append, List.length_singleton] at grown
      have kept : (trim json bucket (entry.estimatedBytes json)).length =
          bucket.length := by
        omega
      have room := room_of_length_trim json kept
      rw [trim_of_room json room] at missing grown
      refine ⟨room, missing, ?_⟩
      apply Nat.lt_of_not_le
      intro full
      have dropped := length_limit_lt full
      omega
  · rintro ⟨room, missing, short⟩
    rw [putAlone_of_room json room missing short, List.length_append]
    rfl

end Buckets

section System

variable (store : ShortTermStore Value)

theorem entriesOf_eq_nil_of_evictSystemLru {targetBytes : Nat}
    (wanted : 0 < targetBytes) (order : List String)
    (same : ∀ agentId,
      (entriesOf (store.evictSystemLru json targetBytes order).entries
        agentId).length = (entriesOf store.entries agentId).length)
    (agentId : String) : entriesOf store.entries agentId = [] := by
  obtain ⟨evicted, taken, -⟩ :=
    evictSystemLru_leastFirst json store targetBytes order
  have none : evicted = [] := by
    cases evicted with
    | nil => rfl
    | cons pair rest =>
        have lengths := (taken.parted pair.1).length_eq
        rw [List.length_append, same, takenFrom_cons, if_pos rfl,
          List.length_cons] at lengths
        omega
  rw [none] at taken
  rcases taken.enough with reached | empty
  · exact absurd reached (Nat.not_le_of_lt wanted)
  · have parted := taken.parted agentId
    rw [empty agentId] at parted
    exact parted.eq_nil

theorem estimatedBytes_pos (entry : MemoryEntry Value) :
    0 < entry.estimatedBytes json :=
  Nat.lt_of_lt_of_le (by decide) (Nat.le_add_left 64 _)

/-- The check for the system budget leaves every vector as long as it was
exactly when it has nothing to evict, and then leaves them as they were. -/
theorem keepSystemBudget_same_iff {entrySize : Nat} (wanted : 0 < entrySize)
    (order : List String) :
    (∀ agentId,
        (entriesOf (store.keepSystemBudget json entrySize order).entries
          agentId).length = (entriesOf store.entries agentId).length) ↔
      wrappingAdd 64 store.totalBytes entrySize ≤ systemBudgetBytes ∨
        ∀ agentId, entriesOf store.entries agentId = [] := by
  rw [keepSystemBudget]
  constructor
  · intro same
    split at same
    · exact .inr (entriesOf_eq_nil_of_evictSystemLru json store wanted order
        same)
    next fits => exact .inl (Nat.le_of_not_lt fits)
  · intro nothing agentId
    split
    next exceeded =>
      rcases nothing with fits | empty
      · exact absurd fits (Nat.not_le_of_lt exceeded)
      · have smaller :=
          thinned_evictSystemLru json store entrySize order agentId
        rw [empty agentId] at smaller ⊢
        exact Nat.le_zero.mp smaller.length_le
    · rfl

theorem entriesOf_keepSystemBudget {entrySize : Nat}
    {order : List String}
    (nothing : wrappingAdd 64 store.totalBytes entrySize ≤
        systemBudgetBytes ∨
      ∀ agentId, entriesOf store.entries agentId = [])
    (agentId : String) :
    entriesOf (store.keepSystemBudget json entrySize order).entries agentId =
      entriesOf store.entries agentId := by
  rcases nothing with fits | empty
  · have unchanged : store.keepSystemBudget json entrySize order = store :=
      if_neg (Nat.not_lt_of_le fits)
    rw [unchanged]
  · have smaller := thinned_keepSystemBudget json store entrySize order
      agentId
    rw [empty agentId] at smaller ⊢
    exact List.subperm_nil.mp smaller

end System

section Writes

variable {store : ShortTermStore Value}

theorem AddsEntry.added (capacity : store.maxEntriesPerAgent = 500)
    {entry : MemoryEntry Value} (adds : AddsEntry json store entry)
    (order : List String) :
    Added store.entries (store.put json entry order).2.entries entry := by
  intro agentId
  have kept := @entriesOf_keepSystemBudget _ json store _ order adds.system
  rw [entriesOf_put json store capacity entry order agentId, kept, kept]
  split
  next same =>
    rw [same]
    exact putAlone_of_room json adds.agent adds.absent adds.spare
  · rfl

theorem Added.growsByOne {before after : AgentEntries Value}
    {entry : MemoryEntry Value} (added : Added before after entry) :
    GrowsByOne before after entry.agentId := by
  intro agentId
  rw [added agentId]
  split
  · rw [List.length_append]
    rfl
  · rfl

/-- A write adds one entry for its agent and none for another exactly when it
only adds. -/
theorem growsByOne_iff_addsEntry (capacity : store.maxEntriesPerAgent = 500)
    (entry : MemoryEntry Value) (order : List String) :
    GrowsByOne store.entries (store.put json entry order).2.entries
        entry.agentId ↔
      AddsEntry json store entry := by
  constructor
  · intro grows
    have served := entriesOf_put json store capacity entry order
    have thinned := thinned_keepSystemBudget json store
      (entry.estimatedBytes json) order
    have own := grows entry.agentId
    rw [served, if_pos rfl, if_pos rfl] at own
    have same : ∀ agentId,
        (entriesOf (store.keepSystemBudget json (entry.estimatedBytes json)
          order).entries agentId).length =
        (entriesOf store.entries agentId).length := by
      intro agentId
      have smaller := (thinned agentId).length_le
      by_cases writer : agentId = entry.agentId
      · subst writer
        have most := @length_putAlone_le _ json (entriesOf
          (store.keepSystemBudget json (entry.estimatedBytes json)
            order).entries entry.agentId) entry
        omega
      · have other := grows agentId
        rw [served, if_neg writer, if_neg writer] at other
        exact other
    have system := (keepSystemBudget_same_iff json store
      (estimatedBytes_pos json entry) order).mp same
    have kept := @entriesOf_keepSystemBudget _ json store _ order system
      entry.agentId
    rw [kept] at own
    obtain ⟨agent, absent, spare⟩ :=
      (length_putAlone_eq_iff json entry).mp own
    exact ⟨system, agent, absent, spare⟩
  · intro adds
    exact (adds.added json capacity order).growsByOne

end Writes

end ShortTermStore

end Ughi.Memory
