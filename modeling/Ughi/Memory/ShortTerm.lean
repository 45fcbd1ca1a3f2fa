import Ughi.Lib.HashMap
import Ughi.Lib.Vec
import Ughi.Memory.Types

/-!
# The short-term store

Each agent has a vector of entries.  A write may first evict entries of any
agent to respect the system budget, then a quarter of the writer's own entries
to respect the agent budget; only then does it look for the key it writes.

`lookup` is what the store currently holds under a key.  Evictions only thin
the vectors out, so they turn hits into misses and change no hit.
-/

namespace Ughi.Memory

open Ughi.Lib

def systemBudgetBytes : Nat := 120 * 1024 * 1024

def agentBudgetBytes : Nat := 6 * 1024 * 1024

abbrev AgentEntries (Value : Type) : Type :=
  HashMap String (List (MemoryEntry Value))

/-- The entries of an agent; none when the agent has no vector. -/
def entriesOf {Value : Type} (entries : AgentEntries Value)
    (agentId : String) : List (MemoryEntry Value) :=
  (entries.lookup agentId).getD []

structure ShortTermStore (Value : Type) where
  entries : AgentEntries Value
  totalBytes : Nat
  maxEntriesPerAgent : Nat

namespace ShortTermStore

variable {Value Score : Type}

def new : ShortTermStore Value :=
  { entries := ∅
    totalBytes := 0
    maxEntriesPerAgent := 500 }

/-- The candidates of a system-wide eviction, in the order the hash map is
iterated: agent, index and last access of every entry. -/
def candidates (entries : AgentEntries Value) (order : List String) :
    List (String × Nat × Nat) :=
  (HashMap.iterate order entries).flatMap fun agentId =>
    (entriesOf entries agentId).zipIdx.map fun (entry, index) =>
      (agentId, index, entry.lastAccessed)

/-- The eviction loop.  Each candidate only names an agent: what goes is the
least recently used entry that agent still has. -/
def evictCandidates (json : SerdeJson Value) (targetBytes : Nat) :
    List (String × Nat × Nat) → Nat → AgentEntries Value →
      Nat × AgentEntries Value
  | [], freed, entries => (freed, entries)
  | (agentId, _, _) :: rest, freed, entries =>
      if freed ≥ targetBytes then (freed, entries)
      else
        match entries.lookup agentId with
        | none => evictCandidates json targetBytes rest freed entries
        | some agentEntries =>
            match removeMinOn MemoryEntry.lastAccessed agentEntries with
            | none => evictCandidates json targetBytes rest freed entries
            | some (lru, kept) =>
                evictCandidates json targetBytes rest
                  (freed + lru.estimatedBytes json)
                  (entries.insert agentId kept)

def evictSystemLru (json : SerdeJson Value) (store : ShortTermStore Value)
    (targetBytes : Nat) (order : List String) : ShortTermStore Value :=
  let sorted :=
    (candidates store.entries order).insertionSort
      fun left right => left.2.2 ≤ right.2.2
  let evicted := evictCandidates json targetBytes sorted 0 store.entries
  { store with
    entries := evicted.2
    totalBytes := store.totalBytes - evicted.1 }

/-- Remove the oldest quarter of an agent's entries, at least one. -/
def evictAgentLru (json : SerdeJson Value) (store : ShortTermStore Value)
    (agentId : String) : ShortTermStore Value :=
  match store.entries.lookup agentId with
  | none => store
  | some entries =>
      let toRemove := max (entries.length / 4) 1
      let sorted := entries.insertionSort
        fun left right => left.lastAccessed ≤ right.lastAccessed
      let freed :=
        ((sorted.take toRemove).map fun e => e.estimatedBytes json).sum
      { store with
        entries := store.entries.insert agentId (sorted.drop toRemove)
        totalBytes := store.totalBytes - freed }

/-- Give the agent an empty vector unless it already has one. -/
def ensureAgent (store : ShortTermStore Value) (agentId : String) :
    ShortTermStore Value :=
  if agentId ∈ store.entries then store
  else { store with entries := store.entries.insert agentId [] }

/-- The bytes the agent's entries take. -/
def agentBytes (json : SerdeJson Value) (store : ShortTermStore Value)
    (agentId : String) : Nat :=
  ((entriesOf store.entries agentId).map fun e => e.estimatedBytes json).sum

/-- Evict entries of any agent when the new bytes exceed the system budget. -/
def keepSystemBudget (json : SerdeJson Value) (store : ShortTermStore Value)
    (entrySize : Nat) (order : List String) : ShortTermStore Value :=
  if wrappingAdd 64 store.totalBytes entrySize > systemBudgetBytes then
    store.evictSystemLru json entrySize order
  else store

/-- Evict the agent's oldest entries when it exceeds the agent budget. -/
def keepAgentBudget (json : SerdeJson Value) (store : ShortTermStore Value)
    (agentId : String) (entrySize : Nat) : ShortTermStore Value :=
  if store.agentBytes json agentId + entrySize > agentBudgetBytes then
    store.evictAgentLru json agentId
  else store

/-- The first half of a write: make room for the entry. -/
def roomFor (json : SerdeJson Value) (store : ShortTermStore Value)
    (entry : MemoryEntry Value) (order : List String) :
    ShortTermStore Value :=
  let entrySize := entry.estimatedBytes json
  ((store.keepSystemBudget json entrySize order).ensureAgent
    entry.agentId).keepAgentBudget json entry.agentId entrySize

/-- Drop the least recently used entry of a full vector; the result is the
vector and the tracked total. -/
def keepEntryLimit (json : SerdeJson Value) (store : ShortTermStore Value)
    (agentEntries : List (MemoryEntry Value)) :
    List (MemoryEntry Value) × Nat :=
  if agentEntries.length ≥ store.maxEntriesPerAgent then
    match removeMinOn MemoryEntry.lastAccessed agentEntries with
    | some (lru, kept) =>
        (kept, wrappingSub 64 store.totalBytes (lru.estimatedBytes json))
    | none => (agentEntries, store.totalBytes)
  else (agentEntries, store.totalBytes)

/-- The second half of a write: overwrite the entry of the same key, or add
the entry.  The source unwraps the agent's vector; `roomFor` leaves it one. -/
def place (json : SerdeJson Value) (store : ShortTermStore Value)
    (entry : MemoryEntry Value) : ShortTermStore Value :=
  let entrySize := entry.estimatedBytes json
  match store.entries.lookup entry.agentId with
  | none => store
  | some agentEntries =>
      match firstWith MemoryEntry.key entry.key agentEntries with
      | some existing =>
          { store with
            entries := store.entries.insert entry.agentId
              (modifyFirst MemoryEntry.key entry.key (fun _ => entry)
                agentEntries)
            totalBytes := wrappingAdd 64
              (wrappingSub 64 store.totalBytes (existing.estimatedBytes json))
              entrySize }
      | none =>
          let limited := store.keepEntryLimit json agentEntries
          { store with
            entries := store.entries.insert entry.agentId
              (limited.1 ++ [entry])
            totalBytes := wrappingAdd 64 limited.2 entrySize }

def put (json : SerdeJson Value) (store : ShortTermStore Value)
    (entry : MemoryEntry Value) (order : List String) :
    MemoryResult Unit × ShortTermStore Value :=
  let entry := { entry with tier := .shortTerm }
  (.ok (), (store.roomFor json entry order).place json entry)

def get (store : ShortTermStore Value) (agentId key : String) (now : Nat) :
    MemoryResult (MemoryEntry Value) × ShortTermStore Value :=
  match store.entries.lookup agentId with
  | none => (.error (.keyNotFound key), store)
  | some entries =>
      match firstWith MemoryEntry.key key entries with
      | none => (.error (.keyNotFound key), store)
      | some entry =>
          (.ok (entry.touch now),
            { store with
              entries := store.entries.insert agentId
                (modifyFirst MemoryEntry.key key (·.touch now) entries) })

/-- Whether a search returns the entry, and with which score: `none` when the
key prefix or the least similarity filters it out. -/
def matchEntry (sim : Similarity Score) (query : MemoryQuery Score)
    (entry : MemoryEntry Value) : Option (Option Score) :=
  if (query.keyPrefix.map fun text =>
      text.toList.isPrefixOf entry.key.toList) = some false then none
  else
    match query.embedding, entry.embedding with
    | some queryEmbedding, some entryEmbedding =>
        let score := sim.cosineSimilarity queryEmbedding entryEmbedding
        if sim.lessThan score query.minSimilarity then none
        else some (some score)
    | _, _ => some none

/-- Search results: most similar first, then most recently accessed. -/
def searchOrder (sim : Similarity Score) (a b : SearchResult Value Score) :
    Ordering :=
  (a.compareSimilarity sim b).then
    (compare b.entry.lastAccessed a.entry.lastAccessed)

/-- Search the agent's entries and touch the matching ones; `clock` is the
reading at each entry's turn. -/
def search (sim : Similarity Score) (store : ShortTermStore Value)
    (query : MemoryQuery Score) (clock : Nat → Nat) :
    List (SearchResult Value Score) × ShortTermStore Value :=
  match store.entries.lookup query.agentId with
  | none => ([], store)
  | some entries =>
      let visited := entries.zipIdx.map fun (entry, turn) =>
        match matchEntry sim query entry with
        | none => (entry, none)
        | some score => (entry.touch (clock turn), some score)
      let results := visited.filterMap fun (entry, score) =>
        score.map fun similarity => { entry, similarity }
      let sorted := results.insertionSort fun left right =>
        searchOrder sim left right ≠ .gt
      (sorted.take query.limit,
        { store with
          entries := store.entries.insert query.agentId
            (visited.map Prod.fst) })

def deleteNamespace (json : SerdeJson Value) (store : ShortTermStore Value)
    (agentId : String) : ShortTermStore Value :=
  match store.entries.lookup agentId with
  | none => store
  | some entries =>
      let freed := (entries.map fun e => e.estimatedBytes json).sum
      { store with
        entries := store.entries.erase agentId
        totalBytes := wrappingSub 64 store.totalBytes freed }

def getPromotable (store : ShortTermStore Value) (agentId : String)
    (minAccessCount : Nat) : List (MemoryEntry Value) :=
  (entriesOf store.entries agentId).filter fun e =>
    e.accessCount ≥ minAccessCount

end ShortTermStore

/-! ## What the store holds -/

section Held

variable {Value : Type} {before middle after : AgentEntries Value}

/-- What is held under a key of an agent. -/
def held (entries : AgentEntries Value) (agentId key : String) :
    Option (MemoryEntry Value) :=
  firstWith MemoryEntry.key key (entriesOf entries agentId)

/-- Each agent's entries name the agent and have distinct keys. -/
structure Indexed (entries : AgentEntries Value) : Prop where
  distinct : ∀ agentId,
    ((entriesOf entries agentId).map MemoryEntry.key).Nodup
  filed : ∀ agentId, ∀ entry ∈ entriesOf entries agentId,
    entry.agentId = agentId

/-- Entries may have been dropped and reordered within each agent. -/
def Thinned (before after : AgentEntries Value) : Prop :=
  ∀ agentId, (entriesOf after agentId).Subperm (entriesOf before agentId)

/-- The two entries differ at most in when and how often they were used. -/
structure SameMemory (old new : MemoryEntry Value) : Prop where
  agentId : new.agentId = old.agentId
  key : new.key = old.key
  value : new.value = old.value

/-- Entries may have been touched. -/
def Touched (before after : AgentEntries Value) : Prop :=
  ∀ agentId,
    List.Forall₂ SameMemory (entriesOf before agentId)
      (entriesOf after agentId)

theorem entriesOf_insert (entries : AgentEntries Value)
    (bucket : List (MemoryEntry Value)) (agentId other : String) :
    entriesOf (entries.insert agentId bucket) other =
      if other = agentId then bucket else entriesOf entries other := by
  rw [entriesOf, HashMap.lookup_insert_eq]
  split
  · rfl
  · rfl

theorem entriesOf_erase (entries : AgentEntries Value)
    (agentId other : String) :
    entriesOf (entries.erase agentId) other =
      if other = agentId then [] else entriesOf entries other := by
  rw [entriesOf, HashMap.lookup_erase_eq]
  split
  · rfl
  · rfl

theorem entriesOf_of_lookup {agentId : String}
    {bucket : List (MemoryEntry Value)}
    (found : before.lookup agentId = some bucket) :
    entriesOf before agentId = bucket := by
  rw [entriesOf, found]
  rfl

theorem exists_lookup_of_held {agentId key : String}
    {entry : MemoryEntry Value}
    (found : held before agentId key = some entry) :
    ∃ bucket, before.lookup agentId = some bucket ∧
      firstWith MemoryEntry.key key bucket = some entry := by
  cases present : before.lookup agentId with
  | none =>
      rw [held, entriesOf, present] at found
      cases found
  | some bucket =>
      rw [held, entriesOf_of_lookup present] at found
      exact ⟨bucket, rfl, found⟩

theorem Thinned.refl (entries : AgentEntries Value) :
    Thinned entries entries :=
  fun _ => List.Subperm.refl _

theorem Thinned.trans (first : Thinned before middle)
    (second : Thinned middle after) : Thinned before after :=
  fun agentId => (second agentId).trans (first agentId)

theorem thinned_insert {agentId : String} {bucket : List (MemoryEntry Value)}
    (kept : bucket.Subperm (entriesOf before agentId)) :
    Thinned before (before.insert agentId bucket) := by
  intro other
  rw [entriesOf_insert]
  split
  next same =>
    subst other
    exact kept
  · exact List.Subperm.refl _

theorem Indexed.thinned (indexed : Indexed before)
    (thinned : Thinned before after) : Indexed after where
  distinct := fun agentId =>
    nodup_map_of_subperm (indexed.distinct agentId) (thinned agentId)
  filed := fun agentId entry member =>
    indexed.filed agentId entry ((thinned agentId).subset member)

/-- Replacing the entries of one agent keeps the index, when the new ones are
filed under it with distinct keys. -/
theorem Indexed.insert (indexed : Indexed before) {agentId : String}
    {bucket : List (MemoryEntry Value)}
    (distinct : (bucket.map MemoryEntry.key).Nodup)
    (filed : ∀ entry ∈ bucket, entry.agentId = agentId) :
    Indexed (before.insert agentId bucket) where
  distinct := by
    intro other
    rw [entriesOf_insert]
    split
    · exact distinct
    · exact indexed.distinct other
  filed := by
    intro other entry member
    rw [entriesOf_insert] at member
    split at member
    next same =>
      rw [same]
      exact filed entry member
    · exact indexed.filed other entry member

theorem held_of_thinned (indexed : Indexed before)
    (thinned : Thinned before after) {agentId key : String}
    {entry : MemoryEntry Value}
    (found : held after agentId key = some entry) :
    held before agentId key = some entry :=
  firstWith_of_subperm (indexed.distinct agentId) (thinned agentId) found

theorem touched_insert {agentId : String} {bucket : List (MemoryEntry Value)}
    (same : List.Forall₂ SameMemory (entriesOf before agentId) bucket) :
    Touched before (before.insert agentId bucket) := by
  intro other
  rw [entriesOf_insert]
  split
  next equal =>
    subst other
    exact same
  · exact List.forall₂_same.mpr fun _ _ => ⟨rfl, rfl, rfl⟩

theorem Touched.refl (entries : AgentEntries Value) :
    Touched entries entries :=
  fun _ => List.forall₂_same.mpr fun _ _ => ⟨rfl, rfl, rfl⟩

theorem map_key_of_sameMemory {old new : List (MemoryEntry Value)}
    (same : List.Forall₂ SameMemory old new) :
    new.map MemoryEntry.key = old.map MemoryEntry.key := by
  induction same with
  | nil => rfl
  | cons head _ induction => simp [head.key, induction]

theorem firstWith_of_sameMemory {old new : List (MemoryEntry Value)}
    (same : List.Forall₂ SameMemory old new) (key : String) :
    (firstWith MemoryEntry.key key new).map MemoryEntry.value =
      (firstWith MemoryEntry.key key old).map MemoryEntry.value := by
  induction same with
  | nil => rfl
  | cons head _ induction =>
      rw [firstWith_cons, firstWith_cons, head.key]
      split
      · exact congrArg some head.value
      · exact induction

theorem exists_sameMemory {old new : List (MemoryEntry Value)}
    (same : List.Forall₂ SameMemory old new) {entry : MemoryEntry Value}
    (member : entry ∈ new) : ∃ source ∈ old, SameMemory source entry := by
  induction same with
  | nil => cases member
  | cons head _ induction =>
      rcases List.mem_cons.mp member with rfl | later
      · exact ⟨_, List.mem_cons_self, head⟩
      · obtain ⟨source, sourceMember, equal⟩ := induction later
        exact ⟨source, List.mem_cons_of_mem _ sourceMember, equal⟩

theorem Indexed.touched (indexed : Indexed before)
    (touched : Touched before after) : Indexed after where
  distinct := by
    intro agentId
    rw [map_key_of_sameMemory (touched agentId)]
    exact indexed.distinct agentId
  filed := by
    intro agentId entry member
    obtain ⟨old, oldMember, same⟩ :=
      exists_sameMemory (touched agentId) member
    rw [same.agentId]
    exact indexed.filed agentId old oldMember

theorem held_value_of_touched (touched : Touched before after)
    (agentId key : String) :
    (held after agentId key).map MemoryEntry.value =
      (held before agentId key).map MemoryEntry.value :=
  firstWith_of_sameMemory (touched agentId) key

theorem sameMemory_touch (entry : MemoryEntry Value) (now : Nat) :
    SameMemory entry (entry.touch now) :=
  ⟨rfl, rfl, rfl⟩

theorem sameMemory_modifyFirst (key : String) (now : Nat)
    (bucket : List (MemoryEntry Value)) :
    List.Forall₂ SameMemory bucket
      (modifyFirst MemoryEntry.key key (·.touch now) bucket) := by
  induction bucket with
  | nil => exact .nil
  | cons head bucket induction =>
      rw [modifyFirst]
      split
      · apply List.Forall₂.cons (sameMemory_touch head now)
        exact List.forall₂_same.mpr fun _ _ => ⟨rfl, rfl, rfl⟩
      · exact .cons ⟨rfl, rfl, rfl⟩ induction

theorem sameMemory_map_zipIdx
    {change : MemoryEntry Value × Nat → MemoryEntry Value}
    (same : ∀ entry turn, SameMemory entry (change (entry, turn)))
    (bucket : List (MemoryEntry Value)) (start : Nat) :
    List.Forall₂ SameMemory bucket
      ((bucket.zipIdx start).map change) := by
  induction bucket generalizing start with
  | nil => exact .nil
  | cons head bucket induction =>
      exact .cons (same head start) (induction (start + 1))

end Held

/-! ## What each operation does to it -/

namespace ShortTermStore

variable {Value Score : Type} (json : SerdeJson Value)

theorem indexed_new : Indexed (new : ShortTermStore Value).entries where
  distinct := by simp [new, entriesOf]
  filed := by simp [new, entriesOf]

theorem thinned_evictCandidates (targetBytes : Nat)
    (queue : List (String × Nat × Nat)) (freed : Nat)
    (entries : AgentEntries Value) :
    Thinned entries
      (evictCandidates json targetBytes queue freed entries).2 := by
  induction queue generalizing freed entries with
  | nil => exact Thinned.refl entries
  | cons candidate rest induction =>
      obtain ⟨agentId, index, lastAccessed⟩ := candidate
      rw [evictCandidates]
      split
      · exact Thinned.refl entries
      · split
        · exact induction freed entries
        next bucket found =>
          split
          · exact induction freed entries
          next lru kept removed =>
            have smaller : kept.Subperm (entriesOf entries agentId) := by
              rw [entriesOf_of_lookup found]
              apply (List.sublist_cons_self lru kept).subperm.trans
              exact (perm_of_removeMinOn removed).symm.subperm
            exact (thinned_insert smaller).trans (induction _ _)

variable (store : ShortTermStore Value)

theorem thinned_evictSystemLru (targetBytes : Nat) (order : List String) :
    Thinned store.entries
      (store.evictSystemLru json targetBytes order).entries :=
  thinned_evictCandidates json targetBytes _ 0 store.entries

theorem thinned_evictAgentLru (agentId : String) :
    Thinned store.entries (store.evictAgentLru json agentId).entries := by
  rw [evictAgentLru]
  split
  · exact Thinned.refl store.entries
  next bucket found =>
    apply thinned_insert
    rw [entriesOf_of_lookup found]
    apply (List.drop_sublist _ _).subperm.trans
    exact (List.perm_insertionSort _ bucket).subperm

theorem thinned_ensureAgent (agentId : String) :
    Thinned store.entries (store.ensureAgent agentId).entries := by
  rw [ensureAgent]
  split
  · exact Thinned.refl store.entries
  · exact thinned_insert (List.nil_subperm)

theorem mem_ensureAgent (agentId : String) :
    agentId ∈ (store.ensureAgent agentId).entries := by
  rw [ensureAgent]
  split
  · assumption
  · exact AList.mem_insert _ |>.mpr (.inl rfl)

theorem mem_evictAgentLru (agentId : String)
    (present : agentId ∈ store.entries) :
    agentId ∈ (store.evictAgentLru json agentId).entries := by
  rw [evictAgentLru]
  split
  · exact present
  · exact AList.mem_insert _ |>.mpr (.inl rfl)

theorem thinned_keepSystemBudget (entrySize : Nat) (order : List String) :
    Thinned store.entries
      (store.keepSystemBudget json entrySize order).entries := by
  rw [keepSystemBudget]
  split
  · exact thinned_evictSystemLru json store entrySize order
  · exact Thinned.refl store.entries

theorem thinned_keepAgentBudget (agentId : String) (entrySize : Nat) :
    Thinned store.entries
      (store.keepAgentBudget json agentId entrySize).entries := by
  rw [keepAgentBudget]
  split
  · exact thinned_evictAgentLru json store agentId
  · exact Thinned.refl store.entries

theorem mem_keepAgentBudget {agentId : String} (entrySize : Nat)
    (present : agentId ∈ store.entries) :
    agentId ∈ (store.keepAgentBudget json agentId entrySize).entries := by
  rw [keepAgentBudget]
  split
  · exact mem_evictAgentLru json store agentId present
  · exact present

theorem subperm_keepEntryLimit (bucket : List (MemoryEntry Value)) :
    (store.keepEntryLimit json bucket).1.Subperm bucket := by
  rw [keepEntryLimit]
  split
  · split
    next lru kept removed =>
      apply (List.sublist_cons_self lru kept).subperm.trans
      exact (perm_of_removeMinOn removed).symm.subperm
    · exact List.Subperm.refl bucket
  · exact List.Subperm.refl bucket

theorem thinned_roomFor (entry : MemoryEntry Value) (order : List String) :
    Thinned store.entries (store.roomFor json entry order).entries := by
  apply (thinned_keepSystemBudget json store _ order).trans
  apply (thinned_ensureAgent _ entry.agentId).trans
  exact thinned_keepAgentBudget json _ entry.agentId _

theorem mem_roomFor (entry : MemoryEntry Value) (order : List String) :
    entry.agentId ∈ (store.roomFor json entry order).entries :=
  mem_keepAgentBudget json _ _ (mem_ensureAgent _ entry.agentId)

/-- Placing an entry overwrites the entry of its key, or drops at most one
entry and appends it. -/
theorem place_cases (entry : MemoryEntry Value)
    (present : entry.agentId ∈ store.entries) :
    (∃ existing,
        held store.entries entry.agentId entry.key = some existing ∧
          (store.place json entry).entries =
            store.entries.insert entry.agentId
              (modifyFirst MemoryEntry.key entry.key (fun _ => entry)
                (entriesOf store.entries entry.agentId))) ∨
      (held store.entries entry.agentId entry.key = none ∧
        ∃ kept, kept.Subperm (entriesOf store.entries entry.agentId) ∧
          (store.place json entry).entries =
            store.entries.insert entry.agentId (kept ++ [entry])) := by
  obtain ⟨bucket, found⟩ := HashMap.mem_iff_exists_lookup.mp present
  rw [held, entriesOf_of_lookup found]
  cases existing : firstWith MemoryEntry.key entry.key bucket with
  | some old =>
      refine .inl ⟨old, rfl, ?_⟩
      simp only [place, found, existing]
  | none =>
      refine .inr ⟨rfl, _, subperm_keepEntryLimit json store bucket, ?_⟩
      simp only [place, found, existing]

theorem indexed_place (indexed : Indexed store.entries)
    (entry : MemoryEntry Value) (present : entry.agentId ∈ store.entries) :
    Indexed (store.place json entry).entries := by
  have distinct := indexed.distinct entry.agentId
  have filed := indexed.filed entry.agentId
  rcases store.place_cases json entry present with
    ⟨existing, found, placed⟩ | ⟨missing, kept, smaller, placed⟩
  · rw [placed]
    apply indexed.insert
    · rw [map_modifyFirst (fun _ _ _ => rfl)]
      exact distinct
    · intro other member
      rcases mem_modifyFirst member with old | ⟨_, _, rfl⟩
      · exact filed other old
      · rfl
  · have absent := firstWith_eq_none_iff.mp missing
    rw [placed]
    apply indexed.insert
    · rw [List.map_append, List.map_singleton]
      apply (nodup_map_of_subperm distinct smaller).append
      · exact List.nodup_singleton _
      · simp only [List.disjoint_singleton, List.mem_map, not_exists]
        rintro other ⟨member, same⟩
        exact absent other (smaller.subset member) same
    · intro other member
      rcases List.mem_append.mp member with old | added
      · exact filed other (smaller.subset old)
      · rw [List.mem_singleton.mp added]

theorem held_place_self (entry : MemoryEntry Value)
    (present : entry.agentId ∈ store.entries) :
    held (store.place json entry).entries entry.agentId entry.key =
      some entry := by
  rcases store.place_cases json entry present with
    ⟨existing, found, placed⟩ | ⟨missing, kept, smaller, placed⟩
  · rw [placed, held, entriesOf_insert, if_pos rfl,
      firstWith_modifyFirst (fun _ _ _ => rfl), if_pos rfl]
    rw [held] at found
    rw [found]
    rfl
  · have absent := firstWith_eq_none_iff.mp missing
    have keptMissing : firstWith MemoryEntry.key entry.key kept = none :=
      firstWith_eq_none_iff.mpr fun other member =>
        absent other (smaller.subset member)
    rw [placed, held, entriesOf_insert, if_pos rfl, firstWith_append,
      keptMissing, firstWith_cons, if_pos rfl]
    rfl

theorem held_place_other (indexed : Indexed store.entries)
    (entry : MemoryEntry Value) (present : entry.agentId ∈ store.entries)
    {agentId key : String}
    (different : ¬ (agentId = entry.agentId ∧ key = entry.key))
    {other : MemoryEntry Value}
    (found : held (store.place json entry).entries agentId key = some other) :
    held store.entries agentId key = some other := by
  by_cases same : agentId = entry.agentId
  · subst same
    have otherKey : key ≠ entry.key := fun equal => different ⟨rfl, equal⟩
    rcases store.place_cases json entry present with
      ⟨existing, _, placed⟩ | ⟨_, kept, smaller, placed⟩
    · rwa [placed, held, entriesOf_insert, if_pos rfl,
        firstWith_modifyFirst (fun _ _ _ => rfl), if_neg otherKey] at found
    · rw [placed, held, entriesOf_insert, if_pos rfl, firstWith_append,
        firstWith_cons, if_neg (Ne.symm otherKey)] at found
      apply firstWith_of_subperm (indexed.distinct _) smaller
      simpa [firstWith] using found
  · rcases store.place_cases json entry present with
      ⟨_, _, placed⟩ | ⟨_, _, _, placed⟩
    · rwa [placed, held, entriesOf_insert, if_neg same] at found
    · rwa [placed, held, entriesOf_insert, if_neg same] at found

section Put

variable (entry : MemoryEntry Value) (order : List String)

theorem indexed_put (indexed : Indexed store.entries) :
    Indexed (store.put json entry order).2.entries :=
  indexed_place json _
    (indexed.thinned (thinned_roomFor json store _ order)) _
    (mem_roomFor json store { entry with tier := .shortTerm } order)

theorem held_put_self :
    held (store.put json entry order).2.entries entry.agentId entry.key =
      some { entry with tier := .shortTerm } :=
  held_place_self json _ _
    (mem_roomFor json store { entry with tier := .shortTerm } order)

theorem held_put_other (indexed : Indexed store.entries)
    {agentId key : String}
    (different : ¬ (agentId = entry.agentId ∧ key = entry.key))
    {other : MemoryEntry Value}
    (found : held (store.put json entry order).2.entries agentId key =
      some other) :
    held store.entries agentId key = some other := by
  have thinned :=
    thinned_roomFor json store { entry with tier := .shortTerm } order
  apply held_of_thinned indexed thinned
  exact held_place_other json _ (indexed.thinned thinned) _
    (mem_roomFor json store _ order) different found

end Put

theorem touched_get (agentId key : String) (now : Nat) :
    Touched store.entries (store.get agentId key now).2.entries := by
  rw [get]
  split
  · exact Touched.refl store.entries
  next bucket found =>
    split
    · exact Touched.refl store.entries
    · apply touched_insert
      rw [entriesOf_of_lookup found]
      exact sameMemory_modifyFirst key now bucket

theorem get_of_held {agentId key : String} (now : Nat)
    {entry : MemoryEntry Value}
    (found : held store.entries agentId key = some entry) :
    (store.get agentId key now).1 = .ok (entry.touch now) := by
  obtain ⟨bucket, present, first⟩ := exists_lookup_of_held found
  rw [get, present]
  dsimp only
  rw [first]

theorem get_of_missing {agentId key : String} (now : Nat)
    (missing : held store.entries agentId key = none) :
    store.get agentId key now = (.error (.keyNotFound key), store) := by
  cases bucket : store.entries.lookup agentId with
  | none => rw [get, bucket]
  | some entries =>
      rw [held, entriesOf_of_lookup bucket] at missing
      rw [get, bucket]
      dsimp only
      rw [missing]

theorem touched_search (sim : Similarity Score) (query : MemoryQuery Score)
    (clock : Nat → Nat) :
    Touched store.entries (store.search sim query clock).2.entries := by
  rw [search]
  split
  · exact Touched.refl store.entries
  next bucket found =>
    apply touched_insert
    rw [entriesOf_of_lookup found, List.map_map]
    apply sameMemory_map_zipIdx
    intro entry turn
    dsimp only [Function.comp_apply]
    split
    · exact ⟨rfl, rfl, rfl⟩
    · exact sameMemory_touch entry (clock turn)

theorem entriesOf_deleteNamespace (agentId other : String) :
    entriesOf (store.deleteNamespace json agentId).entries other =
      if other = agentId then [] else entriesOf store.entries other := by
  rw [deleteNamespace]
  split
  next missing =>
    split
    next same =>
      rw [same, entriesOf, missing]
      rfl
    · rfl
  · exact entriesOf_erase store.entries agentId other

theorem thinned_deleteNamespace (agentId : String) :
    Thinned store.entries (store.deleteNamespace json agentId).entries := by
  intro other
  rw [entriesOf_deleteNamespace]
  split
  · exact List.nil_subperm
  · exact List.Subperm.refl _

/-! ## The entry limit is a constant -/

theorem maxEntriesPerAgent_roomFor (entry : MemoryEntry Value)
    (order : List String) :
    (store.roomFor json entry order).maxEntriesPerAgent =
      store.maxEntriesPerAgent := by
  have trimmed : ∀ (store : ShortTermStore Value) agentId entrySize,
      (store.keepAgentBudget json agentId entrySize).maxEntriesPerAgent =
        store.maxEntriesPerAgent := by
    intro store agentId entrySize
    rw [keepAgentBudget]
    split
    · rw [evictAgentLru]
      split <;> rfl
    · rfl
  have ensured : ∀ (store : ShortTermStore Value) agentId,
      (store.ensureAgent agentId).maxEntriesPerAgent =
        store.maxEntriesPerAgent := by
    intro store agentId
    rw [ensureAgent]
    split <;> rfl
  rw [roomFor, trimmed, ensured, keepSystemBudget]
  split <;> rfl

theorem maxEntriesPerAgent_place (entry : MemoryEntry Value) :
    (store.place json entry).maxEntriesPerAgent =
      store.maxEntriesPerAgent := by
  rw [place]
  split
  · rfl
  · split <;> rfl

theorem maxEntriesPerAgent_put (entry : MemoryEntry Value)
    (order : List String) :
    (store.put json entry order).2.maxEntriesPerAgent =
      store.maxEntriesPerAgent := by
  rw [put, maxEntriesPerAgent_place, maxEntriesPerAgent_roomFor]

theorem maxEntriesPerAgent_get (agentId key : String) (now : Nat) :
    (store.get agentId key now).2.maxEntriesPerAgent =
      store.maxEntriesPerAgent := by
  rw [get]
  split
  · rfl
  · split <;> rfl

theorem maxEntriesPerAgent_search (sim : Similarity Score)
    (query : MemoryQuery Score) (clock : Nat → Nat) :
    (store.search sim query clock).2.maxEntriesPerAgent =
      store.maxEntriesPerAgent := by
  rw [search]
  split <;> rfl

theorem maxEntriesPerAgent_deleteNamespace (agentId : String) :
    (store.deleteNamespace json agentId).maxEntriesPerAgent =
      store.maxEntriesPerAgent := by
  rw [deleteNamespace]
  split <;> rfl

end ShortTermStore

end Ughi.Memory
