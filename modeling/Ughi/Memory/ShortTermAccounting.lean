import Mathlib.Algebra.Order.BigOperators.Group.List
import Ughi.Memory.Namespaces

/-!
# The byte counter of the short-term store

The store adjusts its counter wherever entries come and go.  The invariant is
that the counter is the sum over the stored entries; from it no subtraction
can go below zero, and both saturating ones are exact.
-/

namespace Ughi.Memory

open Ughi.Lib

namespace ShortTermStore

variable {Value Score : Type} (json : SerdeJson Value) (sim : Similarity Score)

/-- The bytes of all stored entries. -/
def storedBytes (entries : AgentEntries Value) : Nat :=
  HashMap.sumOf (bytesOf json) entries

/-- The bytes a call wants to add. -/
def Call.bytes : Call Value Score → Nat
  | .put entry _ => entry.estimatedBytes json
  | _ => 0

/-- The sizes of all entries written in a run. -/
def putBytes (calls : List (Call Value Score)) : Nat :=
  (calls.map (Call.bytes json)).sum

/-! ## The subtractions of a call -/

variable (store : ShortTermStore Value)

/-- What a system-wide eviction frees, and what it leaves. -/
def systemEvicted (targetBytes : Nat) (order : List String) :
    Nat × AgentEntries Value :=
  evictCandidates json targetBytes
    ((candidates store.entries order).insertionSort
      fun left right => left.2.2 ≤ right.2.2) 0 store.entries

/-- What an eviction of the oldest quarter frees. -/
def oldestBytes (bucket : List (MemoryEntry Value)) : Nat :=
  bytesOf json ((bucket.insertionSort fun left right =>
    left.lastAccessed ≤ right.lastAccessed).take (max (bucket.length / 4) 1))

/-- Minuend and subtrahend of the subtractions from the counter. -/
abbrev Subtractions : Type := List (Nat × Nat)

def keepSystemBudgetSubtractions (entrySize : Nat) (order : List String) :
    Subtractions :=
  if wrappingAdd 64 store.totalBytes entrySize > systemBudgetBytes then
    [(store.totalBytes, (systemEvicted json store entrySize order).1)]
  else []

def keepAgentBudgetSubtractions (agentId : String) (entrySize : Nat) :
    Subtractions :=
  if store.agentBytes json agentId + entrySize > agentBudgetBytes then
    match store.entries.lookup agentId with
    | none => []
    | some bucket => [(store.totalBytes, oldestBytes json bucket)]
  else []

def placeSubtractions (entry : MemoryEntry Value) : Subtractions :=
  match store.entries.lookup entry.agentId with
  | none => []
  | some bucket =>
      match firstWith MemoryEntry.key entry.key bucket with
      | some existing => [(store.totalBytes, existing.estimatedBytes json)]
      | none =>
          if bucket.length ≥ store.maxEntriesPerAgent then
            match removeMinOn MemoryEntry.lastAccessed bucket with
            | some (lru, _) => [(store.totalBytes, lru.estimatedBytes json)]
            | none => []
          else []

def subtractions : Call Value Score → Subtractions
  | .put entry order =>
      let entry := { entry with tier := .shortTerm }
      let entrySize := entry.estimatedBytes json
      let kept := store.keepSystemBudget json entrySize order
      keepSystemBudgetSubtractions json store entrySize order ++
        keepAgentBudgetSubtractions json (kept.ensureAgent entry.agentId)
          entry.agentId entrySize ++
        placeSubtractions json (store.roomFor json entry order) entry
  | .deleteNamespace agentId =>
      match store.entries.lookup agentId with
      | none => []
      | some bucket => [(store.totalBytes, bytesOf json bucket)]
  | _ => []

/-- No subtraction goes below zero, and the vector a write unwraps is there. -/
structure Safe (call : Call Value Score) : Prop where
  exact : ∀ pair ∈ subtractions json store call, pair.2 ≤ pair.1
  unwraps : ∀ entry order, call = .put entry order →
    entry.agentId ∈
      (store.roomFor json { entry with tier := .shortTerm } order).entries

/-- The counter is the sum over the stored entries, keys are distinct within
each agent, and no agent has more entries than the limit. -/
structure Accounted : Prop where
  total : store.totalBytes = storedBytes json store.entries
  indexed : Indexed store.entries
  capacity : store.maxEntriesPerAgent = 500
  bounded : ∀ agentId, (entriesOf store.entries agentId).length ≤ 500

/-! ## Bytes -/

variable {store}

theorem bytesOf_of_perm {left right : List (MemoryEntry Value)}
    (perm : left.Perm right) : bytesOf json left = bytesOf json right :=
  (perm.map _).sum_nat

theorem bytesOf_append (left right : List (MemoryEntry Value)) :
    bytesOf json (left ++ right) = bytesOf json left + bytesOf json right := by
  simp [bytesOf]

theorem bytesOf_cons (entry : MemoryEntry Value)
    (bucket : List (MemoryEntry Value)) :
    bytesOf json (entry :: bucket) =
      entry.estimatedBytes json + bytesOf json bucket := by
  simp [bytesOf]

theorem bytesOf_singleton (entry : MemoryEntry Value) :
    bytesOf json [entry] = entry.estimatedBytes json := by
  simp [bytesOf]

theorem bytesOf_pair (first second : MemoryEntry Value) :
    bytesOf json [first, second] =
      first.estimatedBytes json + second.estimatedBytes json := by
  simp [bytesOf]

theorem bytesOf_removeMinOn {bucket kept : List (MemoryEntry Value)}
    {lru : MemoryEntry Value}
    (removed : removeMinOn MemoryEntry.lastAccessed bucket =
      some (lru, kept)) :
    bytesOf json bucket = lru.estimatedBytes json + bytesOf json kept := by
  rw [bytesOf_of_perm json (perm_of_removeMinOn removed), bytesOf_cons]

theorem oldestBytes_add_dropOldest (bucket : List (MemoryEntry Value)) :
    oldestBytes json bucket + bytesOf json (dropOldest bucket) =
      bytesOf json bucket := by
  rw [oldestBytes, dropOldest, ← bytesOf_append, List.take_append_drop]
  exact bytesOf_of_perm json (List.perm_insertionSort _ bucket)

theorem storedBytes_insert {entries : AgentEntries Value} {agentId : String}
    {old : List (MemoryEntry Value)} (new : List (MemoryEntry Value))
    (found : entries.lookup agentId = some old) :
    storedBytes json (entries.insert agentId new) + bytesOf json old =
      storedBytes json entries + bytesOf json new :=
  HashMap.sumOf_replace (bytesOf json) found

theorem bytesOf_le_storedBytes {entries : AgentEntries Value}
    {agentId : String} {bucket : List (MemoryEntry Value)}
    (found : entries.lookup agentId = some bucket) :
    bytesOf json bucket ≤ storedBytes json entries :=
  HashMap.le_sumOf (bytesOf json) found

theorem evictCandidates_frees (targetBytes : Nat)
    (queue : List (String × Nat × Nat)) (freed : Nat)
    (entries : AgentEntries Value) :
    (evictCandidates json targetBytes queue freed entries).1 +
        storedBytes json
          (evictCandidates json targetBytes queue freed entries).2 =
      freed + storedBytes json entries := by
  induction queue generalizing freed entries with
  | nil => rfl
  | cons candidate rest induction =>
      obtain ⟨agentId, index, lastAccessed⟩ := candidate
      rw [evictCandidates]
      split
      · rfl
      · split
        · exact induction freed entries
        next bucket found =>
          split
          · exact induction freed entries
          next lru kept removed =>
            have replaced := storedBytes_insert json kept found
            have split := bytesOf_removeMinOn json removed
            rw [induction]
            omega

/-! ## Making room -/

theorem accounted_of_freed (accounted : Accounted json store)
    {entries : AgentEntries Value} {freed : Nat}
    (thinned : Thinned store.entries entries)
    (balance : freed + storedBytes json entries =
      storedBytes json store.entries) :
    freed ≤ store.totalBytes ∧
      Accounted json
        { store with
          entries := entries
          totalBytes := store.totalBytes - freed } := by
  have total := accounted.total
  refine ⟨by omega, ?_, accounted.indexed.thinned thinned,
    accounted.capacity, ?_⟩
  · change store.totalBytes - freed = storedBytes json entries
    omega
  · intro agentId
    exact (thinned agentId).length_le.trans (accounted.bounded agentId)

theorem systemEvicted_freed (accounted : Accounted json store)
    (targetBytes : Nat) (order : List String) :
    (systemEvicted json store targetBytes order).1 ≤ store.totalBytes ∧
      Accounted json (store.evictSystemLru json targetBytes order) := by
  apply accounted_of_freed json accounted
  · exact thinned_evictCandidates json targetBytes _ 0 store.entries
  · have frees := evictCandidates_frees json targetBytes
      ((candidates store.entries order).insertionSort
        fun left right => left.2.2 ≤ right.2.2) 0 store.entries
    rw [Nat.zero_add] at frees
    exact frees

/-- What a phase of a write does to the counter: its subtractions are exact
and it keeps the accounts without growing the counter. -/
structure Frees (before after : ShortTermStore Value)
    (performed : Subtractions) : Prop where
  exact : ∀ pair ∈ performed, pair.2 ≤ pair.1
  accounted : Accounted json after
  smaller : after.totalBytes ≤ before.totalBytes

theorem keepSystemBudget_frees (accounted : Accounted json store)
    (entrySize : Nat) (order : List String) :
    Frees json store (store.keepSystemBudget json entrySize order)
      (keepSystemBudgetSubtractions json store entrySize order) := by
  rw [keepSystemBudget, keepSystemBudgetSubtractions]
  split
  · obtain ⟨below, evicted⟩ :=
      systemEvicted_freed json accounted entrySize order
    refine ⟨?_, evicted, Nat.sub_le _ _⟩
    intro pair member
    rw [List.mem_singleton.mp member]
    exact below
  · exact ⟨by simp, accounted, Nat.le_refl _⟩

theorem ensureAgent_accounted (accounted : Accounted json store)
    (agentId : String) : Accounted json (store.ensureAgent agentId) := by
  have thinned := thinned_ensureAgent store agentId
  rw [ensureAgent] at thinned ⊢
  split
  · exact accounted
  next absent =>
    rw [if_neg absent] at thinned
    have balance : 0 + storedBytes json (store.entries.insert agentId []) =
        storedBytes json store.entries := by
      rw [storedBytes, HashMap.sumOf_insert_of_notMem _ absent, storedBytes]
      simp [bytesOf]
    exact (accounted_of_freed json accounted thinned balance).2

theorem totalBytes_ensureAgent (agentId : String) :
    (store.ensureAgent agentId).totalBytes = store.totalBytes := by
  rw [ensureAgent]
  split <;> rfl

theorem keepAgentBudget_frees (accounted : Accounted json store)
    (agentId : String) (entrySize : Nat) :
    Frees json store (store.keepAgentBudget json agentId entrySize)
      (keepAgentBudgetSubtractions json store agentId entrySize) := by
  have nothing : Frees json store store [] :=
    ⟨by simp, accounted, Nat.le_refl _⟩
  rw [keepAgentBudget, keepAgentBudgetSubtractions]
  split
  · have thinned := thinned_evictAgentLru json store agentId
    rw [evictAgentLru] at thinned ⊢
    cases found : store.entries.lookup agentId with
    | none => exact nothing
    | some bucket =>
        rw [found] at thinned
        have replaced := storedBytes_insert json (dropOldest bucket) found
        have split := oldestBytes_add_dropOldest json bucket
        have balance : oldestBytes json bucket +
            storedBytes json
              (store.entries.insert agentId (dropOldest bucket)) =
            storedBytes json store.entries := by
          omega
        obtain ⟨below, evicted⟩ :=
          accounted_of_freed json accounted thinned balance
        refine ⟨?_, evicted, Nat.sub_le _ _⟩
        intro pair member
        rw [List.mem_singleton.mp member]
        exact below
  · exact nothing

/-! ## Placing an entry -/

theorem keepEntryLimit_frees (accounted : Accounted json store)
    {agentId : String} {bucket : List (MemoryEntry Value)}
    (found : store.entries.lookup agentId = some bucket)
    (word : store.totalBytes < 2 ^ 64) :
    let limited := store.keepEntryLimit json bucket
    limited.1.length + 1 ≤ 500 ∧
      limited.2 + bytesOf json bucket =
        store.totalBytes + bytesOf json limited.1 ∧
      limited.2 ≤ store.totalBytes ∧
      ∀ lru kept,
        removeMinOn MemoryEntry.lastAccessed bucket = some (lru, kept) →
          lru.estimatedBytes json ≤ store.totalBytes := by
  have bounded := accounted.bounded agentId
  rw [entriesOf_of_lookup found] at bounded
  have stored := bytesOf_le_storedBytes json found
  rw [← accounted.total] at stored
  have inside : ∀ lru kept,
      removeMinOn MemoryEntry.lastAccessed bucket = some (lru, kept) →
        lru.estimatedBytes json ≤ store.totalBytes := by
    intro lru kept removed
    have split := bytesOf_removeMinOn json removed
    omega
  rw [keepEntryLimit, accounted.capacity]
  split
  next full =>
    have nonempty : bucket ≠ [] := by
      intro empty
      rw [empty, List.length_nil] at full
      omega
    obtain ⟨⟨lru, kept⟩, removed⟩ := exists_removeMinOn nonempty
    have split := bytesOf_removeMinOn json removed
    have below := inside lru kept removed
    have length := (perm_of_removeMinOn removed).length_eq
    rw [List.length_cons] at length
    rw [removed] at inside ⊢
    dsimp only
    rw [wrappingSub_of_le word below]
    exact ⟨by omega, by omega, Nat.sub_le _ _, inside⟩
  next spare =>
    refine ⟨?_, rfl, Nat.le_refl _, inside⟩
    change bucket.length + 1 ≤ 500
    omega

/-- Filing other entries under an agent, with the counter moved by the
difference, keeps the accounts. -/
theorem accounted_of_filed (accounted : Accounted json store)
    {agentId : String} {old new : List (MemoryEntry Value)}
    {totalBytes : Nat} (found : store.entries.lookup agentId = some old)
    (indexed : Indexed (store.entries.insert agentId new))
    (short : new.length ≤ 500)
    (balance : totalBytes + bytesOf json old =
      store.totalBytes + bytesOf json new) :
    Accounted json
      { store with
        entries := store.entries.insert agentId new
        totalBytes := totalBytes } := by
  have replaced := storedBytes_insert json new found
  have total := accounted.total
  refine ⟨?_, indexed, accounted.capacity, ?_⟩
  · change totalBytes = storedBytes json (store.entries.insert agentId new)
    omega
  · intro other
    rw [entriesOf_insert]
    split
    · exact short
    · exact accounted.bounded other

theorem bytesOf_overwrite {entry old : MemoryEntry Value}
    {bucket : List (MemoryEntry Value)}
    (existing : firstWith MemoryEntry.key entry.key bucket = some old) :
    old.estimatedBytes json ≤ bytesOf json bucket ∧
      bytesOf json
          (modifyFirst MemoryEntry.key entry.key (fun _ => entry) bucket) +
        old.estimatedBytes json =
          bytesOf json bucket + entry.estimatedBytes json := by
  refine ⟨?_, sum_map_modifyFirst existing⟩
  apply List.single_le_sum (fun _ _ => Nat.zero_le _)
  exact List.mem_map_of_mem (mem_of_firstWith existing)

theorem place_accounted (accounted : Accounted json store)
    {entry : MemoryEntry Value} (present : entry.agentId ∈ store.entries)
    (fits : store.totalBytes + entry.estimatedBytes json < 2 ^ 64) :
    (∀ pair ∈ placeSubtractions json store entry, pair.2 ≤ pair.1) ∧
      Accounted json (store.place json entry) ∧
      (store.place json entry).totalBytes ≤
        store.totalBytes + entry.estimatedBytes json := by
  have indexed := indexed_place json store accounted.indexed entry present
  have word : store.totalBytes < 2 ^ 64 := by omega
  have total := accounted.total
  obtain ⟨bucket, found⟩ := HashMap.mem_iff_exists_lookup.mp present
  have stored := bytesOf_le_storedBytes json found
  have bounded := accounted.bounded entry.agentId
  rw [entriesOf_of_lookup found] at bounded
  rw [place, found] at indexed ⊢
  rw [placeSubtractions, found]
  cases existing : firstWith MemoryEntry.key entry.key bucket with
  | some old =>
      simp only [existing] at indexed ⊢
      obtain ⟨oldInside, moved⟩ := bytesOf_overwrite json existing
      have counted : wrappingAdd 64
          (wrappingSub 64 store.totalBytes (old.estimatedBytes json))
          (entry.estimatedBytes json) =
            store.totalBytes - old.estimatedBytes json +
              entry.estimatedBytes json := by
        rw [wrappingSub_of_le word (by omega), wrappingAdd_of_lt (by omega)]
      rw [counted]
      refine ⟨?_, ?_, ?_⟩
      · intro pair inside
        rw [List.mem_singleton.mp inside]
        change old.estimatedBytes json ≤ store.totalBytes
        omega
      · apply accounted_of_filed json accounted found indexed
        · rw [length_modifyFirst]
          exact bounded
        · omega
      · omega
  | none =>
      simp only [existing] at indexed ⊢
      obtain ⟨short, balance, smaller, inside⟩ :=
        keepEntryLimit_frees json accounted found word
      have counted : wrappingAdd 64 (store.keepEntryLimit json bucket).2
          (entry.estimatedBytes json) =
            (store.keepEntryLimit json bucket).2 +
              entry.estimatedBytes json :=
        wrappingAdd_of_lt (by omega)
      rw [counted]
      refine ⟨?_, ?_, ?_⟩
      · intro pair member
        split at member
        · split at member
          next lru kept removed =>
            rw [List.mem_singleton.mp member]
            exact inside lru kept removed
          · cases member
        · cases member
      · apply accounted_of_filed json accounted found indexed
        · rw [List.length_append]
          exact short
        · have nothing : bytesOf json ([] : List (MemoryEntry Value)) = 0 :=
            rfl
          rw [bytesOf_append, bytesOf_cons]
          omega
      · omega

/-! ## Calls -/

/-- What a call does to the accounts. -/
structure Balanced (store : ShortTermStore Value) (call : Call Value Score) :
    Prop where
  safe : Safe json store call
  accounted : Accounted json (afterCall (serve json sim) store call)
  growth : (afterCall (serve json sim) store call).totalBytes ≤
    store.totalBytes + call.bytes json

theorem put_balanced (accounted : Accounted json store)
    {entry : MemoryEntry Value} {order : List String}
    (fits : store.totalBytes + entry.estimatedBytes json < 2 ^ 64) :
    Balanced json sim store (.put entry order) := by
  let filed : MemoryEntry Value := { entry with tier := .shortTerm }
  let size := filed.estimatedBytes json
  have system := keepSystemBudget_frees json accounted size order
  have ensured := ensureAgent_accounted json system.accounted filed.agentId
  have agent := keepAgentBudget_frees json ensured filed.agentId size
  have present := mem_roomFor json store filed order
  have shrunk : (store.roomFor json filed order).totalBytes ≤
      store.totalBytes := by
    apply agent.smaller.trans
    rw [totalBytes_ensureAgent]
    exact system.smaller
  have roomFits : (store.roomFor json filed order).totalBytes + size <
      2 ^ 64 :=
    Nat.lt_of_le_of_lt (Nat.add_le_add_right shrunk size) fits
  obtain ⟨placed, placedAccounted, growth⟩ :=
    place_accounted json agent.accounted present roomFits
  refine ⟨⟨?_, ?_⟩, placedAccounted, ?_⟩
  · intro pair member
    rcases List.mem_append.mp member with earlier | inPlace
    · rcases List.mem_append.mp earlier with inSystem | inAgent
      · exact system.exact pair inSystem
      · exact agent.exact pair inAgent
    · exact placed pair inPlace
  · intro other otherOrder same
    cases same
    exact present
  · exact growth.trans (Nat.add_le_add_right shrunk size)

theorem accounted_of_touched (accounted : Accounted json store)
    {agentId : String} {old new : List (MemoryEntry Value)}
    (found : store.entries.lookup agentId = some old)
    (touched : Touched store.entries (store.entries.insert agentId new))
    (sameBytes : bytesOf json new = bytesOf json old) :
    Accounted json
      { store with entries := store.entries.insert agentId new } := by
  refine ⟨?_, accounted.indexed.touched touched, accounted.capacity, ?_⟩
  · have replaced := storedBytes_insert json new found
    have total := accounted.total
    change store.totalBytes =
      storedBytes json (store.entries.insert agentId new)
    omega
  · intro other
    rw [← (touched other).length_eq]
    exact accounted.bounded other

theorem bytesOf_getAlone (bucket : List (MemoryEntry Value)) (key : String)
    (now : Nat) :
    bytesOf json (getAlone bucket key now).2 = bytesOf json bucket := by
  rw [getAlone]
  cases existing : firstWith MemoryEntry.key key bucket with
  | none => rfl
  | some entry =>
      have moved : bytesOf json
            (modifyFirst MemoryEntry.key key (·.touch now) bucket) +
          entry.estimatedBytes json =
            bytesOf json bucket + (entry.touch now).estimatedBytes json :=
        sum_map_modifyFirst existing
      have same : (entry.touch now).estimatedBytes json =
          entry.estimatedBytes json := rfl
      dsimp only
      omega

theorem get_accounted (accounted : Accounted json store)
    (agentId key : String) (now : Nat) :
    Accounted json (store.get agentId key now).2 := by
  have touched := touched_get store agentId key now
  rw [get] at touched ⊢
  cases found : store.entries.lookup agentId with
  | none => exact accounted
  | some bucket =>
      rw [found] at touched
      cases existing : firstWith MemoryEntry.key key bucket with
      | none =>
          simp only [existing]
          exact accounted
      | some entry =>
          simp only [existing] at touched ⊢
          have sameBytes := bytesOf_getAlone json bucket key now
          rw [getAlone, existing] at sameBytes
          exact accounted_of_touched json accounted found touched sameBytes

theorem bytesOf_map_zipIdx
    {change : MemoryEntry Value × Nat → MemoryEntry Value}
    (same : ∀ entry turn, (change (entry, turn)).estimatedBytes json =
      entry.estimatedBytes json)
    (bucket : List (MemoryEntry Value)) (start : Nat) :
    bytesOf json ((bucket.zipIdx start).map change) = bytesOf json bucket := by
  induction bucket generalizing start with
  | nil => rfl
  | cons head bucket induction =>
      rw [List.zipIdx_cons, List.map_cons, bytesOf_cons, bytesOf_cons, same,
        induction]

theorem bytesOf_visit (query : MemoryQuery Score) (clock : Nat → Nat)
    (bucket : List (MemoryEntry Value)) :
    bytesOf json ((visit sim query clock bucket).map Prod.fst) =
      bytesOf json bucket := by
  rw [visit, List.map_map]
  apply bytesOf_map_zipIdx
  intro entry turn
  dsimp only [Function.comp_apply]
  cases matchEntry sim query entry with
  | none => rfl
  | some score => rfl

theorem totalBytes_get (agentId key : String) (now : Nat) :
    (store.get agentId key now).2.totalBytes = store.totalBytes := by
  rw [get]
  split
  · rfl
  · split <;> rfl

theorem totalBytes_search (query : MemoryQuery Score) (clock : Nat → Nat) :
    (store.search sim query clock).2.totalBytes = store.totalBytes := by
  rw [search]
  split <;> rfl

theorem search_accounted (accounted : Accounted json store)
    (query : MemoryQuery Score) (clock : Nat → Nat) :
    Accounted json (store.search sim query clock).2 := by
  have touched := touched_search store sim query clock
  rw [search] at touched ⊢
  cases found : store.entries.lookup query.agentId with
  | none => exact accounted
  | some bucket =>
      rw [found] at touched
      exact accounted_of_touched json accounted found touched
        (bytesOf_visit json sim query clock bucket)

theorem deleteNamespace_balanced (accounted : Accounted json store)
    (word : store.totalBytes < 2 ^ 64) (agentId : String) :
    Balanced json sim store (.deleteNamespace agentId) := by
  have thinned := thinned_deleteNamespace json store agentId
  have unwraps : ∀ entry order,
      (Call.deleteNamespace agentId : Call Value Score) = .put entry order →
        entry.agentId ∈ (store.roomFor json
          { entry with tier := .shortTerm } order).entries := by
    intro entry order same
    cases same
  cases found : store.entries.lookup agentId with
  | none =>
      have unchanged : store.deleteNamespace json agentId = store := by
        rw [deleteNamespace, found]
      refine ⟨⟨?_, unwraps⟩, ?_, ?_⟩
      · simp [subtractions, found]
      · simp only [afterCall, serve, unchanged]
        exact accounted
      · simp [afterCall, serve, unchanged]
  | some bucket =>
      have balance := HashMap.sumOf_erase (bytesOf json) found
      have deleted : store.deleteNamespace json agentId =
          { store with
            entries := store.entries.erase agentId
            totalBytes := wrappingSub 64 store.totalBytes
              (bytesOf json bucket) } := by
        rw [deleteNamespace, found]
        rfl
      rw [deleted] at thinned
      obtain ⟨below, freed⟩ :=
        accounted_of_freed json accounted thinned balance
      rw [← wrappingSub_of_le word below, ← deleted] at freed
      refine ⟨⟨?_, unwraps⟩, freed, ?_⟩
      · intro pair member
        simp only [subtractions, found] at member
        rw [List.mem_singleton.mp member]
        exact below
      · simp only [afterCall, serve, deleted]
        rw [wrappingSub_of_le word below]
        exact (Nat.sub_le _ _).trans (Nat.le_add_right _ _)

theorem serve_balanced (accounted : Accounted json store)
    (call : Call Value Score)
    (fits : store.totalBytes + call.bytes json < 2 ^ 64) :
    Balanced json sim store call := by
  cases call with
  | put entry order => exact put_balanced json sim accounted fits
  | get agentId key now =>
      exact ⟨⟨nofun, nofun⟩, get_accounted json accounted agentId key now,
        (totalBytes_get agentId key now).le⟩
  | search query clock =>
      exact ⟨⟨nofun, nofun⟩,
        search_accounted json sim accounted query clock,
        (totalBytes_search sim query clock).le⟩
  | deleteNamespace agentId =>
      exact deleteNamespace_balanced json sim accounted
        (Nat.lt_of_le_of_lt (Nat.le_add_right _ _) fits) agentId
  | getPromotable agentId minAccessCount =>
      exact ⟨⟨nofun, nofun⟩, accounted, Nat.le_refl _⟩

theorem new_accounted : Accounted json (new : ShortTermStore Value) :=
  { total := rfl
    indexed := indexed_new
    capacity := rfl
    bounded := by simp [new, entriesOf] }

/-- From a store with its accounts in order, a run keeps them in order as long
as what it writes fits into the counter. -/
theorem accounted_run (accounted : Accounted json store)
    {calls : List (Call Value Score)}
    (fits : store.totalBytes + putBytes json calls < 2 ^ 64) :
    Accounted json (runCalls (afterCall (serve json sim)) store calls) ∧
      EachCall (afterCall (serve json sim)) (Safe json) store calls := by
  induction calls generalizing store with
  | nil => exact ⟨accounted, trivial⟩
  | cons call calls induction =>
      rw [putBytes, List.map_cons, List.sum_cons, ← putBytes] at fits
      have callFits : store.totalBytes + call.bytes json < 2 ^ 64 := by
        omega
      have balanced := serve_balanced json sim accounted call callFits
      have growth := balanced.growth
      obtain ⟨rest, restSafe⟩ := induction balanced.accounted (by omega)
      exact ⟨rest, balanced.safe, restSafe⟩

/-- After every run whose writes fit into the counter, the counter is the sum
over the stored entries, keys are distinct within each agent, no agent has more
than 500 entries, and no call on the way could underflow or fail to unwrap. -/
theorem totalBytes_accounted {calls : List (Call Value Score)}
    (fits : putBytes json calls < 2 ^ 64) :
    let store := runCalls (afterCall (serve json sim)) new calls
    store.totalBytes = storedBytes json store.entries ∧
      (∀ agentId,
        ((entriesOf store.entries agentId).map MemoryEntry.key).Nodup) ∧
      (∀ agentId, (entriesOf store.entries agentId).length ≤ 500) ∧
      EachCall (afterCall (serve json sim)) (Safe json) new calls := by
  have fresh : (new : ShortTermStore Value).totalBytes +
      putBytes json calls < 2 ^ 64 := by
    rw [show (new : ShortTermStore Value).totalBytes = 0 from rfl]
    omega
  obtain ⟨accounted, safe⟩ :=
    accounted_run json sim (new_accounted json) fresh
  exact ⟨accounted.total, accounted.indexed.distinct, accounted.bounded, safe⟩

/-- An entry is written, overwritten and deleted with its namespace. -/
theorem totalBytes_accounted_example :
    let sim := MemoryStore.literalSimilarity
    let calls : List (Call MemoryStore.Literal Bool) :=
      [.put (.newShort "agent" "plan" (.bool true) 1) [],
        .put (.newShort "agent" "plan" (.bool false) 2) [],
        .deleteNamespace "agent"]
    let store :=
      runCalls (afterCall (serve MemoryStore.literalJson sim)) new calls
    putBytes MemoryStore.literalJson calls < 2 ^ 64 ∧
      store.totalBytes =
        storedBytes MemoryStore.literalJson store.entries := by
  intro sim calls store
  have fits : putBytes MemoryStore.literalJson calls < 2 ^ 64 := by
    decide +kernel
  exact ⟨fits, (totalBytes_accounted MemoryStore.literalJson sim fits).1⟩

end ShortTermStore

end Ughi.Memory
