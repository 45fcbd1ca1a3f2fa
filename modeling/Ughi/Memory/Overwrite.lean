import Ughi.Memory.AgentBudget

/-!
# When an overwrite spares its neighbours

Both budget checks count the overwritten copy and the new one, so a write that
does not grow the store may evict.  It leaves the other entries alone exactly
when the evictions it runs meet no entry but the one it replaces.
-/

namespace Ughi.Memory

open Ughi.Lib

namespace ShortTermStore

variable {Value Score : Type} (json : SerdeJson Value) (sim : Similarity Score)

/-- The oldest quarter of a vector, at least one entry. -/
def oldest (bucket : List (MemoryEntry Value)) : List (MemoryEntry Value) :=
  (bucket.insertionSort fun left right =>
    left.lastAccessed ≤ right.lastAccessed).take (max (bucket.length / 4) 1)

/-- A write leaves what is held under every other key, and its own key holds
the entry written. -/
def OverwritesOnly (store : ShortTermStore Value) (entry : MemoryEntry Value)
    (order : List String) : Prop :=
  let after := (store.put json entry order).2
  (∀ agentId key, ¬ (agentId = entry.agentId ∧ key = entry.key) →
    held after.entries agentId key = held store.entries agentId key) ∧
    held after.entries entry.agentId entry.key =
      some { entry with tier := .shortTerm }

/-- Within the system budget, the agent is within its own with both copies, or
its oldest quarter is the old copy.  Beyond it, the old copy is what a
system-wide eviction takes first, and without it the agent is within its own
budget or has no other entry. -/
def MeetsOnlyOld (store : ShortTermStore Value) (entry old : MemoryEntry Value)
    (order : List String) : Prop :=
  let entrySize := entry.estimatedBytes json
  let bucket := entriesOf store.entries entry.agentId
  if store.totalBytes + entrySize ≤ systemBudgetBytes then
    bytesOf json bucket + entrySize ≤ agentBudgetBytes ∨ oldest bucket = [old]
  else
    systemVictim store order = some (entry.agentId, old) ∧
      (bytesOf json bucket - old.estimatedBytes json + entrySize ≤
          agentBudgetBytes ∨
        bucket = [old])

/-! ## Entries that survive -/

/-- Every entry but that of one key of one agent is still there. -/
def Spares (agentId key : String) (before after : AgentEntries Value) : Prop :=
  ∀ other, ∀ entry ∈ entriesOf before other,
    (other = agentId → entry.key ≠ key) → entry ∈ entriesOf after other

section Survivors

variable {agentId key : String} {before middle after : AgentEntries Value}

theorem Spares.refl (entries : AgentEntries Value) :
    Spares agentId key entries entries :=
  fun _ _ member _ => member

/-- Two thinnings spare the neighbours exactly when both do. -/
theorem spares_trans_iff (first : Thinned before middle)
    (second : Thinned middle after) :
    Spares agentId key before after ↔
      Spares agentId key before middle ∧ Spares agentId key middle after := by
  constructor
  · intro spares
    constructor
    · intro other entry member different
      exact (second other).subset (spares other entry member different)
    · intro other entry member different
      exact spares other entry ((first other).subset member) different
  · rintro ⟨earlier, later⟩ other entry member different
    exact later other entry (earlier other entry member different) different

theorem held_eq_some_iff (indexed : Indexed before) {other : String}
    {entry : MemoryEntry Value} :
    held before other key = some entry ↔
      entry ∈ entriesOf before other ∧ entry.key = key :=
  firstWith_eq_some_iff (indexed.distinct other)

theorem notMem_of_perm {bucket gone left : List (MemoryEntry Value)}
    (distinct : (bucket.map MemoryEntry.key).Nodup)
    (parted : bucket.Perm (gone ++ left)) {entry : MemoryEntry Value}
    (removed : entry ∈ gone) : entry ∉ left := by
  have nodup := (parted.map MemoryEntry.key).nodup_iff.mp distinct
  rw [List.map_append, List.nodup_append] at nodup
  intro member
  exact nodup.2.2 entry.key (List.mem_map_of_mem removed) entry.key
    (List.mem_map_of_mem member) rfl

theorem perm_oldest_append_dropOldest (bucket : List (MemoryEntry Value)) :
    bucket.Perm (oldest bucket ++ dropOldest bucket) := by
  rw [oldest, dropOldest, List.take_append_drop]
  exact (List.perm_insertionSort _ bucket).symm

theorem mem_of_mem_oldest {bucket : List (MemoryEntry Value)}
    {entry : MemoryEntry Value} (member : entry ∈ oldest bucket) :
    entry ∈ bucket :=
  (perm_oldest_append_dropOldest bucket).mem_iff.mpr
    (List.mem_append_left _ member)

end Survivors

/-! ## The system-wide eviction -/

section System

variable {json} {store : ShortTermStore Value} {agentId : String}
  {old : MemoryEntry Value} {entrySize : Nat} {order : List String}

theorem parted_of_victim (smaller : entrySize ≤ old.estimatedBytes json)
    (positive : 0 < entrySize)
    (victim : systemVictim store order = some (agentId, old))
    (other : String) :
    (entriesOf store.entries other).Perm
      ((if agentId = other then [old] else []) ++
        entriesOf (systemEvicted json store entrySize order).2 other) := by
  obtain ⟨evicted, taken, _, first⟩ :=
    systemEvicted_evicted json store entrySize order
  rw [victim] at first
  obtain ⟨rest, rfl⟩ := List.head?_eq_some_iff.mp (first positive)
  have alone : rest = [] := by
    apply Classical.byContradiction
    intro more
    have short := taken.minimal [(agentId, old)] rest rfl more
    simp only [takenSize, entryBytes, List.map_cons, List.map_nil,
      List.sum_cons, List.sum_nil] at short
    omega
  subst alone
  have parted := taken.parted other
  rw [takenFrom_cons] at parted
  exact parted

/-- An eviction for no more than the old copy spares the neighbours exactly
when the old copy is what it takes first. -/
theorem spares_systemEvicted_iff (indexed : Indexed store.entries)
    (filed : old ∈ entriesOf store.entries agentId) (positive : 0 < entrySize)
    (smaller : entrySize ≤ old.estimatedBytes json) :
    Spares agentId old.key store.entries
        (systemEvicted json store entrySize order).2 ↔
      systemVictim store order = some (agentId, old) := by
  obtain ⟨evicted, taken, _, first⟩ :=
    systemEvicted_evicted json store entrySize order
  rw [← first positive]
  constructor
  · intro spares
    have own : ∀ pair ∈ evicted, pair = (agentId, old) := by
      rintro ⟨other, entry⟩ member
      have removed : entry ∈ takenFrom evicted other := by
        apply List.mem_map.mpr
        exact ⟨(other, entry), by simp [member], rfl⟩
      have parted := taken.parted other
      have stored : entry ∈ entriesOf store.entries other :=
        parted.mem_iff.mpr (List.mem_append_left _ removed)
      have gone := notMem_of_perm (indexed.distinct other) parted removed
      by_cases same : other = agentId ∧ entry.key = old.key
      · obtain ⟨rfl, sameKey⟩ := same
        have one := (held_eq_some_iff indexed).mpr ⟨stored, sameKey⟩
        have two := (held_eq_some_iff indexed).mpr ⟨filed, rfl⟩
        rw [one] at two
        cases two
        rfl
      · refine absurd (spares other entry stored ?_) gone
        intro sameAgent sameKey
        exact same ⟨sameAgent, sameKey⟩
    cases evicted with
    | cons pair rest =>
        rw [own pair List.mem_cons_self]
        rfl
    | nil =>
        rcases taken.enough with reached | empty
        · exact absurd reached (Nat.not_le_of_lt positive)
        · have parted := (taken.parted agentId).mem_iff.mp filed
          rw [empty agentId] at parted
          cases parted
  · intro victim
    rw [first positive] at victim
    intro other entry member different
    have parted := parted_of_victim smaller positive victim other
    rcases List.mem_append.mp (parted.mem_iff.mp member) with removed | stays
    · split at removed
      next sameAgent =>
        have same := List.mem_singleton.mp removed
        exact absurd (congrArg MemoryEntry.key same)
          (different sameAgent.symm)
      next => cases removed
    · exact stays

end System

/-! ## The eviction for the agent -/

section Agent

variable {json} {store : ShortTermStore Value}
  {bucket : List (MemoryEntry Value)} {old : MemoryEntry Value}

theorem oldest_ne_nil (nonempty : bucket ≠ []) : oldest bucket ≠ [] := by
  have positive := List.length_pos_iff.mpr nonempty
  apply List.length_pos_iff.mp
  rw [oldest, List.length_take, List.length_insertionSort]
  omega

/-- Trimming spares the neighbours exactly within the budget or when the oldest
quarter has none of them. -/
theorem spares_trim_iff (distinct : (bucket.map MemoryEntry.key).Nodup)
    (key : String) (entrySize : Nat) :
    (∀ entry ∈ bucket, entry.key ≠ key →
        entry ∈ trim json bucket entrySize) ↔
      bytesOf json bucket + entrySize ≤ agentBudgetBytes ∨
        ∀ entry ∈ oldest bucket, entry.key = key := by
  have parted := perm_oldest_append_dropOldest bucket
  by_cases fits : bytesOf json bucket + entrySize ≤ agentBudgetBytes
  · have untrimmed : trim json bucket entrySize = bucket :=
      if_neg (Nat.not_lt_of_le fits)
    rw [untrimmed]
    exact iff_of_true (fun _ member _ => member) (.inl fits)
  · have trimmed : trim json bucket entrySize = dropOldest bucket :=
      if_pos (Nat.lt_of_not_le fits)
    rw [trimmed, or_iff_right fits]
    constructor
    · intro spares entry removed
      apply Classical.byContradiction
      intro different
      exact notMem_of_perm distinct parted removed
        (spares entry (mem_of_mem_oldest removed) different)
    · intro own entry member different
      rcases List.mem_append.mp (parted.mem_iff.mp member) with
        removed | stays
      · exact absurd (own entry removed) different
      · exact stays

theorem spares_roomFor_iff (indexed : Indexed store.entries)
    (entry : MemoryEntry Value) (order : List String) :
    let kept := store.keepSystemBudget json (entry.estimatedBytes json) order
    Spares entry.agentId entry.key kept.entries
        (store.roomFor json entry order).entries ↔
      bytesOf json (entriesOf kept.entries entry.agentId) +
            entry.estimatedBytes json ≤ agentBudgetBytes ∨
        ∀ other ∈ oldest (entriesOf kept.entries entry.agentId),
          other.key = entry.key := by
  intro kept
  have thinned := thinned_keepSystemBudget json store
    (entry.estimatedBytes json) order
  have keptIndexed : Indexed kept.entries := indexed.thinned thinned
  have room := entriesOf_roomFor json store entry order
  rw [← spares_trim_iff (keptIndexed.distinct entry.agentId)]
  constructor
  · intro spares other member different
    have stays := spares entry.agentId other member fun _ => different
    rw [room, if_pos rfl] at stays
    exact stays
  · intro spares agentId other member different
    rw [room]
    split
    next sameAgent =>
      subst sameAgent
      exact spares other member (different rfl)
    next => exact member

/-- Only the old copy is in the oldest quarter when its key is the only one
there. -/
theorem oldest_eq_singleton_iff
    (distinct : (bucket.map MemoryEntry.key).Nodup) (filed : old ∈ bucket) :
    oldest bucket = [old] ↔ ∀ entry ∈ oldest bucket, entry.key = old.key := by
  constructor
  · intro single entry member
    rw [single] at member
    rw [List.mem_singleton.mp member]
  · intro own
    have parted := perm_oldest_append_dropOldest bucket
    have same : ∀ entry ∈ oldest bucket, entry = old := fun entry member =>
      List.inj_on_of_nodup_map distinct (mem_of_mem_oldest member) filed
        (own entry member)
    have nodup : (oldest bucket).Nodup := by
      have whole := (parted.map MemoryEntry.key).nodup_iff.mp distinct
      rw [List.map_append] at whole
      exact List.Nodup.of_map _ (List.Nodup.of_append_left whole)
    obtain ⟨first, rest, split⟩ := List.exists_cons_of_ne_nil
      (oldest_ne_nil (List.ne_nil_of_mem filed))
    rw [split] at same nodup ⊢
    cases rest with
    | nil => rw [same first List.mem_cons_self]
    | cons second rest =>
        have repeated : first = second := by
          rw [same first (by simp), same second (by simp)]
        rw [repeated] at nodup
        simp at nodup

end Agent

/-! ## Writes -/

section Writes

variable {json} {store : ShortTermStore Value} {entry old : MemoryEntry Value}

theorem held_place_of_held (capacity : store.maxEntriesPerAgent = 500)
    (present : entry.agentId ∈ store.entries)
    (spare : firstWith MemoryEntry.key entry.key
        (entriesOf store.entries entry.agentId) = none →
      (entriesOf store.entries entry.agentId).length < 500)
    {agentId key : String}
    (different : ¬ (agentId = entry.agentId ∧ key = entry.key))
    {other : MemoryEntry Value}
    (found : held store.entries agentId key = some other) :
    held (store.place json entry).entries agentId key = some other := by
  have placed := entriesOf_place json store capacity present agentId
  rw [held] at found ⊢
  rw [placed]
  by_cases own : agentId = entry.agentId
  · have otherKey : key ≠ entry.key := fun same => different ⟨own, same⟩
    rw [if_pos own]
    rw [own] at found
    cases existing : firstWith MemoryEntry.key entry.key
        (entriesOf store.entries entry.agentId) with
    | some old =>
        dsimp only
        rw [firstWith_modifyFirst (fun _ _ _ => rfl), if_neg otherKey]
        exact found
    | none =>
        dsimp only
        rw [limit_of_lt (spare existing), firstWith_append, found]
        rfl
  · rw [if_neg own]
    exact found

theorem length_lt_of_gone (accounted : Accounted json store)
    {after : AgentEntries Value} (thinned : Thinned store.entries after)
    {agentId key : String} (found : held store.entries agentId key = some old)
    (missing : held after agentId key = none) :
    (entriesOf after agentId).length < 500 := by
  obtain ⟨stored, sameKey⟩ := (held_eq_some_iff accounted.indexed).mp found
  have bounded := accounted.bounded agentId
  apply Nat.lt_of_not_le
  intro full
  have same := (thinned agentId).perm_of_length_le (bounded.trans full)
  have stays := same.mem_iff.mpr stored
  exact firstWith_eq_none_iff.mp missing old stays sameKey

/-- A write of an existing key changes only that key exactly when making room
spares the neighbours. -/
theorem overwritesOnly_iff_spares (accounted : Accounted json store)
    (found : held store.entries entry.agentId entry.key = some old)
    (order : List String) :
    OverwritesOnly json store entry order ↔
      Spares entry.agentId entry.key store.entries
        (store.roomFor json { entry with tier := .shortTerm }
          order).entries := by
  let filed : MemoryEntry Value := { entry with tier := .shortTerm }
  let room := store.roomFor json filed order
  have indexed := accounted.indexed
  have thinned : Thinned store.entries room.entries :=
    thinned_roomFor json store filed order
  have roomIndexed := indexed.thinned thinned
  have present : filed.agentId ∈ room.entries :=
    mem_roomFor json store filed order
  have capacity : room.maxEntriesPerAgent = 500 := by
    rw [maxEntriesPerAgent_roomFor]
    exact accounted.capacity
  have spare : firstWith MemoryEntry.key filed.key
        (entriesOf room.entries filed.agentId) = none →
      (entriesOf room.entries filed.agentId).length < 500 :=
    length_lt_of_gone accounted thinned found
  constructor
  · intro only agentId other member different
    have before := (held_eq_some_iff indexed).mpr ⟨member, rfl⟩
    have elsewhere : ¬ (agentId = entry.agentId ∧ other.key = entry.key) := by
      rintro ⟨sameAgent, sameKey⟩
      exact different sameAgent sameKey
    have after := (only.1 agentId other.key elsewhere).trans before
    have inRoom := held_place_other json room roomIndexed filed present
      elsewhere after
    exact ((held_eq_some_iff roomIndexed).mp inRoom).1
  · intro spares
    refine ⟨?_, held_put_self json store entry order⟩
    intro agentId key elsewhere
    cases before : held store.entries agentId key with
    | some other =>
        obtain ⟨member, rfl⟩ := (held_eq_some_iff indexed).mp before
        have inRoom : other ∈ entriesOf room.entries agentId := by
          apply spares agentId other member
          intro sameAgent sameKey
          exact elsewhere ⟨sameAgent, sameKey⟩
        exact @held_place_of_held _ json room filed capacity present spare
          agentId other.key elsewhere other
          ((held_eq_some_iff roomIndexed).mpr ⟨inRoom, rfl⟩)
    | none =>
        cases after : held (store.put json entry order).2.entries agentId
            key with
        | none => rfl
        | some other =>
            have earlier := held_put_other json store entry order indexed
              elsewhere after
            rw [before] at earlier
            cases earlier

theorem oldest_others_iff {bucket others : List (MemoryEntry Value)}
    (distinct : (bucket.map MemoryEntry.key).Nodup)
    (parted : bucket.Perm (old :: others)) :
    (∀ other ∈ oldest others, other.key = old.key) ↔ bucket = [old] := by
  constructor
  · intro own
    have none : others = [] := by
      apply Classical.byContradiction
      intro more
      obtain ⟨first, rest, split⟩ :=
        List.exists_cons_of_ne_nil (oldest_ne_nil more)
      have inOldest : first ∈ oldest others := by
        simp [split]
      have nodup := (parted.map MemoryEntry.key).nodup_iff.mp distinct
      rw [List.map_cons, List.nodup_cons] at nodup
      apply nodup.1
      rw [← own first inOldest]
      exact List.mem_map_of_mem (mem_of_mem_oldest inOldest)
    rw [none] at parted
    exact List.perm_singleton.mp parted
  · rintro rfl
    have none : others = [] := by
      have length := parted.length_eq
      exact List.length_eq_zero_iff.mp (by simpa using length.symm)
    rw [none]
    intro other member
    simp [oldest] at member

theorem bytesOf_of_victim {agentId : String} {entrySize : Nat}
    {order : List String} (smaller : entrySize ≤ old.estimatedBytes json)
    (positive : 0 < entrySize)
    (victim : systemVictim store order = some (agentId, old)) :
    (entriesOf store.entries agentId).Perm
        (old :: entriesOf (systemEvicted json store entrySize order).2
          agentId) ∧
      bytesOf json
          (entriesOf (systemEvicted json store entrySize order).2 agentId) =
        bytesOf json (entriesOf store.entries agentId) -
          old.estimatedBytes json := by
  have parted := parted_of_victim smaller positive victim agentId
  rw [if_pos rfl, List.singleton_append] at parted
  have bytes := bytesOf_of_perm json parted
  rw [bytesOf_cons] at bytes
  refine ⟨parted, ?_⟩
  omega

/-- Where the counter does not wrap around, a write no larger than the entry it
replaces changes only its key exactly when no eviction meets another entry. -/
theorem overwritesOnly_iff_of_accounted (accounted : Accounted json store)
    (word : store.totalBytes + entry.estimatedBytes json < 2 ^ 64)
    (found : held store.entries entry.agentId entry.key = some old)
    (smaller : entry.estimatedBytes json ≤ old.estimatedBytes json)
    (order : List String) :
    OverwritesOnly json store entry order ↔
      MeetsOnlyOld json store entry old order := by
  let filed : MemoryEntry Value := { entry with tier := .shortTerm }
  let entrySize := entry.estimatedBytes json
  let kept := store.keepSystemBudget json entrySize order
  have indexed := accounted.indexed
  have distinct := indexed.distinct entry.agentId
  obtain ⟨stored, sameKey⟩ := (held_eq_some_iff indexed).mp found
  have positive : 0 < entrySize := Nat.lt_of_lt_of_le (by decide)
    (Nat.le_add_left 64 _)
  have agentPhase : Spares entry.agentId entry.key kept.entries
        (store.roomFor json filed order).entries ↔
      bytesOf json (entriesOf kept.entries entry.agentId) + entrySize ≤
          agentBudgetBytes ∨
        ∀ other ∈ oldest (entriesOf kept.entries entry.agentId),
          other.key = entry.key :=
    spares_roomFor_iff indexed filed order
  rw [overwritesOnly_iff_spares accounted found, MeetsOnlyOld]
  by_cases within : store.totalBytes + entrySize ≤ systemBudgetBytes
  · rw [if_pos within, oldest_eq_singleton_iff distinct stored, sameKey]
    have unchanged : kept = store :=
      keepSystemBudget_of_le json store within order
    rw [unchanged] at agentPhase
    exact agentPhase
  · rw [if_neg within]
    have evicts : kept.entries =
        (systemEvicted json store entrySize order).2 := by
      have sum : wrappingAdd 64 store.totalBytes entrySize =
          store.totalBytes + entrySize := wrappingAdd_of_lt word
      simp only [kept, keepSystemBudget]
      rw [sum, if_pos (Nat.lt_of_not_le within)]
      rfl
    have systemPhase := @spares_systemEvicted_iff _ json store entry.agentId
      old entrySize order indexed stored positive smaller
    rw [← evicts, sameKey] at systemPhase
    have systemThinned : Thinned store.entries kept.entries :=
      thinned_keepSystemBudget json store entrySize order
    have agentThinned : Thinned kept.entries
        (store.roomFor json filed order).entries :=
      (thinned_ensureAgent kept entry.agentId).trans
        (thinned_keepAgentBudget json _ entry.agentId entrySize)
    rw [spares_trans_iff systemThinned agentThinned, systemPhase]
    apply and_congr_right
    intro victim
    obtain ⟨parted, remaining⟩ := bytesOf_of_victim smaller positive victim
    rw [← evicts] at parted remaining
    have others := oldest_others_iff distinct parted
    rw [sameKey] at others
    rw [agentPhase, others, remaining]

end Writes

theorem ample_addressSpace : Ample (2 ^ 63 - 1) where
  wide := by decide
  word := by decide

theorem estimatedBytes_le_totalBytes {store : ShortTermStore Value}
    (accounted : Accounted json store) {agentId key : String}
    {old : MemoryEntry Value}
    (found : held store.entries agentId key = some old) :
    old.estimatedBytes json ≤ store.totalBytes := by
  rw [accounted.total]
  obtain ⟨bucket, present, first⟩ := exists_lookup_of_held found
  have inside : old.estimatedBytes json ≤ bytesOf json bucket := by
    apply List.single_le_sum (fun _ _ => Nat.zero_le _)
    exact List.mem_map_of_mem (mem_of_firstWith first)
  exact inside.trans (bytesOf_le_storedBytes json present)

/-- After every run, a write no larger than the entry it replaces changes only
its key exactly when no eviction meets another entry. -/
theorem overwritesOnly_iff_meetsOnlyOld {calls : List (Call Value Score)}
    (inMemory : ∀ entry order, Call.put entry order ∈ calls →
      entry.estimatedBytes json < 2 ^ 63)
    {entry old : MemoryEntry Value} :
    let store := runCalls (afterCall (serve json sim)) new calls
    held store.entries entry.agentId entry.key = some old →
      entry.estimatedBytes json ≤ old.estimatedBytes json →
        ∀ order, OverwritesOnly json store entry order ↔
          MeetsOnlyOld json store entry old order := by
  intro store found smaller order
  have small : ∀ call ∈ calls, call.bytes json ≤ 2 ^ 63 - 1 := by
    intro call member
    cases call with
    | put entry order =>
        exact Nat.le_sub_one_of_lt (inMemory entry order member)
    | _ => exact Nat.zero_le _
  have bounded := bounded_run sim ample_addressSpace bounded_new small
  have inside := estimatedBytes_le_totalBytes json bounded.accounted found
  have within := bounded.within
  change store.totalBytes ≤ 2 ^ 63 - 1 at within
  change _ ≤ store.totalBytes at inside
  have word : store.totalBytes + entry.estimatedBytes json < 2 ^ 64 := by
    omega
  exact overwritesOnly_iff_of_accounted bounded.accounted word found smaller
    order

theorem held_pair {small big : MemoryEntry Value}
    (newShort : small.tier = .shortTerm ∧ big.tier = .shortTerm)
    (sameAgent : big.agentId = small.agentId)
    (otherKeys : small.key ≠ big.key)
    (fits : small.estimatedBytes json + big.estimatedBytes json ≤
      agentBudgetBytes) :
    held (runCalls (afterCall (serve json sim)) new
        [.put small [], .put big []]).entries small.agentId small.key =
      some small := by
  obtain ⟨entries, accounted, _⟩ :=
    put_pair sim newShort sameAgent otherKeys fits
  apply (held_eq_some_iff accounted.indexed).mpr
  rw [entries]
  exact ⟨List.mem_cons_self, rfl⟩

/-- The older of two entries is overwritten, and with both copies counted the
agent exceeds its budget. -/
theorem overwritesOnly_iff_meetsOnlyOld_evicting :
    let json := MemoryStore.literalJson
    let calls : List (Call MemoryStore.Literal Bool) :=
      [.put (embedded "a" "k1" 800000 1) [], .put (embedded "a" "k2" 0 2) []]
    let store := runCalls (afterCall (serve json
      MemoryStore.literalSimilarity)) new calls
    let old := embedded "a" "k1" 800000 1
    let entry := embedded "a" "k1" 790000 3
    old.estimatedBytes json + entry.estimatedBytes json >
        agentBudgetBytes ∧
      held store.entries "a" "k1" = some old ∧
      (OverwritesOnly json store entry [] ↔
        MeetsOnlyOld json store entry old []) := by
  have budget : agentBudgetBytes = 6291456 := rfl
  have sizeOld :=
    @estimatedBytes_embedded "a" "k1" 3 (by decide +kernel) 800000 1
  have sizeOther :=
    @estimatedBytes_embedded "a" "k2" 3 (by decide +kernel) 0 2
  have sizeEntry :=
    @estimatedBytes_embedded "a" "k1" 3 (by decide +kernel) 790000 3
  have each : ∀ call ∈ ([.put (embedded "a" "k1" 800000 1) [],
        .put (embedded "a" "k2" 0 2) []] :
          List (Call MemoryStore.Literal Bool)),
      call.bytes MemoryStore.literalJson < 2 ^ 63 := by
    simp only [List.forall_mem_cons, Call.bytes, sizeOld, sizeOther]
    simp
  have found := @held_pair _ _ MemoryStore.literalJson
    MemoryStore.literalSimilarity (embedded "a" "k1" 800000 1)
    (embedded "a" "k2" 0 2) ⟨rfl, rfl⟩ rfl (by decide)
    (by rw [sizeOld, sizeOther, budget]; decide)
  have smaller : (embedded "a" "k1" 790000 3).estimatedBytes
        MemoryStore.literalJson ≤
      (embedded "a" "k1" 800000 1).estimatedBytes
        MemoryStore.literalJson := by
    rw [sizeEntry, sizeOld]
    decide
  have exceeded : (embedded "a" "k1" 800000 1).estimatedBytes
          MemoryStore.literalJson +
        (embedded "a" "k1" 790000 3).estimatedBytes MemoryStore.literalJson >
      agentBudgetBytes := by
    rw [sizeOld, sizeEntry, budget]
    decide
  have onlyOld := @overwritesOnly_iff_meetsOnlyOld _ _
    MemoryStore.literalJson MemoryStore.literalSimilarity _
    (fun _ _ member => each _ member) (embedded "a" "k1" 790000 3) _ found
    smaller []
  exact ⟨exceeded, found, onlyOld⟩

/-- Writing the larger of two entries once more drops the older one beside it,
when the three copies exceed the agent budget. -/
theorem not_overwritesOnly_pair {small big : MemoryEntry Value}
    (newShort : small.tier = .shortTerm ∧ big.tier = .shortTerm)
    (sameAgent : big.agentId = small.agentId)
    (otherKeys : small.key ≠ big.key)
    (older : small.lastAccessed ≤ big.lastAccessed)
    (fits : small.estimatedBytes json + big.estimatedBytes json ≤
      agentBudgetBytes)
    (exceeded : small.estimatedBytes json + big.estimatedBytes json +
      big.estimatedBytes json > agentBudgetBytes) :
    let store := runCalls (afterCall (serve json sim)) new
      [.put small [], .put big []]
    held store.entries big.agentId big.key = some big ∧
      ¬ OverwritesOnly json store big [] := by
  intro store
  have system : systemBudgetBytes = 125829120 := rfl
  have agent : agentBudgetBytes = 6291456 := rfl
  have bytes := bytesOf_pair json small big
  obtain ⟨entries, accounted, total⟩ :=
    put_pair sim newShort sameAgent otherKeys fits
  rw [← sameAgent] at entries
  change store.totalBytes ≤ _ at total
  have found : held store.entries big.agentId big.key = some big := by
    apply (held_eq_some_iff accounted.indexed).mpr
    rw [entries]
    exact ⟨by simp, rfl⟩
  have word : store.totalBytes + big.estimatedBytes json < 2 ^ 64 := by
    omega
  have within : store.totalBytes + big.estimatedBytes json ≤
      systemBudgetBytes := by
    omega
  refine ⟨found, ?_⟩
  intro only
  have meets := (overwritesOnly_iff_of_accounted accounted word found
    (Nat.le_refl _) []).mp only
  rw [MeetsOnlyOld, if_pos within, entries] at meets
  rcases meets with room | alone
  · omega
  · have first : oldest [small, big] = [small] := by
      simp [oldest, List.insertionSort, older]
    rw [first] at alone
    exact otherKeys (congrArg MemoryEntry.key (List.singleton_inj.mp alone))

theorem overwrite_drops_neighbour :
    let calls : List (Call MemoryStore.Literal Bool) :=
      [.put (embedded "a" "k1" 0 1) [], .put (embedded "a" "k2" 800000 2) []]
    let store := runCalls (afterCall (serve MemoryStore.literalJson
      MemoryStore.literalSimilarity)) new calls
    held store.entries "a" "k2" = some (embedded "a" "k2" 800000 2) ∧
      ¬ OverwritesOnly MemoryStore.literalJson store
        (embedded "a" "k2" 800000 2) [] := by
  have size1 := @estimatedBytes_embedded "a" "k1" 3 (by decide +kernel) 0 1
  have size2 :=
    @estimatedBytes_embedded "a" "k2" 3 (by decide +kernel) 800000 2
  have budget : agentBudgetBytes = 6291456 := rfl
  exact @not_overwritesOnly_pair _ _ MemoryStore.literalJson
    MemoryStore.literalSimilarity (embedded "a" "k1" 0 1)
    (embedded "a" "k2" 800000 2) ⟨rfl, rfl⟩ rfl (by decide) (by decide) (by omega)
    (by omega)

end ShortTermStore

end Ughi.Memory
