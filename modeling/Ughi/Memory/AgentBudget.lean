import Ughi.Memory.SystemBudget

/-!
# When the agent budget is kept

Above its budget an agent loses its oldest quarter, counted in entries and not
in bytes, and then the new entry is placed.  That is enough exactly when what
the three younger quarters hold under other keys leaves room for it.
-/

namespace Ughi.Memory

open Ughi.Lib

namespace ShortTermStore

variable {Value Score : Type} (json : SerdeJson Value) (sim : Similarity Score)

/-- Every agent is within its budget. -/
def KeepsAgentBudgets (store : ShortTermStore Value) : Prop :=
  ∀ agentId, store.agentBytes json agentId ≤ agentBudgetBytes

/-- The entry fits in with all entries of its agent that a system-wide eviction
leaves, or else with those of the three younger quarters that have other
keys. -/
def FitsAgentBudget (store : ShortTermStore Value) :
    Call Value Score → Prop
  | .put entry order =>
      let entrySize := entry.estimatedBytes json
      let bucket := entriesOf
        (store.keepSystemBudget json entrySize order).entries entry.agentId
      bytesOf json bucket + entrySize ≤ agentBudgetBytes ∨
        bytesOf json ((dropOldest bucket).filter fun other =>
            other.key ≠ entry.key) + entrySize ≤ agentBudgetBytes
  | _ => True

section Buckets

variable {json} {bucket : List (MemoryEntry Value)}
  {entry : MemoryEntry Value}

theorem bytesOf_le_of_subperm {left right : List (MemoryEntry Value)}
    (smaller : left.Subperm right) :
    bytesOf json left ≤ bytesOf json right := by
  obtain ⟨middle, perm, sublist⟩ := smaller
  calc
    bytesOf json left = bytesOf json middle := bytesOf_of_perm json perm.symm
    _ ≤ bytesOf json right :=
      (sublist.map _).sum_le_sum (fun _ _ => Nat.zero_le _)

theorem limit_of_lt (short : bucket.length < 500) : limit bucket = bucket := by
  rw [limit]
  exact if_neg (Nat.not_le_of_lt short)

theorem subperm_limit (json : SerdeJson Value)
    (bucket : List (MemoryEntry Value)) :
    (limit bucket).Subperm bucket := by
  rw [← limit_eq_keepEntryLimit json new rfl]
  exact subperm_keepEntryLimit json new bucket

theorem length_dropOldest_lt (short : bucket.length ≤ 500) :
    (dropOldest bucket).length < 500 := by
  rw [dropOldest, List.length_drop, List.length_insertionSort]
  omega

theorem nodup_dropOldest (distinct : (bucket.map MemoryEntry.key).Nodup) :
    ((dropOldest bucket).map MemoryEntry.key).Nodup := by
  apply nodup_map_of_subperm distinct
  apply (List.drop_sublist _ _).subperm.trans
  exact (List.perm_insertionSort _ bucket).subperm

theorem putAlone_cases (json : SerdeJson Value)
    (bucket : List (MemoryEntry Value)) (entry : MemoryEntry Value) :
    let filed : MemoryEntry Value := { entry with tier := .shortTerm }
    let kept := trim json bucket (entry.estimatedBytes json)
    (∃ old, firstWith MemoryEntry.key entry.key kept = some old ∧
        putAlone json bucket entry =
          modifyFirst MemoryEntry.key filed.key (fun _ => filed) kept) ∨
      firstWith MemoryEntry.key entry.key kept = none ∧
        putAlone json bucket entry = limit kept ++ [filed] := by
  intro filed kept
  have sameKept : trim json bucket (filed.estimatedBytes json) = kept := rfl
  rw [putAlone, sameKept]
  cases existing : firstWith MemoryEntry.key entry.key kept with
  | some old => exact .inl ⟨old, rfl, rfl⟩
  | none => exact .inr ⟨rfl, rfl⟩

theorem bytesOf_append_filed (kept : List (MemoryEntry Value))
    (entry : MemoryEntry Value) :
    bytesOf json (kept ++ [{ entry with tier := .shortTerm }]) =
      bytesOf json kept + entry.estimatedBytes json := by
  rw [bytesOf_append, bytesOf_cons]
  rfl

theorem bytesOf_putAlone_of_le
    (fits : bytesOf json bucket + entry.estimatedBytes json ≤
      agentBudgetBytes) :
    bytesOf json (putAlone json bucket entry) ≤ agentBudgetBytes := by
  have untrimmed : trim json bucket (entry.estimatedBytes json) = bucket :=
    if_neg (Nat.not_lt_of_le fits)
  rcases putAlone_cases json bucket entry with
    ⟨old, existing, placed⟩ | ⟨_, placed⟩
  · rw [untrimmed] at existing placed
    obtain ⟨_, moved⟩ := @bytesOf_overwrite _ json
      { entry with tier := .shortTerm } old bucket existing
    have same : ({ entry with tier := .shortTerm } :
        MemoryEntry Value).estimatedBytes json = entry.estimatedBytes json :=
      rfl
    rw [placed]
    omega
  · rw [untrimmed] at placed
    have smaller := @bytesOf_le_of_subperm _ json _ _
      (subperm_limit json bucket)
    rw [placed, bytesOf_append_filed]
    omega

theorem putAlone_append
    (fits : bytesOf json bucket + entry.estimatedBytes json ≤
      agentBudgetBytes)
    (absent : ∀ other ∈ bucket, other.key ≠ entry.key)
    (short : bucket.length < 500) :
    putAlone json bucket entry =
      bucket ++ [{ entry with tier := .shortTerm }] := by
  have untrimmed : trim json bucket (entry.estimatedBytes json) = bucket :=
    if_neg (Nat.not_lt_of_le fits)
  have missing := firstWith_eq_none_iff.mpr absent
  rcases putAlone_cases json bucket entry with
    ⟨old, existing, _⟩ | ⟨_, placed⟩
  · rw [untrimmed, missing] at existing
    cases existing
  · rw [placed, untrimmed, limit_of_lt short]

/-- Beyond the budget, the younger entries with other keys stay, and the new
one. -/
theorem bytesOf_putAlone_of_gt
    (exceeded : bytesOf json bucket + entry.estimatedBytes json >
      agentBudgetBytes)
    (distinct : (bucket.map MemoryEntry.key).Nodup)
    (short : bucket.length ≤ 500) :
    bytesOf json (putAlone json bucket entry) =
      bytesOf json ((dropOldest bucket).filter fun other =>
        other.key ≠ entry.key) + entry.estimatedBytes json := by
  have trimmed : trim json bucket (entry.estimatedBytes json) =
      dropOldest bucket :=
    if_pos exceeded
  have younger := nodup_dropOldest distinct
  rcases putAlone_cases json bucket entry with
    ⟨old, existing, placed⟩ | ⟨absent, placed⟩
  · rw [trimmed] at existing placed
    obtain ⟨_, moved⟩ := @bytesOf_overwrite _ json
      { entry with tier := .shortTerm } old (dropOldest bucket) existing
    have parted := bytesOf_of_perm json (perm_cons_filter_ne younger existing)
    have same : ({ entry with tier := .shortTerm } :
        MemoryEntry Value).estimatedBytes json = entry.estimatedBytes json :=
      rfl
    rw [bytesOf_cons] at parted
    rw [placed]
    omega
  · rw [trimmed] at absent placed
    have others : (dropOldest bucket).filter (fun other =>
        other.key ≠ entry.key) = dropOldest bucket := by
      apply List.filter_eq_self.mpr
      intro other member
      exact decide_eq_true (firstWith_eq_none_iff.mp absent other member)
    rw [placed, limit_of_lt (length_dropOldest_lt short),
      bytesOf_append_filed, others]

theorem bytesOf_putAlone_le_iff
    (distinct : (bucket.map MemoryEntry.key).Nodup)
    (short : bucket.length ≤ 500) :
    bytesOf json (putAlone json bucket entry) ≤ agentBudgetBytes ↔
      bytesOf json bucket + entry.estimatedBytes json ≤ agentBudgetBytes ∨
        bytesOf json ((dropOldest bucket).filter fun other =>
            other.key ≠ entry.key) + entry.estimatedBytes json ≤
          agentBudgetBytes := by
  by_cases fits : bytesOf json bucket + entry.estimatedBytes json ≤
      agentBudgetBytes
  · constructor
    · intro _
      exact .inl fits
    · intro _
      exact bytesOf_putAlone_of_le fits
  · have exceeded := Nat.lt_of_not_le fits
    rw [bytesOf_putAlone_of_gt exceeded distinct short]
    constructor
    · intro room
      exact .inr room
    · intro room
      exact room.resolve_left fits

end Buckets

/-! ## Calls -/

section Calls

variable {json} {store : ShortTermStore Value}

theorem keepsAgentBudgets_of_thinned {before after : ShortTermStore Value}
    (thinned : Thinned before.entries after.entries)
    (kept : KeepsAgentBudgets json before) : KeepsAgentBudgets json after := by
  intro agentId
  have smaller := @bytesOf_le_of_subperm _ json _ _ (thinned agentId)
  exact smaller.trans (kept agentId)

theorem put_keepsAgentBudgets_iff (accounted : Accounted json store)
    (kept : KeepsAgentBudgets json store) (entry : MemoryEntry Value)
    (order : List String) :
    KeepsAgentBudgets json (store.put json entry order).2 ↔
      FitsAgentBudget json store
        (.put entry order : Call Value Score) := by
  have room := (keepSystemBudget_frees json accounted
    (entry.estimatedBytes json) order).accounted
  have served := entriesOf_put json store accounted.capacity entry order
  have own := served entry.agentId
  simp only [if_pos] at own
  have fits := @bytesOf_putAlone_le_iff Value json _ entry
    (room.indexed.distinct entry.agentId) (room.bounded entry.agentId)
  constructor
  · intro after
    have budget := after entry.agentId
    rw [agentBytes_eq_bytesOf, own] at budget
    exact fits.mp budget
  · intro fitting agentId
    rw [agentBytes_eq_bytesOf, served agentId]
    split
    · exact fits.mpr fitting
    · exact keepsAgentBudgets_of_thinned
        (thinned_keepSystemBudget json store _ order) kept agentId

theorem put_appends (accounted : Accounted json store)
    {entry : MemoryEntry Value} (newShort : entry.tier = .shortTerm)
    {bucket : List (MemoryEntry Value)}
    (filed : entriesOf store.entries entry.agentId = bucket)
    (within : store.totalBytes + entry.estimatedBytes json ≤ systemBudgetBytes)
    (fits : bytesOf json bucket + entry.estimatedBytes json ≤
      agentBudgetBytes)
    (absent : ∀ other ∈ bucket, other.key ≠ entry.key)
    (short : bucket.length < 500) (order : List String) :
    entriesOf (store.put json entry order).2.entries entry.agentId =
        bucket ++ [entry] ∧
      Accounted json (store.put json entry order).2 ∧
      (store.put json entry order).2.totalBytes ≤
        store.totalBytes + entry.estimatedBytes json := by
  have served := entriesOf_put_of_le json store accounted.capacity within order
    entry.agentId
  have same : ({ entry with tier := .shortTerm } : MemoryEntry Value) =
      entry := by
    rw [← newShort]
  rw [if_pos rfl, filed, putAlone_append fits absent short, same] at served
  have word : store.totalBytes + entry.estimatedBytes json < 2 ^ 64 :=
    Nat.lt_of_le_of_lt within (by decide)
  have balanced := @put_balanced Value Bool json
    MemoryStore.literalSimilarity store accounted entry order word
  exact ⟨served, balanced.accounted, balanced.growth⟩

theorem keepsAgentBudgets_of_sameBytes {after : ShortTermStore Value}
    {agentId : String} {new : List (MemoryEntry Value)}
    (entries : ∀ other, entriesOf after.entries other =
      if other = agentId then new else entriesOf store.entries other)
    (same : bytesOf json new = bytesOf json (entriesOf store.entries agentId))
    (kept : KeepsAgentBudgets json store) : KeepsAgentBudgets json after := by
  intro other
  rw [agentBytes_eq_bytesOf, entries]
  split
  · rw [same]
    exact kept agentId
  · exact kept other

theorem serve_keepsAgentBudgets_iff (accounted : Accounted json store)
    (kept : KeepsAgentBudgets json store) (call : Call Value Score) :
    KeepsAgentBudgets json (afterCall (serve json sim) store call) ↔
      FitsAgentBudget json store call := by
  cases call with
  | put entry order =>
      exact put_keepsAgentBudgets_iff accounted kept entry order
  | get agentId key now =>
      have entries := (get_eq_getAlone store agentId key now).2
      have same := bytesOf_getAlone json (entriesOf store.entries agentId)
        key now
      have after := keepsAgentBudgets_of_sameBytes entries same kept
      exact iff_of_true after trivial
  | search query clock =>
      have entries := (search_eq_searchAlone sim store query clock).2
      have same := bytesOf_visit json sim query clock
        (entriesOf store.entries query.agentId)
      have after := keepsAgentBudgets_of_sameBytes entries same kept
      exact iff_of_true after trivial
  | deleteNamespace agentId =>
      have thinned := thinned_deleteNamespace json store agentId
      exact iff_of_true (keepsAgentBudgets_of_thinned thinned kept) trivial
  | getPromotable agentId minAccessCount => exact iff_of_true kept trivial

end Calls

/-- While every entry written is within the agent budget, every agent is after
every call, exactly when each write fits its entry in. -/
theorem agentBytes_le_agentBudget_iff {calls : List (Call Value Score)}
    (small : ∀ entry order, Call.put entry order ∈ calls →
      entry.estimatedBytes json ≤ agentBudgetBytes) :
    Throughout (afterCall (serve json sim)) (KeepsAgentBudgets json) new
        calls ↔
      EachCall (afterCall (serve json sim)) (FitsAgentBudget json) new
        calls := by
  have inDomain : ∀ call ∈ calls, call.bytes json ≤ systemBudgetBytes := by
    intro call member
    cases call with
    | put entry order =>
        exact (small entry order member).trans (by decide)
    | _ => exact Nat.zero_le _
  have empty : KeepsAgentBudgets json (new : ShortTermStore Value) := by
    intro agentId
    exact Nat.zero_le _
  exact throughout_iff_eachCall
    (fun _ _ small bounded => bounded.serve sim ample_systemBudget small)
    (fun _ call _ bounded kept =>
      serve_keepsAgentBudgets_iff sim bounded.accounted kept call)
    inDomain (bounded_new : Bounded json systemBudgetBytes new) empty

/-- The third entry of agent `a` pushes out its oldest; agent `b` is left
alone. -/
theorem agentBytes_le_agentBudget_iff_evicting :
    let sim := MemoryStore.literalSimilarity
    let calls : List (Call MemoryStore.Literal Bool) :=
      [.put (embedded "a" "k1" 800000 1) [],
        .put (embedded "b" "k1" 1450000 2) [],
        .put (embedded "a" "k2" 100000 3) [], .get "b" "k1" 4,
        .put (embedded "a" "k3" 900000 5) []]
    (∀ entry order, Call.put entry order ∈ calls →
        entry.estimatedBytes MemoryStore.literalJson ≤ agentBudgetBytes) ∧
      (Throughout (afterCall (serve MemoryStore.literalJson sim))
          (KeepsAgentBudgets MemoryStore.literalJson) new calls ↔
        EachCall (afterCall (serve MemoryStore.literalJson sim))
          (FitsAgentBudget MemoryStore.literalJson) new calls) := by
  intro sim calls
  have budget : agentBudgetBytes = 6291456 := rfl
  have each : ∀ call ∈ calls,
      call.bytes MemoryStore.literalJson ≤ agentBudgetBytes := by
    have sizeA1 :=
      @estimatedBytes_embedded "a" "k1" 3 (by decide +kernel) 800000 1
    have sizeB1 :=
      @estimatedBytes_embedded "b" "k1" 3 (by decide +kernel) 1450000 2
    have sizeA2 :=
      @estimatedBytes_embedded "a" "k2" 3 (by decide +kernel) 100000 3
    have sizeA3 :=
      @estimatedBytes_embedded "a" "k3" 3 (by decide +kernel) 900000 5
    simp only [calls, List.forall_mem_cons, Call.bytes, sizeA1, sizeB1,
      sizeA2, sizeA3, budget]
    simp
  have small : ∀ entry order, Call.put entry order ∈ calls →
      entry.estimatedBytes MemoryStore.literalJson ≤ agentBudgetBytes :=
    fun _ _ member => each _ member
  exact ⟨small,
    agentBytes_le_agentBudget_iff MemoryStore.literalJson sim small⟩

section Overfull

variable {json} {small big last : MemoryEntry Value}

/-- Of two entries the oldest quarter is the older one, however small. -/
theorem dropOldest_pair (older : small.lastAccessed ≤ big.lastAccessed) :
    dropOldest [small, big] = [big] := by
  simp [dropOldest, List.insertionSort, older]

theorem put_pair (newShort : small.tier = .shortTerm ∧ big.tier = .shortTerm)
    (sameAgent : big.agentId = small.agentId)
    (otherKeys : small.key ≠ big.key)
    (fits : small.estimatedBytes json + big.estimatedBytes json ≤
      agentBudgetBytes) :
    let store := runCalls (afterCall (serve json sim)) new
      [.put small [], .put big []]
    entriesOf store.entries small.agentId = [small, big] ∧
      Accounted json store ∧
      store.totalBytes ≤
        small.estimatedBytes json + big.estimatedBytes json := by
  have system : systemBudgetBytes = 125829120 := rfl
  have agent : agentBudgetBytes = 6291456 := rfl
  have total : (new : ShortTermStore Value).totalBytes = 0 := rfl
  have nothing : bytesOf json ([] : List (MemoryEntry Value)) = 0 := rfl
  have bytes := bytesOf_singleton json small
  let store1 := ((new : ShortTermStore Value).put json small []).2
  let store2 := (store1.put json big []).2
  obtain ⟨entries1, accounted1, total1⟩ := @put_appends _ json new
    (new_accounted json) small newShort.1 [] rfl (by omega) (by omega)
    (by simp) (by simp) []
  rw [List.nil_append, ← sameAgent] at entries1
  change store1.totalBytes ≤ _ at total1
  obtain ⟨entries2, accounted2, total2⟩ := @put_appends _ json store1
    accounted1 big newShort.2 [small] entries1 (by omega) (by omega)
    (by simpa using otherKeys) (by simp) []
  change store2.totalBytes ≤ _ at total2
  rw [sameAgent] at entries2
  have within : store2.totalBytes ≤
      small.estimatedBytes json + big.estimatedBytes json := by
    omega
  exact ⟨entries2, accounted2, within⟩

theorem agentBytes_third
    (newShort : small.tier = .shortTerm ∧ big.tier = .shortTerm)
    (sameAgent : big.agentId = small.agentId ∧ last.agentId = small.agentId)
    (otherKeys : small.key ≠ big.key ∧ big.key ≠ last.key)
    (older : small.lastAccessed ≤ big.lastAccessed)
    (fits : small.estimatedBytes json + big.estimatedBytes json ≤
      agentBudgetBytes)
    (bounded : last.estimatedBytes json ≤ agentBudgetBytes)
    (exceeded : small.estimatedBytes json + big.estimatedBytes json +
      last.estimatedBytes json > agentBudgetBytes) :
    (runCalls (afterCall (serve json sim)) new
        [.put small [], .put big [], .put last []]).agentBytes json
        small.agentId =
      big.estimatedBytes json + last.estimatedBytes json := by
  have system : systemBudgetBytes = 125829120 := rfl
  have agent : agentBudgetBytes = 6291456 := rfl
  have bytes := bytesOf_pair json small big
  have bytesBig := bytesOf_singleton json big
  obtain ⟨entries, accounted, total⟩ := @put_pair Value Score json sim small
    big newShort sameAgent.1 otherKeys.1 fits
  have served := @entriesOf_put_of_le Value json _ last accounted.capacity
    (by omega) [] last.agentId
  rw [if_pos rfl, sameAgent.2, entries] at served
  have younger : (dropOldest [small, big]).filter (fun other =>
      other.key ≠ last.key) = [big] := by
    rw [dropOldest_pair older]
    simpa using otherKeys.2
  have third := @bytesOf_putAlone_of_gt _ json [small, big] last (by omega)
    (by simpa using otherKeys.1) (by simp)
  rw [younger] at third
  have placed : (runCalls (afterCall (serve json sim)) new
      [.put small [], .put big [], .put last []]).agentBytes json
        small.agentId = bytesOf json (putAlone json [small, big] last) :=
    congrArg (bytesOf json) served
  rw [placed, third]
  omega

end Overfull

/-- The oldest quarter of two entries is the smaller one, and what stays does
not leave room for a third. -/
theorem agent_budget_exceeded :
    let sim := MemoryStore.literalSimilarity
    let calls : List (Call MemoryStore.Literal Bool) :=
      [.put (embedded "a" "k1" 0 1) [], .put (embedded "a" "k2" 1450000 2) [],
        .put (embedded "a" "k3" 750000 3) []]
    (∀ entry order, Call.put entry order ∈ calls →
        entry.estimatedBytes MemoryStore.literalJson ≤ agentBudgetBytes) ∧
      (runCalls (afterCall (serve MemoryStore.literalJson sim)) new
          calls).agentBytes MemoryStore.literalJson "a" = 8800142 ∧
      ¬ Throughout (afterCall (serve MemoryStore.literalJson sim))
        (KeepsAgentBudgets MemoryStore.literalJson) new calls := by
  intro sim calls
  have size1 := @estimatedBytes_embedded "a" "k1" 3 (by decide +kernel) 0 1
  have size2 :=
    @estimatedBytes_embedded "a" "k2" 3 (by decide +kernel) 1450000 2
  have size3 :=
    @estimatedBytes_embedded "a" "k3" 3 (by decide +kernel) 750000 3
  have budget : agentBudgetBytes = 6291456 := rfl
  have overfull : (runCalls (afterCall (serve MemoryStore.literalJson sim)) new
      calls).agentBytes MemoryStore.literalJson "a" = 8800142 := by
    have third := @agentBytes_third _ _ MemoryStore.literalJson sim
      (embedded "a" "k1" 0 1) (embedded "a" "k2" 1450000 2)
      (embedded "a" "k3" 750000 3)
      ⟨rfl, rfl⟩ ⟨rfl, rfl⟩ (by decide) (by decide) (by omega) (by omega)
      (by omega)
    rw [size2, size3] at third
    exact third
  refine ⟨?_, overfull, ?_⟩
  · intro entry order member
    have listed : entry = embedded "a" "k1" 0 1 ∨
        entry = embedded "a" "k2" 1450000 2 ∨
          entry = embedded "a" "k3" 750000 3 := by
      simp only [calls, List.mem_cons, Call.put.injEq, List.not_mem_nil,
        or_false] at member
      exact member.imp And.left (Or.imp And.left And.left)
    rcases listed with rfl | rfl | rfl
    · omega
    · omega
    · omega
  · intro kept
    have budget := kept.last "a"
    rw [overfull] at budget
    exact absurd budget (by decide)

end ShortTermStore

end Ughi.Memory
