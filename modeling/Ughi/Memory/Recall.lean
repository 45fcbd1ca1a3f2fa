import Ughi.Lib.TopMerge
import Ughi.Memory.LongTermSearch

/-!
# What recall returns

Recall merges the results of both tiers.  Promotion leaves a copy of an entry
in the long-term tier, which goes stale once the short-term one changes, and
each tier reads only so many entries.  `RecallsBest` is what a caller expects:
the most similar of the current memories.
-/

namespace Ughi.Memory

open Ughi.Lib

namespace MemoryStore

variable {Value Score : Type} (json : SerdeJson Value)
  {sim : Similarity Score} (store : MemoryStore Value)
  (query : MemoryQuery Score)

/-- The query of a recall. -/
def recallQuery (sim : Similarity Score) (agentId queryText : String) :
    MemoryQuery Score :=
  ((MemoryQuery.byAgent sim agentId).withEmbedding
    (sim.simpleTextEmbedding queryText 128)).withLimit 10

/-- The entry a read of the key answers with. -/
def currentEntry (agentId key : String) : Option (MemoryEntry Value) :=
  match held store.short.entries agentId key with
  | some entry => some entry
  | none => store.long.stored json agentId key

/-- The short-term tier has no entry of the key. -/
def onlyLong (memory : Recalled Value Score) : Bool :=
  (held store.short.entries memory.agentId memory.key).isNone

def shortMatches (sim : Similarity Score) : List (Recalled Value Score) :=
  (entriesOf store.short.entries query.agentId).filterMap
    (recallEntry sim query)

def longMatches (sim : Similarity Score) (query : MemoryQuery Score)
    (rows : List EntryRow) : List (Recalled Value Score) :=
  (rows.filterMap (LongTermStore.rowToEntry json)).filterMap
    (recallEntry sim query)

/-- The current memories of the agent that match the query. -/
def currentMatches (sim : Similarity Score) : List (Recalled Value Score) :=
  store.shortMatches query sim ++
    (longMatches json sim query (store.long.agentRows query)).filter
      store.onlyLong

/-- The results are memories of distinct keys with their current values, and
the most similar ones that match. -/
structure RecallsBest (sim : Similarity Score)
    (results : List (Recalled Value Score)) : Prop where
  distinct : (results.map Recalled.address).Nodup
  current : ∀ memory ∈ results,
    store.currentValue json memory.agentId memory.key = some memory.value
  best : IsTop (NoLess sim Recalled.similarity) query.limit
    (store.currentMatches json query sim) results

/-- Each copy of a short-term entry that the long-term search reads and
matches is outranked by as many current matches as the recall returns. -/
def CopiesOutranked (sim : Similarity Score) (orderBy : OrderByRecency) :
    Prop :=
  Outranked (NoLess sim Recalled.similarity) store.onlyLong query.limit
    (store.shortMatches query sim)
    (longMatches json sim query (store.long.selectRecent orderBy query))

/-- For each current match that the long-term search does not read, the recall
meets as many current matches, at least as similar, as it returns. -/
def ReadsEnough (sim : Similarity Score) (orderBy : OrderByRecency) : Prop :=
  ∀ missed ∈ (longMatches json sim query
      (store.long.olderRows orderBy query)).filter store.onlyLong,
    query.limit ≤
      (store.shortMatches query sim ++
        (longMatches json sim query
          (store.long.selectRecent orderBy query)).filter
          store.onlyLong).countP
        fun found => NoLess sim Recalled.similarity found missed

/-! ## The current matches -/

section Matches

variable {query} {store}

theorem recallEntry_eq_some {entry : MemoryEntry Value}
    {memory : Recalled Value Score}
    (found : recallEntry sim query entry = some memory) :
    memory.agentId = entry.agentId ∧ memory.key = entry.key ∧
      memory.value = entry.value := by
  obtain ⟨similarity, _, rfl⟩ := Option.map_eq_some_iff.mp found
  exact ⟨rfl, rfl, rfl⟩

theorem recallEntry_address {entry : MemoryEntry Value}
    {memory : Recalled Value Score}
    (found : recallEntry sim query entry = some memory) :
    memory.address = (entry.agentId, entry.key) := by
  obtain ⟨sameAgent, sameKey, _⟩ := recallEntry_eq_some found
  exact Prod.ext sameAgent sameKey

theorem rowToEntry_address {row : EntryRow} {entry : MemoryEntry Value}
    (decoded : LongTermStore.rowToEntry json row = some entry) :
    (entry.agentId, entry.key) = row.address := by
  rw [LongTermStore.rowToEntry] at decoded
  split at decoded
  · cases decoded
    rfl
  · cases decoded

theorem currentValue_eq_map (agentId key : String) :
    store.currentValue json agentId key =
      (store.currentEntry json agentId key).map MemoryEntry.value := by
  rw [currentValue, currentEntry]
  cases held store.short.entries agentId key with
  | some entry => rfl
  | none => rfl

theorem mem_shortMatches_iff (indexed : Indexed store.short.entries)
    {memory : Recalled Value Score} :
    memory ∈ store.shortMatches query sim ↔
      ∃ entry,
        held store.short.entries query.agentId memory.key = some entry ∧
          recallEntry sim query entry = some memory := by
  have distinct := indexed.distinct query.agentId
  rw [shortMatches, List.mem_filterMap]
  constructor
  · rintro ⟨entry, member, found⟩
    refine ⟨entry, (firstWith_eq_some_iff distinct).mpr ⟨member, ?_⟩, found⟩
    exact (recallEntry_eq_some found).2.1.symm
  · rintro ⟨entry, present, found⟩
    exact ⟨entry, mem_of_firstWith present, found⟩

theorem agentId_of_stored {agentId key : String}
    {entry : MemoryEntry Value}
    (stored : store.long.stored json agentId key = some entry) :
    entry.agentId = agentId := by
  obtain ⟨row, selected, decoded⟩ := Option.bind_eq_some_iff.mp stored
  have address := rowToEntry_address json decoded
  rw [Table.key_of_select selected] at address
  exact congrArg Prod.fst address

variable (plain : query.keyPrefix = none)

include plain

theorem mem_agentRows_iff {row : EntryRow} :
    row ∈ store.long.agentRows query ↔
      row ∈ store.long.memoryEntries.rows ∧ row.agentId = query.agentId := by
  rw [LongTermStore.agentRows, List.mem_filter, plain]
  simp

theorem mem_longMatches_agentRows_iff {memory : Recalled Value Score} :
    memory ∈ longMatches json sim query (store.long.agentRows query) ↔
      ∃ entry,
        store.long.stored json query.agentId memory.key = some entry ∧
          recallEntry sim query entry = some memory := by
  have unique := store.long.memoryEntries.unique
  constructor
  · intro member
    obtain ⟨entry, decodedMember, found⟩ := List.mem_filterMap.mp member
    obtain ⟨row, rowMember, decoded⟩ := List.mem_filterMap.mp decodedMember
    obtain ⟨inside, own⟩ := (mem_agentRows_iff plain).mp rowMember
    refine ⟨entry, ?_, found⟩
    have address := rowToEntry_address json decoded
    have sameKey : row.key = memory.key := by
      rw [(recallEntry_eq_some found).2.1]
      exact (congrArg Prod.snd address).symm
    have selected : store.long.memoryEntries.select
        (query.agentId, memory.key) = some row := by
      apply (firstWith_eq_some_iff unique).mpr
      exact ⟨inside, Prod.ext own sameKey⟩
    rw [LongTermStore.stored, selected]
    exact decoded
  · rintro ⟨entry, stored, found⟩
    obtain ⟨row, selected, decoded⟩ := Option.bind_eq_some_iff.mp stored
    obtain ⟨inside, address⟩ := (firstWith_eq_some_iff unique).mp selected
    apply List.mem_filterMap.mpr
    refine ⟨entry, List.mem_filterMap.mpr ⟨row, ?_, decoded⟩, found⟩
    exact (mem_agentRows_iff plain).mpr ⟨inside, congrArg Prod.fst address⟩

theorem mem_currentMatches_iff (indexed : Indexed store.short.entries)
    {memory : Recalled Value Score} :
    memory ∈ store.currentMatches json query sim ↔
      ∃ entry,
        store.currentEntry json query.agentId memory.key = some entry ∧
          recallEntry sim query entry = some memory := by
  rw [currentMatches, List.mem_append, List.mem_filter,
    mem_shortMatches_iff indexed, mem_longMatches_agentRows_iff json plain,
    currentEntry]
  cases present : held store.short.entries query.agentId memory.key with
  | some entry =>
      constructor
      · rintro (fromShort | ⟨⟨other, stored, found⟩, missing⟩)
        · exact fromShort
        · have own := agentId_of_stored json stored
          rw [onlyLong, (recallEntry_eq_some found).1, own, present] at missing
          cases missing
      · exact .inl
  | none =>
      constructor
      · rintro (⟨entry, impossible, _⟩ | ⟨fromLong, _⟩)
        · cases impossible
        · exact fromLong
      · rintro ⟨entry, stored, found⟩
        refine .inr ⟨⟨entry, stored, found⟩, ?_⟩
        have own := agentId_of_stored json stored
        rw [onlyLong, (recallEntry_eq_some found).1, own, present]
        rfl

theorem current_of_mem (indexed : Indexed store.short.entries)
    {memory : Recalled Value Score}
    (member : memory ∈ store.currentMatches json query sim) :
    store.currentValue json memory.agentId memory.key = some memory.value := by
  obtain ⟨entry, current, found⟩ :=
    (mem_currentMatches_iff json plain indexed).mp member
  obtain ⟨sameAgent, _, sameValue⟩ := recallEntry_eq_some found
  have own : memory.agentId = query.agentId := by
    rw [sameAgent]
    rw [currentEntry] at current
    split at current
    next other present =>
      cases current
      exact indexed.filed _ _ (mem_of_firstWith present)
    · exact agentId_of_stored json current
  rw [own, currentValue_eq_map, current, sameValue]
  rfl

end Matches

/-! ## Their keys -/

section Keys

variable {query} {store}

theorem nodup_shortMatches (indexed : Indexed store.short.entries) :
    ((store.shortMatches query sim).map Recalled.address).Nodup := by
  have distinct : ((entriesOf store.short.entries query.agentId).map
      fun entry => (entry.agentId, entry.key)).Nodup := by
    apply List.Nodup.of_map Prod.snd
    rw [List.map_map]
    exact indexed.distinct query.agentId
  exact nodup_map_filterMap (fun _ _ => recallEntry_address) distinct

theorem nodup_longMatches (rows : List EntryRow)
    (distinct : (rows.map EntryRow.address).Nodup) :
    ((longMatches json sim query rows).map Recalled.address).Nodup := by
  have decodedDistinct : ((rows.filterMap
      (LongTermStore.rowToEntry json)).map
        fun entry => (entry.agentId, entry.key)).Nodup :=
    nodup_map_filterMap (fun _ _ => rowToEntry_address json) distinct
  exact nodup_map_filterMap (fun _ _ => recallEntry_address) decodedDistinct

theorem onlyLong_of_mem_shortMatches (indexed : Indexed store.short.entries)
    {memory : Recalled Value Score}
    (member : memory ∈ store.shortMatches query sim) :
    store.onlyLong memory = false := by
  obtain ⟨entry, present, found⟩ := (mem_shortMatches_iff indexed).mp member
  have inside := indexed.filed _ _ (mem_of_firstWith present)
  rw [onlyLong, (recallEntry_eq_some found).1, inside, present]
  rfl

theorem nodup_currentMatches (indexed : Indexed store.short.entries) :
    ((store.currentMatches json query sim).map Recalled.address).Nodup := by
  have rowsDistinct :
      ((store.long.agentRows query).map EntryRow.address).Nodup :=
    store.long.memoryEntries.unique.sublist
      (List.filter_sublist.map EntryRow.address)
  have longDistinct :=
    @nodup_longMatches _ _ json sim query _ rowsDistinct
  rw [currentMatches, List.map_append]
  apply (nodup_shortMatches indexed).append
  · exact longDistinct.sublist (List.filter_sublist.map Recalled.address)
  · intro address shortAddress longAddress
    obtain ⟨memory, fromShort, rfl⟩ := List.mem_map.mp shortAddress
    obtain ⟨other, fromLong, same⟩ := List.mem_map.mp longAddress
    have otherOnly := List.of_mem_filter fromLong
    have memoryOnly := onlyLong_of_mem_shortMatches indexed fromShort
    obtain ⟨sameAgent, sameKey⟩ := Prod.mk.inj same
    rw [onlyLong, sameAgent, sameKey, ← onlyLong, memoryOnly] at otherOnly
    cases otherOnly

end Keys

/-! ## Recall -/

section Results

variable (orderBy : OrderByRecency) {query} {store}

theorem recalled_matchRows (ordered : TotalPreorder sim)
    (plain : query.keyPrefix = none) (rows : List EntryRow) :
    (LongTermStore.matchRows json sim query rows).map SearchResult.recalled =
      longMatches json sim query rows := by
  have all : ∀ entry : MemoryEntry Value,
      LongTermStore.passesPrefix query entry = true := by
    intro entry
    rw [LongTermStore.passesPrefix, plain]
  rw [longMatches, LongTermStore.filterMap_recallEntry ordered,
    List.filter_eq_self.mpr fun entry _ => all entry]
  rfl

/-- The current matches, by where a recall meets them. -/
theorem currentMatches_split :
    (store.shortMatches query sim ++
        (longMatches json sim query
          (store.long.selectRecent orderBy query)).filter store.onlyLong ++
        (longMatches json sim query
          (store.long.olderRows orderBy query)).filter store.onlyLong).Perm
      (store.currentMatches json query sim) := by
  have joined :
      longMatches json sim query (store.long.selectRecent orderBy query) ++
          longMatches json sim query (store.long.olderRows orderBy query) =
        longMatches json sim query
          (store.long.selectRecent orderBy query ++
            store.long.olderRows orderBy query) := by
    simp only [longMatches, List.filterMap_append]
  rw [List.append_assoc, ← List.filter_append, joined, currentMatches]
  apply List.Perm.append_left
  apply List.Perm.filter
  have whole := LongTermStore.perm_agentRows orderBy store.long query
  exact (whole.filterMap _).filterMap _

theorem length_longMatches_le :
    (longMatches json sim query
      (store.long.selectRecent orderBy query)).length ≤ query.limit := by
  apply (List.length_filterMap_le _ _).trans
  apply (List.length_filterMap_le _ _).trans
  exact List.length_take_le _ _

variable (store)

/-- A recall sorts the best short-term matches and the matches among the rows
the long-term search reads. -/
theorem recall_eq (ordered : TotalPreorder sim)
    (agentId queryText : String) (clock : Nat → Nat) :
    ∃ results,
      (store.recall json sim orderBy agentId queryText clock).1 =
          .ok results ∧
        results.map SearchResult.recalled =
          (((store.short.search sim (recallQuery sim agentId queryText)
                clock).1.map SearchResult.recalled ++
              longMatches json sim (recallQuery sim agentId queryText)
                (store.long.selectRecent orderBy
                  (recallQuery sim agentId queryText))).insertionSort
            (NoLess sim Recalled.similarity)).take
          (recallQuery sim agentId queryText).limit := by
  have total := ordered.total (@Recalled.similarity Value Score)
  have transitive := ordered.isTrans (@Recalled.similarity Value Score)
  have asked : (recallQuery sim agentId queryText).embedding =
      some (sim.simpleTextEmbedding queryText 128) :=
    rfl
  have longResults := LongTermStore.map_search json orderBy store.long
    ordered asked SearchResult.recalled Recalled.similarity fun _ => rfl
  rw [recalled_matchRows json ordered rfl, List.take_of_length_le]
    at longResults
  · refine ⟨_, rfl, ?_⟩
    rw [List.map_take, map_insertionSort_results ordered Recalled.similarity
      SearchResult.recalled fun _ => rfl, List.map_append]
    change ((_ ++ (store.long.search json sim orderBy
      (recallQuery sim agentId queryText)).map _).insertionSort _).take _ = _
    rw [longResults, insertionSort_append_insertionSort]
    rfl
  · rw [List.length_insertionSort]
    exact length_longMatches_le json orderBy

theorem recallsBest_iff (ordered : TotalPreorder sim)
    (indexed : Indexed store.short.entries) (agentId queryText : String)
    (clock : Nat → Nat) :
    ∃ results,
      (store.recall json sim orderBy agentId queryText clock).1 =
          .ok results ∧
        (store.RecallsBest json (recallQuery sim agentId queryText) sim
            (results.map SearchResult.recalled) ↔
          store.CopiesOutranked json (recallQuery sim agentId queryText) sim
              orderBy ∧
            store.ReadsEnough json (recallQuery sim agentId queryText) sim
              orderBy) := by
  have total := ordered.total (@Recalled.similarity Value Score)
  have transitive := ordered.isTrans (@Recalled.similarity Value Score)
  obtain ⟨results, answered, same⟩ :=
    store.recall_eq json orderBy ordered agentId queryText clock
  refine ⟨results, answered, ?_⟩
  have split := @currentMatches_split _ _ json sim store
    (recallQuery sim agentId queryText) orderBy
  have addresses := @nodup_currentMatches _ _ json sim store
    (recallQuery sim agentId queryText) indexed
  have shortTop := store.short.search_isTop ordered
    (recallQuery sim agentId queryText) clock
  have merged := isTop_merge_iff shortTop
    (split.nodup_iff.mpr addresses.of_map)
    fun _ member => List.of_mem_filter member
  rw [← same] at merged
  constructor
  · intro recalls
    exact merged.mp (recalls.best.perm split.symm)
  · intro condition
    have top := (merged.mpr condition).perm split
    refine ⟨nodup_map_of_subperm addresses top.subperm, ?_, top⟩
    intro memory member
    exact current_of_mem json rfl indexed (top.subperm.subset member)

theorem serve_indexed (sim : Similarity Score) (call : Call Value)
    (indexed : Indexed store.short.entries) :
    Indexed (store.serve json sim orderBy call).short.entries :=
  @serveTracked_indexed Value Score json sim orderBy
    { store := store, written := fun _ _ => none } indexed call

end Results

/-- After any calls, a recall returns the best of the agent's current memories
exactly when the copies it meets are outranked and it reads enough. -/
theorem recall_best_iff (ordered : TotalPreorder sim)
    (orderBy : OrderByRecency) (calls : List (Call Value))
    (agentId queryText : String) (clock : Nat → Nat) :
    let store := runCalls (serve json sim orderBy) .inMemory calls
    let query := recallQuery sim agentId queryText
    ∃ results,
      (store.recall json sim orderBy agentId queryText clock).1 =
          .ok results ∧
        (store.RecallsBest json query sim
            (results.map SearchResult.recalled) ↔
          store.CopiesOutranked json query sim orderBy ∧
            store.ReadsEnough json query sim orderBy) := by
  intro store query
  have indexed : Indexed store.short.entries :=
    @invariant_of_calls _ _ (serve json sim orderBy)
      (fun before => Indexed before.short.entries)
      (fun before call kept =>
        before.serve_indexed json orderBy sim call kept)
      .inMemory ShortTermStore.indexed_new calls
  exact store.recallsBest_iff json orderBy ordered indexed agentId queryText
    clock

open LongTermStore (axisSimilarity axisSimilarity_ordered)

/-- A memory in each tier. -/
def twoMemories : List (Call Literal) :=
  [.put "agent" "plan" (.bool true) 1 [],
    .persist "agent" "goal" (.bool false) 2]

theorem recall_best_two :
    let store := runCalls (serve literalJson axisSimilarity stableOrder)
      .inMemory twoMemories
    ∃ results,
      (store.recall literalJson axisSimilarity stableOrder "agent" "plan"
          fun turn => turn).1 = .ok results ∧
        store.RecallsBest literalJson
          (recallQuery axisSimilarity "agent" "plan") axisSimilarity
          (results.map SearchResult.recalled) := by
  intro store
  obtain ⟨results, answered, best⟩ :=
    recall_best_iff literalJson axisSimilarity_ordered stableOrder
      twoMemories "agent" "plan" fun turn => turn
  refine ⟨results, answered, best.mpr ⟨?_, ?_⟩⟩
  · have onlyFresh : (longMatches literalJson axisSimilarity
        (recallQuery axisSimilarity "agent" "plan")
        (store.long.selectRecent stableOrder
          (recallQuery axisSimilarity "agent" "plan"))).all
          store.onlyLong = true := by
      decide +kernel
    intro before copy after split stale
    have fresh := List.all_eq_true.mp onlyFresh copy
      (split ▸ List.mem_append_right before List.mem_cons_self)
    rw [fresh] at stale
    cases stale
  · have allRead : store.long.olderRows stableOrder
        (recallQuery axisSimilarity "agent" "plan") = [] := by
      decide +kernel
    intro missed member
    rw [allRead] at member
    cases member

/-- A memory that is read three times and then promoted. -/
def promotedMemory : List (Call Literal) :=
  [.put "agent" "plan" (.bool true) 1 [], .get "agent" "plan" 2,
    .get "agent" "plan" 3, .get "agent" "plan" 4, .promote "agent"]

/-- A promoted memory is recalled twice. -/
theorem promoted_memory_recalled_twice :
    ¬ ∀ (sim : Similarity Nat), TotalPreorder sim →
      ∀ (orderBy : OrderByRecency) (calls : List (Call Literal))
        (agentId queryText : String) (clock : Nat → Nat)
        (results : List (SearchResult Literal Nat)),
        let store := runCalls (serve literalJson sim orderBy) .inMemory calls
        (store.recall literalJson sim orderBy agentId queryText clock).1 =
            .ok results →
          store.RecallsBest literalJson (recallQuery sim agentId queryText)
            sim (results.map SearchResult.recalled) := by
  intro claimed
  have recalls := claimed axisSimilarity axisSimilarity_ordered stableOrder
    promotedMemory "agent" "plan" (fun turn => turn) _ rfl
  have distinct := recalls.distinct
  exact absurd distinct (by decide +kernel)

end MemoryStore

end Ughi.Memory
