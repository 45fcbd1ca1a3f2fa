import Ughi.Memory.LongTerm
import Ughi.Memory.Ranking
import Ughi.Memory.ReadYourWrites

/-!
# Which entries a long-term search can find

The limit of a long-term search also limits the rows it reads, and these are
the most recently accessed ones.  They are scored, filtered and sorted
afterwards, so an older entry is found only when it is not needed to fill a
place of a better one.
-/

namespace Ughi.Memory

open Ughi.Lib

namespace LongTermStore

variable {Value Score : Type}

/-- The agent's rows whose keys pass the prefix filter. -/
def agentRows (store : LongTermStore) (query : MemoryQuery Score) :
    List EntryRow :=
  store.memoryEntries.rows.filter fun row =>
    row.agentId = query.agentId &&
      match query.keyPrefix with
      | none => true
      | some text => sqlLike (text.toList ++ ['%']) row.key.toList

/-- The agent's rows that a search does not read. -/
def olderRows (orderBy : OrderByRecency) (store : LongTermStore)
    (query : MemoryQuery Score) : List EntryRow :=
  (orderBy.sort (store.agentRows query)).drop query.limit

def scoreEntry (sim : Similarity Score) (query : MemoryQuery Score)
    (entry : MemoryEntry Value) : SearchResult Value Score :=
  { entry := entry
    similarity :=
      match query.embedding, entry.embedding with
      | some queryEmbedding, some entryEmbedding =>
          some (sim.cosineSimilarity queryEmbedding entryEmbedding)
      | _, _ => none }

def passes (sim : Similarity Score) (query : MemoryQuery Score)
    (result : SearchResult Value Score) : Bool :=
  match result.similarity with
  | some score => sim.atLeast score query.minSimilarity
  | none => true

/-- The entries that are similar enough, with their scores. -/
def matchEntries (sim : Similarity Score) (query : MemoryQuery Score)
    (entries : List (MemoryEntry Value)) : List (SearchResult Value Score) :=
  (entries.map (scoreEntry sim query)).filter (passes sim query)

/-- The entries among the rows that pass the filters, with their scores. -/
def matchRows (json : SerdeJson Value) (sim : Similarity Score)
    (query : MemoryQuery Score) (rows : List EntryRow) :
    List (SearchResult Value Score) :=
  matchEntries sim query (rows.filterMap (rowToEntry json))

/-! ## The same entries in the short-term tier -/

/-- The prefix filter of the short-term tier. -/
def passesPrefix (query : MemoryQuery Score) (entry : MemoryEntry Value) :
    Bool :=
  match query.keyPrefix with
  | none => true
  | some text => text.toList.isPrefixOf entry.key.toList

/-- An entry without when and how often it was used, and without its tier. -/
def timeless (entry : MemoryEntry Value) : MemoryEntry Value :=
  { entry with
    createdAt := 0
    lastAccessed := 0
    accessCount := 0
    tier := .shortTerm }

/-- The short-term tier has, for the agent and the prefix, the entries that
the rows decode to. -/
def SameEntries (json : SerdeJson Value) (store : LongTermStore)
    (query : MemoryQuery Score) (short : ShortTermStore Value) : Prop :=
  (((entriesOf short.entries query.agentId).filter
      (passesPrefix query)).map timeless).Perm
    (((store.agentRows query).filterMap (rowToEntry json)).map timeless)

/-- Neither result is more similar than the other. -/
def EquallySimilar (sim : Similarity Score)
    (left right : SearchResult Value Score) : Prop :=
  NoLess sim SearchResult.similarity left right ∧
    NoLess sim SearchResult.similarity right left

/-- The results are the most similar of all the agent's entries that pass the
filters, and place by place as similar as what a short-term search finds among
the same entries. -/
structure FindsBest (json : SerdeJson Value) (sim : Similarity Score)
    (store : LongTermStore) (query : MemoryQuery Score)
    (results : List (SearchResult Value Score)) : Prop where
  best : IsTop (NoLess sim SearchResult.similarity) query.limit
    (matchRows json sim query (store.agentRows query)) results
  asShort : ∀ (short : ShortTermStore Value) (clock : Nat → Nat),
    SameEntries json store query short →
      List.Forall₂ (EquallySimilar sim) results
        (short.search sim query clock).1

section Matches

variable {sim : Similarity Score}

theorem recallEntry_eq (ordered : TotalPreorder sim)
    (query : MemoryQuery Score) (entry : MemoryEntry Value) :
    recallEntry sim query entry =
      if passesPrefix query entry &&
          passes sim query (scoreEntry sim query entry) then
        some (scoreEntry sim query entry).recalled
      else none := by
  have keyed : (query.keyPrefix.map fun text =>
      text.toList.isPrefixOf entry.key.toList) = some false ↔
        passesPrefix query entry = false := by
    rw [passesPrefix]
    cases query.keyPrefix with
    | none => simp
    | some text => simp
  rw [recallEntry, ShortTermStore.matchEntry]
  cases starts : passesPrefix query entry with
  | false => rw [if_pos (keyed.mpr starts)]; rfl
  | true =>
      have notKeyed : ¬ (query.keyPrefix.map fun text =>
          text.toList.isPrefixOf entry.key.toList) = some false := by
        rw [keyed, starts]
        simp
      rw [if_neg notKeyed, passes, scoreEntry]
      cases query.embedding with
      | none => rfl
      | some queryEmbedding =>
          cases entry.embedding with
          | none => rfl
          | some entryEmbedding =>
              simp only [ordered.atLeast]
              cases sim.lessThan
                  (sim.cosineSimilarity queryEmbedding entryEmbedding)
                  query.minSimilarity with
              | true => rfl
              | false => rfl

theorem filterMap_recallEntry (ordered : TotalPreorder sim)
    (query : MemoryQuery Score) (entries : List (MemoryEntry Value)) :
    entries.filterMap (recallEntry sim query) =
      (matchEntries sim query (entries.filter (passesPrefix query))).map
        SearchResult.recalled := by
  induction entries with
  | nil => rfl
  | cons entry entries induction =>
      rw [List.filterMap_cons, recallEntry_eq ordered, List.filter_cons]
      cases passesPrefix query entry with
      | false => exact induction
      | true =>
          rw [matchEntries, if_pos rfl, List.map_cons, List.filter_cons,
            Bool.true_and]
          cases passes sim query (scoreEntry sim query entry) with
          | false => exact induction
          | true => exact congrArg (_ :: ·) induction

/-- Neither the use of an entry nor its tier matters to what is found. -/
theorem recalled_matchEntries_timeless (query : MemoryQuery Score)
    (entries : List (MemoryEntry Value)) :
    (matchEntries sim query (entries.map timeless)).map
        SearchResult.recalled =
      (matchEntries sim query entries).map SearchResult.recalled := by
  induction entries with
  | nil => rfl
  | cons entry entries induction =>
      have same : passes sim query (scoreEntry sim query (timeless entry)) =
          passes sim query (scoreEntry sim query entry) :=
        rfl
      rw [matchEntries, matchEntries, List.map_cons, List.map_cons,
        List.map_cons, List.filter_cons, List.filter_cons, same]
      split
      · exact congrArg (_ :: ·) induction
      · exact induction

theorem recalled_matchEntries_perm (query : MemoryQuery Score)
    {left right : List (MemoryEntry Value)}
    (same : (left.map timeless).Perm (right.map timeless)) :
    ((matchEntries sim query left).map SearchResult.recalled).Perm
      ((matchEntries sim query right).map SearchResult.recalled) := by
  rw [← recalled_matchEntries_timeless query left,
    ← recalled_matchEntries_timeless query right]
  exact ((same.map _).filter _).map _

end Matches

section Search

variable (json : SerdeJson Value) {sim : Similarity Score}
  (orderBy : OrderByRecency) (store : LongTermStore)
  {query : MemoryQuery Score}

theorem perm_agentRows (query : MemoryQuery Score) :
    (store.selectRecent orderBy query ++ store.olderRows orderBy query).Perm
      (store.agentRows query) := by
  have joined :
      store.selectRecent orderBy query ++ store.olderRows orderBy query =
        orderBy.sort (store.agentRows query) :=
    List.take_append_drop query.limit _
  rw [joined]
  exact orderBy.perm _

theorem search_eq {embedding : List UInt32}
    (asked : query.embedding = some embedding) :
    store.search json sim orderBy query =
      ((matchRows json sim query
          (store.selectRecent orderBy query)).insertionSort
        fun left right => left.compareSimilarity sim right ≠ .gt).take
        query.limit := by
  have semantic : query.embedding.isSome = true := by
    rw [asked]
    rfl
  rw [search, if_pos semantic]
  rfl

theorem map_search (ordered : TotalPreorder sim) {embedding : List UInt32}
    (asked : query.embedding = some embedding) {α : Type}
    (view : SearchResult Value Score → α) (similarity : α → Option Score)
    (kept : ∀ result, similarity (view result) = result.similarity) :
    (store.search json sim orderBy query).map view =
      (((matchRows json sim query (store.selectRecent orderBy query)).map
        view).insertionSort (NoLess sim similarity)).take query.limit := by
  rw [search_eq json orderBy store asked, List.map_take,
    map_insertionSort_results ordered similarity view kept]

theorem matchRows_split (query : MemoryQuery Score) :
    (matchRows json sim query (store.selectRecent orderBy query) ++
        matchRows json sim query (store.olderRows orderBy query)).Perm
      (matchRows json sim query (store.agentRows query)) := by
  have joined :
      matchRows json sim query (store.selectRecent orderBy query) ++
          matchRows json sim query (store.olderRows orderBy query) =
        matchRows json sim query
          (store.selectRecent orderBy query ++
            store.olderRows orderBy query) := by
    simp only [matchRows, matchEntries, List.filterMap_append,
      List.map_append, List.filter_append]
  rw [joined]
  exact (((perm_agentRows orderBy store query).filterMap _).map _).filter _

/-- The rows that are read have the best matches exactly when for each match
outside them they have as many at least as similar as may be returned. -/
theorem search_isTop_iff (ordered : TotalPreorder sim)
    {embedding : List UInt32} (asked : query.embedding = some embedding) :
    IsTop (NoLess sim SearchResult.similarity) query.limit
        (matchRows json sim query (store.agentRows query))
        (store.search json sim orderBy query) ↔
      ∀ missed ∈ matchRows json sim query (store.olderRows orderBy query),
        query.limit ≤
          (matchRows json sim query
            (store.selectRecent orderBy query)).countP
            fun found => NoLess sim SearchResult.similarity found missed := by
  have total := ordered.total (@SearchResult.similarity Value Score)
  have transitive := ordered.isTrans (@SearchResult.similarity Value Score)
  have sorted := map_search json orderBy store ordered asked id
    SearchResult.similarity fun _ => rfl
  rw [List.map_id, List.map_id] at sorted
  have recentTop := isTop_take_insertionSort
    (r := NoLess sim (@SearchResult.similarity Value Score)) query.limit
    (matchRows json sim query (store.selectRecent orderBy query))
  rw [← sorted] at recentTop
  have whole := @matchRows_split Value Score json sim orderBy store query
  rw [← isTop_append_iff recentTop]
  constructor
  · intro top
    exact top.perm whole.symm
  · intro top
    exact top.perm whole

theorem forall₂_of_isTop (ordered : TotalPreorder sim)
    {results : List (SearchResult Value Score)}
    (top : IsTop (NoLess sim SearchResult.similarity) query.limit
      (matchRows json sim query (store.agentRows query)) results)
    {short : ShortTermStore Value}
    (same : SameEntries json store query short) (clock : Nat → Nat) :
    List.Forall₂ (EquallySimilar sim) results
      (short.search sim query clock).1 := by
  have total := ordered.total (@Recalled.similarity Value Score)
  have transitive := ordered.isTrans (@Recalled.similarity Value Score)
  have shortTop := short.search_isTop ordered query clock
  rw [filterMap_recallEntry ordered] at shortTop
  have longTop := @IsTop.map _ _ _ _ _ _ (NoLess sim Recalled.similarity)
    SearchResult.recalled (fun _ _ better => better) top
  have alike := longTop.forall₂
    (shortTop.perm (recalled_matchEntries_perm query same))
  rw [List.forall₂_map_left_iff, List.forall₂_map_right_iff] at alike
  exact alike

/-- A search with an embedding finds the best of all entries, as the
short-term tier does, exactly when for each match it does not read, it reads
as many matches at least as similar as it may return. -/
theorem search_findsBest_iff (ordered : TotalPreorder sim)
    {embedding : List UInt32} (asked : query.embedding = some embedding) :
    FindsBest json sim store query (store.search json sim orderBy query) ↔
      ∀ missed ∈ matchRows json sim query (store.olderRows orderBy query),
        query.limit ≤
          (matchRows json sim query
            (store.selectRecent orderBy query)).countP
            fun found => NoLess sim SearchResult.similarity found missed := by
  rw [← search_isTop_iff json orderBy store ordered asked]
  constructor
  · exact FindsBest.best
  · intro top
    refine ⟨top, ?_⟩
    intro short clock same
    exact forall₂_of_isTop json store ordered top same clock

end Search

/-- The cosines of unit vectors along the axes, in tenths. -/
def axisSimilarity : Similarity Nat :=
  { lessThan := fun a b => a < b
    atLeast := fun a b => b ≤ a
    zero := 0
    half := 5
    cosineSimilarity := fun a b => if a = b then 10 else 0
    simpleTextEmbedding := fun _ _ => [] }

theorem axisSimilarity_ordered : TotalPreorder axisSimilarity where
  asymm := by
    intro a b less
    exact decide_eq_false (Nat.lt_asymm (of_decide_eq_true less))
  trans := by
    intro a b c first second
    have upper := Nat.le_of_not_lt (of_decide_eq_false first)
    have lower := Nat.le_of_not_lt (of_decide_eq_false second)
    exact decide_eq_false (Nat.not_lt_of_le (lower.trans upper))
  atLeast := by
    intro a b
    rw [axisSimilarity, ← decide_not]
    exact decide_eq_decide.mpr Nat.not_lt.symm

/-- A memory along an axis. -/
def along (key : String) (embedding : List UInt32) (now : Nat) :
    MemoryEntry MemoryStore.Literal :=
  { MemoryEntry.newShort "agent" key .null now with
    embedding := some embedding }

def firstAxis : List UInt32 := [0x3F800000, 0]

def secondAxis : List UInt32 := [0, 0x3F800000]

/-- Two memories along the first axis and between them one along the
second. -/
def axisEntries : List (MemoryEntry MemoryStore.Literal) :=
  [along "first" firstAxis 1, along "second" secondAxis 2,
    along "third" firstAxis 3]

def axisMemories : LongTermStore :=
  axisEntries.foldl
    (fun store entry => (store.put MemoryStore.literalJson entry).2) .new

def axisMemoriesInShort : ShortTermStore MemoryStore.Literal :=
  axisEntries.foldl
    (fun store entry => (store.put MemoryStore.literalJson entry []).2) .new

/-- Search along the first axis. -/
def alongFirst (limit : Nat) : MemoryQuery Nat :=
  ((MemoryQuery.byAgent axisSimilarity "agent").withEmbedding
    firstAxis).withLimit limit

/-- The match that is not read is no better than the one that is. -/
theorem search_findsBest_one :
    SameEntries MemoryStore.literalJson axisMemories (alongFirst 1)
        axisMemoriesInShort ∧
      FindsBest MemoryStore.literalJson axisSimilarity axisMemories
        (alongFirst 1)
        (axisMemories.search MemoryStore.literalJson axisSimilarity
          MemoryStore.stableOrder (alongFirst 1)) := by
  have asked : (alongFirst 1).embedding = some firstAxis := rfl
  refine ⟨?_, ?_⟩
  · rw [SameEntries]
    decide +kernel
  · apply (search_findsBest_iff MemoryStore.literalJson
      MemoryStore.stableOrder axisMemories axisSimilarity_ordered asked).mpr
    decide +kernel

/-- With two results asked for, the row along the second axis takes the place
of the older match. -/
theorem search_misses_older_match :
    ¬ ∀ (sim : Similarity Nat), TotalPreorder sim →
      ∀ (orderBy : OrderByRecency) (store : LongTermStore)
        (query : MemoryQuery Nat) (embedding : List UInt32),
        query.embedding = some embedding →
        FindsBest MemoryStore.literalJson sim store query
          (store.search MemoryStore.literalJson sim orderBy query) := by
  intro claimed
  have finds := claimed axisSimilarity axisSimilarity_ordered
    MemoryStore.stableOrder axisMemories (alongFirst 2) firstAxis rfl
  exact absurd finds.best.length (by decide +kernel)

end LongTermStore

end Ughi.Memory
