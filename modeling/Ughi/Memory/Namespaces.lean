import Ughi.Lib.Projection
import Ughi.Memory.ReadYourWrites

/-!
# Agent namespaces do not interfere

The agents of a short-term store share a byte counter and a hash map.  The
counter decides about the system-wide eviction only, so while the system budget
is kept, each agent's entries evolve as if the agent had the store to itself:
`serveAlone` is that store.
-/

namespace Ughi.Memory

open Ughi.Lib

namespace ShortTermStore

variable {Value Score : Type} (json : SerdeJson Value) (sim : Similarity Score)

/-- The operations, with the clock readings they take.  `order` is the order in
which a system-wide eviction would iterate the hash map. -/
inductive Call (Value Score : Type) where
  | put (entry : MemoryEntry Value) (order : List String)
  | get (agentId key : String) (now : Nat)
  | search (query : MemoryQuery Score) (clock : Nat → Nat)
  | deleteNamespace (agentId : String)
  | getPromotable (agentId : String) (minAccessCount : Nat)

inductive Answer (Value Score : Type) where
  | stored (result : MemoryResult Unit)
  | entry (result : MemoryResult (MemoryEntry Value))
  | found (results : List (SearchResult Value Score))
  | deleted
  | promotable (entries : List (MemoryEntry Value))

def serve (store : ShortTermStore Value) :
    Call Value Score → Answer Value Score × ShortTermStore Value
  | .put entry order =>
      let (result, store) := store.put json entry order
      (.stored result, store)
  | .get agentId key now =>
      let (result, store) := store.get agentId key now
      (.entry result, store)
  | .search query clock =>
      let (results, store) := store.search sim query clock
      (.found results, store)
  | .deleteNamespace agentId => (.deleted, store.deleteNamespace json agentId)
  | .getPromotable agentId minAccessCount =>
      (.promotable (store.getPromotable agentId minAccessCount), store)

/-- The agent a call is about. -/
def Call.agent : Call Value Score → String
  | .put entry _ => entry.agentId
  | .get agentId _ _ => agentId
  | .search query _ => query.agentId
  | .deleteNamespace agentId => agentId
  | .getPromotable agentId _ => agentId

/-- The call without the iteration order of the hash map. -/
def Call.unordered : Call Value Score → Call Value Score
  | .put entry _ => .put entry []
  | call => call

/-- A write does not push the tracked total beyond the system budget. -/
def KeepsSystemBudget (store : ShortTermStore Value) :
    Call Value Score → Prop
  | .put entry _ =>
      store.totalBytes + entry.estimatedBytes json ≤ systemBudgetBytes
  | _ => True

instance (store : ShortTermStore Value) (call : Call Value Score) :
    Decidable (KeepsSystemBudget json store call) := by
  cases call with
  | put entry order =>
      exact inferInstanceAs (Decidable
        (store.totalBytes + entry.estimatedBytes json ≤ systemBudgetBytes))
  | _ => exact inferInstanceAs (Decidable True)

/-! ## An agent with the store to itself -/

/-- The bytes of a vector of entries. -/
def bytesOf (bucket : List (MemoryEntry Value)) : Nat :=
  (bucket.map fun e => e.estimatedBytes json).sum

/-- The vector after the oldest quarter went. -/
def dropOldest (bucket : List (MemoryEntry Value)) :
    List (MemoryEntry Value) :=
  (bucket.insertionSort fun left right =>
    left.lastAccessed ≤ right.lastAccessed).drop (max (bucket.length / 4) 1)

def trim (bucket : List (MemoryEntry Value)) (entrySize : Nat) :
    List (MemoryEntry Value) :=
  if bytesOf json bucket + entrySize > agentBudgetBytes then dropOldest bucket
  else bucket

/-- A full vector loses its least recently used entry. -/
def limit (bucket : List (MemoryEntry Value)) : List (MemoryEntry Value) :=
  if bucket.length ≥ 500 then
    match removeMinOn MemoryEntry.lastAccessed bucket with
    | some (_, kept) => kept
    | none => bucket
  else bucket

def putAlone (bucket : List (MemoryEntry Value))
    (entry : MemoryEntry Value) : List (MemoryEntry Value) :=
  let entry := { entry with tier := .shortTerm }
  let bucket := trim json bucket (entry.estimatedBytes json)
  match firstWith MemoryEntry.key entry.key bucket with
  | some _ => modifyFirst MemoryEntry.key entry.key (fun _ => entry) bucket
  | none => limit bucket ++ [entry]

def getAlone (bucket : List (MemoryEntry Value)) (key : String) (now : Nat) :
    MemoryResult (MemoryEntry Value) × List (MemoryEntry Value) :=
  match firstWith MemoryEntry.key key bucket with
  | none => (.error (.keyNotFound key), bucket)
  | some entry =>
      (.ok (entry.touch now),
        modifyFirst MemoryEntry.key key (·.touch now) bucket)

/-- The entries in the order a search visits them, and what it makes of each
of them. -/
def visit (query : MemoryQuery Score) (clock : Nat → Nat)
    (bucket : List (MemoryEntry Value)) :
    List (MemoryEntry Value × Option (Option Score)) :=
  bucket.zipIdx.map fun (entry, turn) =>
    match matchEntry sim query entry with
    | none => (entry, none)
    | some score => (entry.touch (clock turn), some score)

def searchAlone (bucket : List (MemoryEntry Value))
    (query : MemoryQuery Score) (clock : Nat → Nat) :
    List (SearchResult Value Score) × List (MemoryEntry Value) :=
  let visited := visit sim query clock bucket
  let results := visited.filterMap fun (entry, score) =>
    score.map fun similarity => { entry, similarity }
  let sorted := results.insertionSort fun left right =>
    searchOrder sim left right ≠ .gt
  (sorted.take query.limit, visited.map Prod.fst)

def serveAlone (bucket : List (MemoryEntry Value)) :
    Call Value Score → Answer Value Score × List (MemoryEntry Value)
  | .put entry _ => (.stored (.ok ()), putAlone json bucket entry)
  | .get _ key now =>
      let (result, bucket) := getAlone bucket key now
      (.entry result, bucket)
  | .search query clock =>
      let (results, bucket) := searchAlone sim bucket query clock
      (.found results, bucket)
  | .deleteNamespace _ => (.deleted, [])
  | .getPromotable _ minAccessCount =>
      (.promotable (bucket.filter fun e => e.accessCount ≥ minAccessCount),
        bucket)

/-! ## The entries of each agent after a call -/

variable (store : ShortTermStore Value)

theorem entriesOf_ensureAgent (agentId other : String) :
    entriesOf (store.ensureAgent agentId).entries other =
      entriesOf store.entries other := by
  rw [ensureAgent]
  split
  · rfl
  next absent =>
    rw [entriesOf_insert]
    split
    next same =>
      subst same
      have missing : store.entries.lookup other = none :=
        AList.lookup_eq_none.mpr absent
      rw [entriesOf, missing]
      rfl
    next => rfl

theorem agentBytes_eq_bytesOf (agentId : String) :
    store.agentBytes json agentId =
      bytesOf json (entriesOf store.entries agentId) :=
  rfl

theorem entriesOf_evictAgentLru {agentId : String}
    (present : agentId ∈ store.entries) (other : String) :
    entriesOf (store.evictAgentLru json agentId).entries other =
      if other = agentId then dropOldest (entriesOf store.entries agentId)
      else entriesOf store.entries other := by
  obtain ⟨bucket, found⟩ := HashMap.mem_iff_exists_lookup.mp present
  rw [entriesOf_of_lookup found, evictAgentLru, found]
  exact entriesOf_insert store.entries (dropOldest bucket) agentId other

theorem entriesOf_keepAgentBudget {agentId : String}
    (present : agentId ∈ store.entries) (entrySize : Nat) (other : String) :
    entriesOf (store.keepAgentBudget json agentId entrySize).entries other =
      if other = agentId then
        trim json (entriesOf store.entries agentId) entrySize
      else entriesOf store.entries other := by
  rw [keepAgentBudget, agentBytes_eq_bytesOf, trim]
  by_cases exceeded :
      bytesOf json (entriesOf store.entries agentId) + entrySize >
        agentBudgetBytes
  · rw [if_pos exceeded, if_pos exceeded]
    exact entriesOf_evictAgentLru json store present other
  · rw [if_neg exceeded, if_neg exceeded]
    split
    next same => rw [same]
    next => rfl

theorem keepSystemBudget_of_le {entrySize : Nat}
    (within : store.totalBytes + entrySize ≤ systemBudgetBytes)
    (order : List String) :
    store.keepSystemBudget json entrySize order = store := by
  have fits : store.totalBytes + entrySize < 2 ^ 64 :=
    Nat.lt_of_le_of_lt within (by decide)
  rw [keepSystemBudget, wrappingAdd_of_lt fits]
  exact if_neg (Nat.not_lt_of_le within)

theorem entriesOf_roomFor (entry : MemoryEntry Value) (order : List String)
    (other : String) :
    let kept := store.keepSystemBudget json (entry.estimatedBytes json) order
    entriesOf (store.roomFor json entry order).entries other =
      if other = entry.agentId then
        trim json (entriesOf kept.entries entry.agentId)
          (entry.estimatedBytes json)
      else entriesOf kept.entries other := by
  intro kept
  rw [roomFor, entriesOf_keepAgentBudget json _ (mem_ensureAgent _ _),
    entriesOf_ensureAgent, entriesOf_ensureAgent]

theorem limit_eq_keepEntryLimit
    (capacity : store.maxEntriesPerAgent = 500)
    (bucket : List (MemoryEntry Value)) :
    (store.keepEntryLimit json bucket).1 = limit bucket := by
  rw [keepEntryLimit, limit, capacity]
  split
  · cases removeMinOn MemoryEntry.lastAccessed bucket with
    | none => rfl
    | some removed => rfl
  · rfl

theorem entriesOf_place {entry : MemoryEntry Value}
    (capacity : store.maxEntriesPerAgent = 500)
    (present : entry.agentId ∈ store.entries) (other : String) :
    entriesOf (store.place json entry).entries other =
      if other = entry.agentId then
        match firstWith MemoryEntry.key entry.key
            (entriesOf store.entries entry.agentId) with
        | some _ =>
            modifyFirst MemoryEntry.key entry.key (fun _ => entry)
              (entriesOf store.entries entry.agentId)
        | none => limit (entriesOf store.entries entry.agentId) ++ [entry]
      else entriesOf store.entries other := by
  obtain ⟨bucket, found⟩ := HashMap.mem_iff_exists_lookup.mp present
  rw [entriesOf_of_lookup found, place, found]
  cases existing : firstWith MemoryEntry.key entry.key bucket with
  | some old => simp only [existing, entriesOf_insert]
  | none =>
      simp only [existing, entriesOf_insert,
        limit_eq_keepEntryLimit json store capacity]

/-- A write is served from what the system budget leaves of the entries of its
agent. -/
theorem entriesOf_put (capacity : store.maxEntriesPerAgent = 500)
    (entry : MemoryEntry Value) (order : List String) (other : String) :
    let kept := store.keepSystemBudget json (entry.estimatedBytes json) order
    entriesOf (store.put json entry order).2.entries other =
      if other = entry.agentId then
        putAlone json (entriesOf kept.entries entry.agentId) entry
      else entriesOf kept.entries other := by
  intro kept
  let filed : MemoryEntry Value := { entry with tier := .shortTerm }
  have room : ∀ agentId,
      entriesOf (store.roomFor json filed order).entries agentId =
        if agentId = entry.agentId then
          trim json (entriesOf kept.entries entry.agentId)
            (entry.estimatedBytes json)
        else entriesOf kept.entries agentId :=
    entriesOf_roomFor json store filed order
  have roomCapacity :
      (store.roomFor json filed order).maxEntriesPerAgent = 500 := by
    rw [maxEntriesPerAgent_roomFor]
    exact capacity
  have placed := entriesOf_place json (store.roomFor json filed order)
    roomCapacity (mem_roomFor json store filed order) other
  change entriesOf ((store.roomFor json filed order).place json
    filed).entries other = _
  rw [placed, room, room, if_pos rfl]
  by_cases own : other = entry.agentId
  · rw [if_pos own, if_pos own]
    rfl
  · rw [if_neg own, if_neg own, if_neg own]

theorem entriesOf_put_of_le {entry : MemoryEntry Value}
    (capacity : store.maxEntriesPerAgent = 500)
    (within : store.totalBytes + entry.estimatedBytes json ≤
      systemBudgetBytes) (order : List String) (other : String) :
    entriesOf (store.put json entry order).2.entries other =
      if other = entry.agentId then
        putAlone json (entriesOf store.entries entry.agentId) entry
      else entriesOf store.entries other := by
  have served := entriesOf_put json store capacity entry order other
  rwa [keepSystemBudget_of_le json store within] at served

theorem get_eq_getAlone (agentId key : String) (now : Nat) :
    (store.get agentId key now).1 =
        (getAlone (entriesOf store.entries agentId) key now).1 ∧
      ∀ other, entriesOf (store.get agentId key now).2.entries other =
        if other = agentId then
          (getAlone (entriesOf store.entries agentId) key now).2
        else entriesOf store.entries other := by
  have unchanged : ∀ other, entriesOf store.entries other =
      if other = agentId then entriesOf store.entries agentId
      else entriesOf store.entries other := by
    intro other
    split
    next same => rw [same]
    next => rfl
  rw [get, getAlone]
  cases found : store.entries.lookup agentId with
  | none =>
      have empty : entriesOf store.entries agentId = [] := by
        rw [entriesOf, found]
        rfl
      rw [empty] at unchanged ⊢
      exact ⟨rfl, unchanged⟩
  | some bucket =>
      rw [entriesOf_of_lookup found] at unchanged ⊢
      cases existing : firstWith MemoryEntry.key key bucket with
      | none =>
          simp only [existing]
          exact ⟨trivial, unchanged⟩
      | some entry =>
          simp only [existing, entriesOf_insert]
          exact ⟨trivial, fun _ => trivial⟩

theorem search_eq_searchAlone (query : MemoryQuery Score)
    (clock : Nat → Nat) :
    (store.search sim query clock).1 =
        (searchAlone sim (entriesOf store.entries query.agentId) query
          clock).1 ∧
      ∀ other,
        entriesOf (store.search sim query clock).2.entries other =
          if other = query.agentId then
            (searchAlone sim (entriesOf store.entries query.agentId) query
              clock).2
          else entriesOf store.entries other := by
  rw [search]
  cases found : store.entries.lookup query.agentId with
  | none =>
      have empty : entriesOf store.entries query.agentId = [] := by
        rw [entriesOf, found]
        rfl
      rw [empty]
      refine ⟨by simp [searchAlone, visit], ?_⟩
      intro other
      by_cases own : other = query.agentId
      · rw [if_pos own, own]
        exact empty
      · rw [if_neg own]
  | some bucket =>
      rw [entriesOf_of_lookup found]
      exact ⟨rfl, fun other => entriesOf_insert store.entries _ _ other⟩

/-! ## Projection to an agent -/

variable {store}

theorem capacity_afterCall (capacity : store.maxEntriesPerAgent = 500)
    (call : Call Value Score) :
    (afterCall (serve json sim) store call).maxEntriesPerAgent = 500 := by
  rw [← capacity]
  cases call with
  | put entry order => exact maxEntriesPerAgent_put json store entry order
  | get agentId key now => exact maxEntriesPerAgent_get store agentId key now
  | search query clock => exact maxEntriesPerAgent_search store sim query clock
  | deleteNamespace agentId =>
      exact maxEntriesPerAgent_deleteNamespace json store agentId
  | getPromotable agentId minAccessCount => rfl

/-- Within the system budget a call is served from the entries of its agent,
and leaves those of every other agent as they are. -/
theorem serve_eq_serveAlone (capacity : store.maxEntriesPerAgent = 500)
    (call : Call Value Score) (within : KeepsSystemBudget json store call) :
    (serve json sim store call).1 =
        (serveAlone json sim (entriesOf store.entries call.agent)
          call.unordered).1 ∧
      ∀ other,
        entriesOf (afterCall (serve json sim) store call).entries other =
          if other = call.agent then
            (serveAlone json sim (entriesOf store.entries call.agent)
              call.unordered).2
          else entriesOf store.entries other := by
  cases call with
  | put entry order =>
      exact ⟨rfl, entriesOf_put_of_le json store capacity within order⟩
  | get agentId key now =>
      obtain ⟨answer, entries⟩ := get_eq_getAlone store agentId key now
      exact ⟨congrArg Answer.entry answer, entries⟩
  | search query clock =>
      obtain ⟨answer, entries⟩ := search_eq_searchAlone sim store query clock
      exact ⟨congrArg Answer.found answer, entries⟩
  | deleteNamespace agentId =>
      exact ⟨rfl, entriesOf_deleteNamespace json store agentId⟩
  | getPromotable agentId minAccessCount =>
      refine ⟨rfl, ?_⟩
      intro other
      split
      next same => rw [same]; rfl
      next => rfl

/-- The calls of an agent. -/
def Call.isOf (agentId : String) (call : Call Value Score) : Bool :=
  decide (call.agent = agentId)

theorem projects_entriesOf (agentId : String) :
    Projects (@serve Value Score json sim) (serveAlone json sim)
      (fun store => entriesOf store.entries agentId)
      (Call.isOf agentId) Call.unordered
      (fun store => store.maxEntriesPerAgent = 500)
      (KeepsSystemBudget json) where
  kept := by
    intro store call capacity _
    exact capacity_afterCall json sim capacity call
  answer := by
    intro store call capacity within own
    obtain rfl : call.agent = agentId := of_decide_eq_true own
    exact (serve_eq_serveAlone json sim capacity call within).1
  ownView := by
    intro store call capacity within own
    obtain rfl : call.agent = agentId := of_decide_eq_true own
    have entries :=
      (serve_eq_serveAlone json sim capacity call within).2 call.agent
    rw [if_pos rfl] at entries
    exact entries
  otherView := by
    intro store call capacity within other
    have different : agentId ≠ call.agent :=
      Ne.symm (of_decide_eq_false other)
    have entries :=
      (serve_eq_serveAlone json sim capacity call within).2 agentId
    rw [if_neg different] at entries
    exact entries

/-- Two runs within the system budget that contain the same calls of an agent
answer it alike and leave it the same bytes; and deleting a namespace removes
the entries of its agent and no others. -/
theorem namespaces_do_not_interfere {left right : List (Call Value Score)}
    (leftWithin : EachCall (afterCall (serve json sim))
      (KeepsSystemBudget json) new left)
    (rightWithin : EachCall (afterCall (serve json sim))
      (KeepsSystemBudget json) new right)
    (agentId : String)
    (same : shareOf (Call.isOf agentId) Call.unordered left =
      shareOf (Call.isOf agentId) Call.unordered right) :
    answersTo (serve json sim) (Call.isOf agentId) new left =
        answersTo (serve json sim) (Call.isOf agentId) new right ∧
      (runCalls (afterCall (serve json sim)) new left).agentBytes json
          agentId =
        (runCalls (afterCall (serve json sim)) new right).agentBytes json
          agentId ∧
      ∀ (store : ShortTermStore Value) (deleted other : String),
        entriesOf (store.deleteNamespace json deleted).entries other =
          if other = deleted then [] else entriesOf store.entries other := by
  have projects := projects_entriesOf json sim agentId
  obtain ⟨answersAgree, entriesAgree⟩ :=
    projects.agree rfl leftWithin rightWithin same
  refine ⟨answersAgree, ?_, entriesOf_deleteNamespace json⟩
  rw [agentBytes_eq_bytesOf, agentBytes_eq_bytesOf]
  exact congrArg (bytesOf json) entriesAgree

/-- One agent reads its entry, with and without the entries of another. -/
theorem other_agent_unnoticed :
    let sim := MemoryStore.literalSimilarity
    let shared : List (Call MemoryStore.Literal Bool) :=
      [.put (.newShort "reader" "plan" (.bool true) 1) [],
        .get "reader" "plan" 3]
    let crowded : List (Call MemoryStore.Literal Bool) :=
      .put (.newShort "writer" "plan" .null 0) [] :: shared
    answersTo (serve MemoryStore.literalJson sim) (Call.isOf "reader") new
        crowded =
      answersTo (serve MemoryStore.literalJson sim) (Call.isOf "reader") new
        shared := by
  intro sim shared crowded
  have crowdedWithin : EachCall (afterCall (serve MemoryStore.literalJson sim))
      (KeepsSystemBudget MemoryStore.literalJson) new crowded :=
    ⟨by decide +kernel, by decide +kernel, trivial, trivial⟩
  have sharedWithin : EachCall (afterCall (serve MemoryStore.literalJson sim))
      (KeepsSystemBudget MemoryStore.literalJson) new shared :=
    ⟨by decide +kernel, trivial, trivial⟩
  exact (namespaces_do_not_interfere MemoryStore.literalJson sim crowdedWithin
    sharedWithin "reader" rfl).1

end ShortTermStore

end Ughi.Memory
