import Ughi.Lib.HashMap
import Ughi.Lib.Table
import Ughi.Memory.Types

/-!
# The long-term store

Two SQL tables: the entries, unique by agent and key, and a usage counter for
each agent.  Values are stored as JSON text and embeddings as bytes, so a row
is decoded each time it is read.  The statements themselves always succeed.
-/

namespace Ughi.Memory

open Ughi.Lib

/-- Ninety days in milliseconds. -/
def retentionMs : Nat := 90 * 24 * 60 * 60 * 1000

structure EntryRow where
  agentId : String
  key : String
  value : String
  embedding : Option (List UInt8)
  createdAt : Nat
  lastAccessed : Nat
  accessCount : Nat
deriving DecidableEq

/-- The columns the table keeps unique. -/
def EntryRow.address (row : EntryRow) : String × String :=
  (row.agentId, row.key)

structure AgentUsage where
  bytesUsed : Nat
  entryCount : Nat
deriving DecidableEq, Repr

structure LongTermStore where
  memoryEntries : Table EntryRow.address
  agentUsage : HashMap String AgentUsage

def toLeBytes (bits : UInt32) : List UInt8 :=
  [bits.toUInt8, (bits >>> 8).toUInt8, (bits >>> 16).toUInt8,
    (bits >>> 24).toUInt8]

/-- Whole chunks of four bytes, each read as one word. -/
def fromLeBytes : List UInt8 → List UInt32
  | b0 :: b1 :: b2 :: b3 :: rest =>
      (b0.toUInt32 ||| b1.toUInt32 <<< 8 ||| b2.toUInt32 <<< 16 |||
        b3.toUInt32 <<< 24) :: fromLeBytes rest
  | _ => []

/-- The `LIKE` operator: `%` stands for any text, `_` for any character, and
letters match in either ASCII case.  SQLite stops reading at a NUL and refuses
patterns of more than 50000 bytes; neither is modelled. -/
def sqlLike : List Char → List Char → Bool
  | [], [] => true
  | [], _ :: _ => false
  | '%' :: pattern, [] => sqlLike pattern []
  | '%' :: pattern, c :: text =>
      sqlLike pattern (c :: text) || sqlLike ('%' :: pattern) text
  | _ :: _, [] => false
  | p :: pattern, c :: text =>
      (p = '_' || p.toLower = c.toLower) && sqlLike pattern text
termination_by pattern text => (pattern.length, text.length)

/-- `ORDER BY last_accessed DESC`: which of two rows accessed at one time
comes first is left to the database. -/
structure OrderByRecency where
  sort : List EntryRow → List EntryRow
  perm : ∀ rows, (sort rows).Perm rows
  sorted : ∀ rows, (sort rows).Pairwise fun left right =>
    left.lastAccessed ≥ right.lastAccessed

namespace LongTermStore

variable {Value Score : Type}

def new : LongTermStore :=
  { memoryEntries := .empty
    agentUsage := ∅ }

/-- Add to an agent's usage row, or insert the row. -/
def addUsage (usage : HashMap String AgentUsage) (agentId : String)
    (bytes : Nat) : HashMap String AgentUsage :=
  match usage.lookup agentId with
  | none => usage.insert agentId { bytesUsed := bytes, entryCount := 1 }
  | some row =>
      usage.insert agentId
        { bytesUsed := row.bytesUsed + bytes
          entryCount := row.entryCount + 1 }

/-- The row a write stores for an entry whose value has the given text. -/
def rowOf (entry : MemoryEntry Value) (valueStr : String) : EntryRow :=
  { agentId := entry.agentId
    key := entry.key
    value := valueStr
    embedding := entry.embedding.map (·.flatMap toLeBytes)
    createdAt := entry.createdAt
    lastAccessed := entry.lastAccessed
    accessCount := entry.accessCount }

@[simp] theorem rowOf_address (entry : MemoryEntry Value)
    (valueStr : String) :
    (rowOf entry valueStr).address = (entry.agentId, entry.key) :=
  rfl

def put (json : SerdeJson Value) (store : LongTermStore)
    (entry : MemoryEntry Value) : MemoryResult Unit × LongTermStore :=
  match json.toString entry.value with
  | .error message => (.error (.serialization message), store)
  | .ok valueStr =>
      let row := rowOf entry valueStr
      let entrySize := valueStr.utf8ByteSize +
        (row.embedding.map List.length).getD 0
      (.ok (),
        { memoryEntries := store.memoryEntries.insertOrReplace row
          agentUsage := addUsage store.agentUsage entry.agentId entrySize })

/-- Decode a row.  Text that is not JSON reads as null; an access count past
32 bits is a conversion error. -/
def rowToEntry (json : SerdeJson Value) (row : EntryRow) :
    Option (MemoryEntry Value) :=
  if row.accessCount < 2 ^ 32 then
    some
      { agentId := row.agentId
        key := row.key
        value := (json.fromStr row.value).getD json.null
        embedding := row.embedding.map fromLeBytes
        createdAt := row.createdAt
        lastAccessed := row.lastAccessed
        accessCount := row.accessCount
        tier := .longTerm }
  else none

def touchRow (now : Nat) (row : EntryRow) : EntryRow :=
  { row with
    lastAccessed := now
    accessCount := row.accessCount + 1 }

theorem touchRow_address (now : Nat) (row : EntryRow) :
    (touchRow now row).address = row.address :=
  rfl

def get (json : SerdeJson Value) (store : LongTermStore)
    (agentId key : String) (now : Nat) :
    MemoryResult (MemoryEntry Value) × LongTermStore :=
  match store.memoryEntries.select (agentId, key) with
  | none => (.error .queryReturnedNoRows, store)
  | some row =>
      match rowToEntry json row with
      | none => (.error (.keyNotFound key), store)
      | some entry =>
          (.ok entry,
            { store with
              memoryEntries := store.memoryEntries.update (agentId, key)
                (touchRow now) (touchRow_address now) })

/-- The rows a search reads: those of the agent and prefix, most recently
accessed first, up to the limit. -/
def selectRecent (orderBy : OrderByRecency) (store : LongTermStore)
    (query : MemoryQuery Score) : List EntryRow :=
  let selected := store.memoryEntries.rows.filter fun row =>
    row.agentId = query.agentId &&
      match query.keyPrefix with
      | none => true
      | some text => sqlLike (text.toList ++ ['%']) row.key.toList
  (orderBy.sort selected).take query.limit

def search (json : SerdeJson Value) (sim : Similarity Score)
    (orderBy : OrderByRecency) (store : LongTermStore)
    (query : MemoryQuery Score) : List (SearchResult Value Score) :=
  let entries :=
    (store.selectRecent orderBy query).filterMap (rowToEntry json)
  let scored := entries.map fun entry =>
    { entry := entry
      similarity :=
        match query.embedding, entry.embedding with
        | some queryEmbedding, some entryEmbedding =>
            some (sim.cosineSimilarity queryEmbedding entryEmbedding)
        | _, _ => none : SearchResult Value Score }
  let results := scored.filter fun result =>
    match result.similarity with
    | some score => sim.atLeast score query.minSimilarity
    | none => true
  let sorted :=
    if query.embedding.isSome then
      results.insertionSort fun left right =>
        left.compareSimilarity sim right ≠ .gt
    else results
  sorted.take query.limit

/-- Delete the rows created before the retention period. -/
def pruneExpired (store : LongTermStore) (now : Nat) :
    MemoryResult Nat × LongTermStore :=
  let cutoff := now - retentionMs
  let pruned := store.memoryEntries.deleteWhere fun row =>
    row.createdAt < cutoff
  (.ok (store.memoryEntries.rows.length - pruned.rows.length),
    { store with memoryEntries := pruned })

def deleteNamespace (store : LongTermStore) (agentId : String) :
    MemoryResult Nat × LongTermStore :=
  let kept := store.memoryEntries.deleteWhere fun row =>
    row.agentId = agentId
  (.ok (store.memoryEntries.rows.length - kept.rows.length),
    { memoryEntries := kept
      agentUsage := store.agentUsage.erase agentId })

/-! ## What the store holds -/

/-- The rows of an agent. -/
def namespaceRows (store : LongTermStore) (agentId : String) : List EntryRow :=
  store.memoryEntries.rows.filter fun row => row.agentId = agentId

/-- What a read decodes under a key of an agent. -/
def stored (json : SerdeJson Value) (store : LongTermStore)
    (agentId key : String) : Option (MemoryEntry Value) :=
  (store.memoryEntries.select (agentId, key)).bind (rowToEntry json)

def storedValue (json : SerdeJson Value) (store : LongTermStore)
    (agentId key : String) : Option Value :=
  (store.stored json agentId key).map MemoryEntry.value

section Stored

variable (json : SerdeJson Value) (store : LongTermStore)

theorem get_eq_ok_iff {agentId key : String} {now : Nat}
    {entry : MemoryEntry Value} :
    (store.get json agentId key now).1 = .ok entry ↔
      store.stored json agentId key = some entry := by
  rw [get, stored]
  cases store.memoryEntries.select (agentId, key) with
  | none => simp
  | some row =>
      cases decoded : rowToEntry json row with
      | none => simp [decoded]
      | some other => simp [decoded]

theorem put_error (entry : MemoryEntry Value) {message : String}
    (refused : json.toString entry.value = .error message) :
    store.put json entry = (.error (.serialization message), store) := by
  rw [put, refused]

theorem put_ok (entry : MemoryEntry Value) {text : String}
    (written : json.toString entry.value = .ok text) :
    (store.put json entry).1 = .ok () := by
  rw [put, written]

/-- A write stores the JSON text of the value, so a read gives what that text
decodes to. -/
theorem storedValue_put_self (entry : MemoryEntry Value) {text : String}
    (written : json.toString entry.value = .ok text)
    (countFits : entry.accessCount < 2 ^ 32) :
    (store.put json entry).2.storedValue json entry.agentId entry.key =
      some ((json.fromStr text).getD json.null) := by
  rw [put, written, storedValue, stored, Table.select_insertOrReplace,
    if_pos (rowOf_address entry text).symm]
  simp only [Option.bind_some, rowToEntry, rowOf, if_pos countFits,
    Option.map_some]

theorem storedValue_put_other (entry : MemoryEntry Value)
    {agentId key : String}
    (different : ¬ (agentId = entry.agentId ∧ key = entry.key)) :
    (store.put json entry).2.storedValue json agentId key =
      store.storedValue json agentId key := by
  cases written : json.toString entry.value with
  | error message => rw [put_error json store entry written]
  | ok text =>
      have otherAddress : (agentId, key) ≠ (entry.agentId, entry.key) :=
        fun same => different (Prod.mk.inj same)
      rw [put, written, storedValue, stored, Table.select_insertOrReplace,
        rowOf_address, if_neg otherAddress]
      rfl

/-- A read changes no stored value; a row whose access count outgrows its
column can no longer be read. -/
theorem storedValue_of_get {agentId key other otherKey : String} {now : Nat}
    {value : Value}
    (found : (store.get json agentId key now).2.storedValue json other
      otherKey = some value) :
    store.storedValue json other otherKey = some value := by
  rw [get] at found
  split at found
  · exact found
  next row present =>
    split at found
    · exact found
    · dsimp only at found
      rw [storedValue, stored, Table.select_update] at found
      split at found
      next same =>
        cases same
        rw [present] at found
        rw [storedValue, stored, present]
        simp only [Option.map_some, Option.bind_some, rowToEntry,
          touchRow] at found ⊢
        split at found
        · rw [if_pos (by omega)]
          exact found
        · cases found
      · exact found

theorem storedValue_of_deleteWhere {condition : EntryRow → Bool}
    {usage : HashMap String AgentUsage} {agentId key : String}
    {value : Value}
    (found : storedValue json
      { memoryEntries := store.memoryEntries.deleteWhere condition
        agentUsage := usage } agentId key = some value) :
    store.storedValue json agentId key = some value ∧
      ∃ row, store.memoryEntries.select (agentId, key) = some row ∧
        condition row = false := by
  rw [storedValue, stored, Table.select_deleteWhere] at found
  cases present : store.memoryEntries.select (agentId, key) with
  | none =>
      rw [present] at found
      cases found
  | some row =>
      rw [present, Option.filter_some] at found
      cases gone : condition row with
      | true =>
          rw [gone] at found
          cases found
      | false =>
          rw [gone] at found
          rw [storedValue, stored, present]
          exact ⟨found, row, rfl, gone⟩

theorem storedValue_of_pruneExpired {now : Nat} {agentId key : String}
    {value : Value}
    (found : (store.pruneExpired now).2.storedValue json agentId key =
      some value) :
    store.storedValue json agentId key = some value :=
  (storedValue_of_deleteWhere json store found).1

theorem storedValue_of_deleteNamespace {deleted agentId key : String}
    {value : Value}
    (found : (store.deleteNamespace deleted).2.storedValue json agentId key =
      some value) :
    store.storedValue json agentId key = some value ∧ agentId ≠ deleted := by
  obtain ⟨before, row, present, stays⟩ :=
    storedValue_of_deleteWhere json store found
  refine ⟨before, ?_⟩
  have address := Table.key_of_select present
  have sameAgent : row.agentId = agentId := congrArg Prod.fst address
  rw [← sameAgent]
  exact of_decide_eq_false stays

end Stored

end LongTermStore

end Ughi.Memory
