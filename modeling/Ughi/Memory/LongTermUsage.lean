import Ughi.Lib.LeastPrefix
import Ughi.Memory.Store

/-!
# The usage table

The usage row of an agent counts the rows that were written and their bytes.
It is right as long as no write replaces a row and no row is pruned.
-/

namespace Ughi.Memory

open Ughi.Lib

namespace LongTermStore

variable {Value : Type}

/-- The bytes that a write counts for its row. -/
def rowBytes (row : EntryRow) : Nat :=
  row.value.utf8ByteSize + (row.embedding.map List.length).getD 0

/-- The usage row of an agent; zeros when there is none. -/
def usageOf (store : LongTermStore) (agentId : String) : AgentUsage :=
  (store.agentUsage.lookup agentId).getD { bytesUsed := 0, entryCount := 0 }

/-- What the usage row of an agent should say. -/
def contentsOf (store : LongTermStore) (agentId : String) : AgentUsage :=
  { bytesUsed := totalOf rowBytes (store.namespaceRows agentId)
    entryCount := (store.namespaceRows agentId).length }

def addRow (usage : AgentUsage) (row : EntryRow) : AgentUsage :=
  { bytesUsed := usage.bytesUsed + rowBytes row
    entryCount := usage.entryCount + 1 }

section Rows

variable (store : LongTermStore)

theorem usageOf_addUsage (usage : HashMap String AgentUsage)
    (agentId other : String) (row : EntryRow) :
    ((addUsage usage agentId (rowBytes row)).lookup other).getD
        { bytesUsed := 0, entryCount := 0 } =
      if other = agentId then
        addRow ((usage.lookup other).getD
          { bytesUsed := 0, entryCount := 0 }) row
      else (usage.lookup other).getD
        { bytesUsed := 0, entryCount := 0 } := by
  rw [addUsage]
  cases found : usage.lookup agentId with
  | none =>
      dsimp only
      rw [HashMap.lookup_insert_eq]
      split
      next same =>
        rw [same, found]
        simp [addRow]
      · rfl
  | some counted =>
      dsimp only
      rw [HashMap.lookup_insert_eq]
      split
      next same =>
        rw [same, found]
        rfl
      · rfl

theorem namespaceRows_insert_new {row : EntryRow}
    (new : store.memoryEntries.select row.address = none)
    {usage : HashMap String AgentUsage} (agentId : String) :
    namespaceRows
        { memoryEntries := store.memoryEntries.insertOrReplace row
          agentUsage := usage } agentId =
      if agentId = row.agentId then store.namespaceRows agentId ++ [row]
      else store.namespaceRows agentId := by
  have absent := firstWith_eq_none_iff.mp new
  have kept : (store.memoryEntries.rows.filter fun other =>
      other.address ≠ row.address) = store.memoryEntries.rows := by
    apply List.filter_eq_self.mpr
    intro other member
    exact decide_eq_true (absent other member)
  rw [namespaceRows, Table.insertOrReplace]
  dsimp only
  rw [kept, List.filter_append, namespaceRows]
  split
  next same => simp [same]
  next different => simp [Ne.symm different]

theorem namespaceRows_insert_other {row : EntryRow} {agentId : String}
    (different : agentId ≠ row.agentId)
    {usage : HashMap String AgentUsage} :
    namespaceRows
        { memoryEntries := store.memoryEntries.insertOrReplace row
          agentUsage := usage } agentId =
      store.namespaceRows agentId := by
  rw [namespaceRows, Table.insertOrReplace]
  dsimp only
  rw [List.filter_append, List.filter_filter, namespaceRows]
  have none : [row].filter (fun row => decide (row.agentId = agentId)) =
      [] := by
    simp [Ne.symm different]
  rw [none, List.append_nil]
  apply List.filter_congr
  intro other _
  by_cases own : other.agentId = agentId
  · have distinct : other.address ≠ row.address := by
      intro same
      exact different (own.symm.trans (congrArg Prod.fst same))
    simp [own, distinct]
  · simp [own]

theorem length_namespaceRows_replace {row old : EntryRow}
    (found : store.memoryEntries.select row.address = some old)
    {usage : HashMap String AgentUsage} :
    (namespaceRows
        { memoryEntries := store.memoryEntries.insertOrReplace row
          agentUsage := usage } row.agentId).length =
      (store.namespaceRows row.agentId).length := by
  have address := Table.key_of_select found
  have ofAgent : old.agentId = row.agentId := congrArg Prod.fst address
  have parted := (perm_cons_filter_ne store.memoryEntries.unique
    found).filter fun other => decide (other.agentId = row.agentId)
  rw [List.filter_cons, if_pos (decide_eq_true ofAgent)] at parted
  rw [namespaceRows, Table.insertOrReplace]
  dsimp only
  rw [List.filter_append, List.length_append, namespaceRows,
    parted.length_eq]
  simp

end Rows

/-! ## Writes -/

section Writes

variable (json : SerdeJson Value) (store : LongTermStore)

theorem put_eq {entry : MemoryEntry Value} {text : String}
    (written : json.toString entry.value = .ok text) :
    store.put json entry =
      (.ok (),
        { memoryEntries :=
            store.memoryEntries.insertOrReplace (rowOf entry text)
          agentUsage := addUsage store.agentUsage entry.agentId
            (rowBytes (rowOf entry text)) }) := by
  rw [put, written]
  rfl

variable {json store}

theorem usageOf_put {entry : MemoryEntry Value} {text : String}
    (written : json.toString entry.value = .ok text) (agentId : String) :
    (store.put json entry).2.usageOf agentId =
      if agentId = entry.agentId then
        addRow (store.usageOf agentId) (rowOf entry text)
      else store.usageOf agentId := by
  rw [put_eq json store written]
  exact usageOf_addUsage store.agentUsage entry.agentId agentId
    (rowOf entry text)

theorem contentsOf_put_other (entry : MemoryEntry Value) {agentId : String}
    (different : agentId ≠ entry.agentId) :
    (store.put json entry).2.contentsOf agentId =
      store.contentsOf agentId := by
  cases written : json.toString entry.value with
  | error message => rw [put_error json store entry written]
  | ok text =>
      rw [put_eq json store written, contentsOf,
        namespaceRows_insert_other store
          (show agentId ≠ (rowOf entry text).agentId from different),
        contentsOf]

theorem contentsOf_put_new {entry : MemoryEntry Value} {text : String}
    (written : json.toString entry.value = .ok text)
    (new : store.memoryEntries.select (entry.agentId, entry.key) = none) :
    (store.put json entry).2.contentsOf entry.agentId =
      addRow (store.contentsOf entry.agentId) (rowOf entry text) := by
  rw [put_eq json store written, contentsOf]
  have appended := @namespaceRows_insert_new store (rowOf entry text) new
    (addUsage store.agentUsage entry.agentId (rowBytes (rowOf entry text)))
    entry.agentId
  have own : entry.agentId = (rowOf entry text).agentId := rfl
  rw [if_pos own] at appended
  dsimp only
  rw [appended, totalOf, List.map_append, List.sum_append, List.map_singleton,
    List.sum_singleton, List.length_append]
  rfl

theorem length_namespaceRows_put {entry : MemoryEntry Value} {text : String}
    (written : json.toString entry.value = .ok text) :
    ((store.put json entry).2.namespaceRows entry.agentId).length =
      (store.namespaceRows entry.agentId).length +
        if store.memoryEntries.select (entry.agentId, entry.key) = none
          then 1 else 0 := by
  cases found :
      store.memoryEntries.select (entry.agentId, entry.key) with
  | none =>
      have counted := congrArg AgentUsage.entryCount
        (contentsOf_put_new written found)
      simpa [contentsOf, addRow] using counted
  | some old =>
      have replaced := @length_namespaceRows_replace store (rowOf entry text)
        old found (addUsage store.agentUsage entry.agentId
          (rowBytes (rowOf entry text)))
      rw [put_eq json store written]
      exact replaced

end Writes

/-! ## Series of writes -/

section Series

variable (json : SerdeJson Value)

/-- A value that serde_json can write. -/
def HasText (entry : MemoryEntry Value) : Prop :=
  ∃ text, json.toString entry.value = .ok text

def writeAll (entries : List (MemoryEntry Value)) (store : LongTermStore) :
    LongTermStore :=
  entries.foldl (fun store entry => (store.put json entry).2) store

variable {json} {agentId : String} {entries : List (MemoryEntry Value)}

theorem writeAll_cons (entry : MemoryEntry Value) (store : LongTermStore) :
    writeAll json (entry :: entries) store =
      writeAll json entries (store.put json entry).2 :=
  rfl

theorem select_put {entry : MemoryEntry Value} (store : LongTermStore)
    (hasText : HasText json entry) (address : String × String) :
    (store.put json entry).2.memoryEntries.select address = none ↔
      address ≠ (entry.agentId, entry.key) ∧
        store.memoryEntries.select address = none := by
  obtain ⟨text, written⟩ := hasText
  rw [put_eq json store written, Table.select_insertOrReplace, rowOf_address]
  split
  next same => simp [same]
  next different => simp [different]

theorem usageOf_writeAll (hasText : ∀ entry ∈ entries, HasText json entry)
    (filed : ∀ entry ∈ entries, entry.agentId = agentId)
    (store : LongTermStore) :
    ((writeAll json entries store).usageOf agentId).entryCount =
      (store.usageOf agentId).entryCount + entries.length := by
  induction entries generalizing store with
  | nil => rfl
  | cons entry entries induction =>
      obtain ⟨text, written⟩ := hasText entry List.mem_cons_self
      have own := filed entry List.mem_cons_self
      have later := induction
        (fun other member => hasText other (List.mem_cons_of_mem _ member))
        (fun other member => filed other (List.mem_cons_of_mem _ member))
        (store.put json entry).2
      have counted : ((store.put json entry).2.usageOf agentId).entryCount =
          (store.usageOf agentId).entryCount + 1 := by
        rw [usageOf_put written, if_pos own.symm, addRow]
      rw [writeAll_cons, later, counted, List.length_cons]
      omega

theorem select_put_eq_none_iff {entry : MemoryEntry Value}
    (hasText : HasText json entry) (store : LongTermStore)
    (entries : List (MemoryEntry Value)) :
    (∀ other ∈ entries,
      (store.put json entry).2.memoryEntries.select
        (entry.agentId, other.key) = none) ↔
    (∀ other ∈ entries, store.memoryEntries.select
        (entry.agentId, other.key) = none) ∧
      entry.key ∉ entries.map MemoryEntry.key := by
  simp only [select_put store hasText, ne_eq, Prod.mk.injEq, true_and,
    List.mem_map, not_exists, not_and]
  constructor
  · intro both
    exact ⟨fun other member => (both other member).2,
      fun other member => (both other member).1⟩
  · rintro ⟨absent, different⟩ other member
    exact ⟨different other member, absent other member⟩

/-- As many rows are added as written exactly when the addresses are new and
distinct. -/
theorem length_namespaceRows_writeAll
    (hasText : ∀ entry ∈ entries, HasText json entry)
    (filed : ∀ entry ∈ entries, entry.agentId = agentId)
    (store : LongTermStore) :
    ((writeAll json entries store).namespaceRows agentId).length ≤
        (store.namespaceRows agentId).length + entries.length ∧
      (((writeAll json entries store).namespaceRows agentId).length =
          (store.namespaceRows agentId).length + entries.length ↔
        (∀ entry ∈ entries,
            store.memoryEntries.select (agentId, entry.key) = none) ∧
          (entries.map MemoryEntry.key).Nodup) := by
  induction entries generalizing store with
  | nil => simp [writeAll]
  | cons entry entries induction =>
      have headText := hasText entry List.mem_cons_self
      obtain ⟨text, written⟩ := headText
      have own := filed entry List.mem_cons_self
      subst own
      obtain ⟨most, exactly⟩ := induction
        (fun other member => hasText other (List.mem_cons_of_mem _ member))
        (fun other member => filed other (List.mem_cons_of_mem _ member))
        (store.put json entry).2
      have first := @length_namespaceRows_put _ json store entry text written
      rw [writeAll_cons, List.length_cons, List.map_cons, List.nodup_cons]
      by_cases new :
          store.memoryEntries.select (entry.agentId, entry.key) = none
      · rw [if_pos new] at first
        refine ⟨by omega, ?_⟩
        have shifted :
            ((writeAll json entries (store.put json entry).2).namespaceRows
                entry.agentId).length =
              (store.namespaceRows entry.agentId).length +
                (entries.length + 1) ↔
            ((writeAll json entries (store.put json entry).2).namespaceRows
                entry.agentId).length =
              ((store.put json entry).2.namespaceRows
                entry.agentId).length + entries.length := by
          omega
        rw [shifted, exactly]
        rw [select_put_eq_none_iff ⟨text, written⟩ store entries,
          List.forall_mem_cons]
        tauto
      · rw [if_neg new] at first
        refine ⟨by omega, ?_⟩
        rw [List.forall_mem_cons]
        constructor
        · intro grown
          omega
        · rintro ⟨⟨absent, -⟩, -⟩
          exact absurd absent new

theorem usageOf_eq_contentsOf_writeAll
    (hasText : ∀ entry ∈ entries, HasText json entry)
    (filed : ∀ entry ∈ entries, entry.agentId = agentId)
    (distinct : (entries.map MemoryEntry.key).Nodup)
    {store : LongTermStore}
    (new : ∀ entry ∈ entries,
      store.memoryEntries.select (agentId, entry.key) = none)
    (right : store.usageOf agentId = store.contentsOf agentId) :
    (writeAll json entries store).usageOf agentId =
      (writeAll json entries store).contentsOf agentId := by
  induction entries generalizing store with
  | nil => exact right
  | cons entry entries induction =>
      obtain ⟨text, written⟩ := hasText entry List.mem_cons_self
      have own := filed entry List.mem_cons_self
      subst own
      rw [List.map_cons, List.nodup_cons] at distinct
      apply induction
      · exact fun other member =>
          hasText other (List.mem_cons_of_mem _ member)
      · exact fun other member => filed other (List.mem_cons_of_mem _ member)
      · exact distinct.2
      · intro other member
        apply (select_put store ⟨text, written⟩ _).mpr
        refine ⟨?_, new other (List.mem_cons_of_mem _ member)⟩
        intro same
        apply distinct.1
        rw [← (Prod.mk.inj same).2]
        exact List.mem_map_of_mem member
      · rw [usageOf_put written, if_pos rfl,
          contentsOf_put_new written (new entry List.mem_cons_self), right]

theorem usageOf_writeAll_other
    (hasText : ∀ entry ∈ entries, HasText json entry)
    (filed : ∀ entry ∈ entries, entry.agentId = agentId)
    {other : String} (different : other ≠ agentId) (store : LongTermStore) :
    (writeAll json entries store).usageOf other = store.usageOf other ∧
      (writeAll json entries store).contentsOf other =
        store.contentsOf other := by
  induction entries generalizing store with
  | nil => exact ⟨rfl, rfl⟩
  | cons entry entries induction =>
      obtain ⟨text, written⟩ := hasText entry List.mem_cons_self
      have own := filed entry List.mem_cons_self
      have foreign : other ≠ entry.agentId := by
        rw [own]
        exact different
      obtain ⟨usage, contents⟩ := induction
        (fun next member => hasText next (List.mem_cons_of_mem _ member))
        (fun next member => filed next (List.mem_cons_of_mem _ member))
        (store.put json entry).2
      rw [writeAll_cons, usage, contents, usageOf_put written,
        if_neg foreign, contentsOf_put_other entry foreign]
      exact ⟨rfl, rfl⟩

end Series

/-! ## Reads and deletions -/

section Others

variable (store : LongTermStore)

theorem contentsOf_congr {before after : LongTermStore}
    (same : after.memoryEntries.rows.map
        (fun row => (row.agentId, rowBytes row)) =
      before.memoryEntries.rows.map
        fun row => (row.agentId, rowBytes row)) (agentId : String) :
    after.contentsOf agentId = before.contentsOf agentId := by
  have sizes : ∀ store : LongTermStore,
      (store.namespaceRows agentId).map rowBytes =
        ((store.memoryEntries.rows.map
          fun row => (row.agentId, rowBytes row)).filter
            fun pair => pair.1 = agentId).map Prod.snd := by
    intro store
    rw [List.filter_map, List.map_map]
    rfl
  have rows := sizes after
  rw [same, ← sizes before] at rows
  have counted := congrArg List.length rows
  rw [List.length_map, List.length_map] at counted
  rw [contentsOf, contentsOf, totalOf, totalOf, rows, counted]

theorem books_get {Value : Type} (json : SerdeJson Value)
    (asked key : String) (now : Nat) (agentId : String) :
    (store.get json asked key now).2.usageOf agentId =
        store.usageOf agentId ∧
      (store.get json asked key now).2.contentsOf agentId =
        store.contentsOf agentId := by
  rw [get]
  split
  · exact ⟨rfl, rfl⟩
  · split
    · exact ⟨rfl, rfl⟩
    · refine ⟨rfl, ?_⟩
      apply contentsOf_congr
      apply map_modifyFirst_of_kept
      intro row
      rfl

/-- No row is older than the retention period. -/
def NoneExpired (now : Nat) : Prop :=
  ∀ row ∈ store.memoryEntries.rows, ¬ row.createdAt < now - retentionMs

/-- Pruning changes the contents of no agent exactly when it deletes no
row. -/
theorem contentsOf_pruneExpired_iff (now : Nat) :
    (∀ agentId, (store.pruneExpired now).2.contentsOf agentId =
        store.contentsOf agentId) ↔
      store.NoneExpired now := by
  constructor
  · intro same row member expired
    have lengths := congrArg AgentUsage.entryCount (same row.agentId)
    rw [contentsOf, contentsOf, pruneExpired, namespaceRows,
      Table.deleteWhere, List.filter_comm, ← namespaceRows] at lengths
    have all := List.length_filter_eq_length_iff.mp lengths
    have inside : row ∈ store.namespaceRows row.agentId :=
      List.mem_filter.mpr ⟨member, decide_eq_true rfl⟩
    have stays := all row inside
    simp [expired] at stays
  · intro recent agentId
    have kept : (store.memoryEntries.rows.filter fun row =>
        !decide (row.createdAt < now - retentionMs)) =
          store.memoryEntries.rows := by
      apply List.filter_eq_self.mpr
      intro row member
      rw [decide_eq_false (recent row member)]
      rfl
    apply contentsOf_congr
    rw [pruneExpired, Table.deleteWhere]
    dsimp only
    rw [kept]

theorem books_deleteNamespace (deleted agentId : String) :
    (store.deleteNamespace deleted).2.usageOf agentId =
        (if agentId = deleted then { bytesUsed := 0, entryCount := 0 }
          else store.usageOf agentId) ∧
      (store.deleteNamespace deleted).2.contentsOf agentId =
        if agentId = deleted then { bytesUsed := 0, entryCount := 0 }
        else store.contentsOf agentId := by
  constructor
  · rw [deleteNamespace, usageOf, HashMap.lookup_erase_eq]
    split
    · rfl
    · rfl
  · have rows : (store.deleteNamespace deleted).2.namespaceRows agentId =
        if agentId = deleted then [] else store.namespaceRows agentId := by
      rw [deleteNamespace, namespaceRows, Table.deleteWhere,
        List.filter_filter]
      split
      next same =>
        apply List.filter_eq_nil_iff.mpr
        intro row _
        simp [same]
      next different =>
        apply List.filter_congr
        intro row _
        by_cases own : row.agentId = agentId
        · simp [own, different]
        · simp [own]
    rw [contentsOf, rows]
    split
    · rfl
    · rfl

end Others

end LongTermStore

end Ughi.Memory
