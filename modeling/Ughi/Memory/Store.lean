import Ughi.Lib.Run
import Ughi.Memory.LongTerm
import Ughi.Memory.ShortTerm

/-!
# The hierarchical store

The facade over both tiers and the registry of namespaces.  Writes go to one
tier, promotion copies entries to the long-term tier, and a read asks the
short-term tier first.
-/

namespace Ughi.Memory

open Ughi.Lib

def promotionThreshold : Nat := 3

structure Namespace where
  agentId : String
  shortTermEntries : Nat := 0
  longTermEntries : Nat := 0
  shortTermBytes : Nat := 0
  longTermBytes : Nat := 0
  totalQueries : Nat := 0
  promotions : Nat := 0
deriving DecidableEq, Repr

abbrev NamespaceRegistry : Type := HashMap String Namespace

/-- Change an agent's namespace, which is created when missing. -/
def NamespaceRegistry.ensure (registry : NamespaceRegistry)
    (agentId : String) (change : Namespace → Namespace) :
    NamespaceRegistry :=
  registry.insert agentId
    (change ((registry.lookup agentId).getD { agentId := agentId }))

structure MemoryStore (Value : Type) where
  short : ShortTermStore Value
  long : LongTermStore
  registry : NamespaceRegistry

namespace MemoryStore

variable {Value Score : Type}

def inMemory : MemoryStore Value :=
  { short := .new
    long := .new
    registry := ∅ }

/-- What both forms of `put` do once the entry is built. -/
def putEntry (json : SerdeJson Value) (store : MemoryStore Value)
    (entry : MemoryEntry Value) (order : List String) :
    MemoryResult Unit × MemoryStore Value :=
  let registry := store.registry.ensure entry.agentId fun ns =>
    { ns with
      shortTermEntries := ns.shortTermEntries + 1
      shortTermBytes := ns.shortTermBytes + entry.estimatedBytes json }
  let written := store.short.put json entry order
  (written.1, { store with short := written.2, registry := registry })

def put (json : SerdeJson Value) (store : MemoryStore Value)
    (agentId key : String) (value : Value) (now : Nat)
    (order : List String) : MemoryResult Unit × MemoryStore Value :=
  store.putEntry json (.newShort agentId key value now) order

def putWithEmbedding (json : SerdeJson Value) (store : MemoryStore Value)
    (agentId key : String) (value : Value) (embedding : List UInt32)
    (now : Nat) (order : List String) :
    MemoryResult Unit × MemoryStore Value :=
  store.putEntry json
    { MemoryEntry.newShort agentId key value now with
      embedding := some embedding } order

def persist (json : SerdeJson Value) (store : MemoryStore Value)
    (agentId key : String) (value : Value) (now : Nat) :
    MemoryResult Unit × MemoryStore Value :=
  let registry := store.registry.ensure agentId fun ns =>
    { ns with longTermEntries := ns.longTermEntries + 1 }
  let written := store.long.put json (.newShort agentId key value now)
  (written.1, { store with long := written.2, registry := registry })

def get (json : SerdeJson Value) (store : MemoryStore Value)
    (agentId key : String) (now : Nat) :
    MemoryResult (MemoryEntry Value) × MemoryStore Value :=
  match store.short.get agentId key now with
  | (.ok entry, short) => (.ok entry, { store with short := short })
  | (.error _, short) =>
      let answer := store.long.get json agentId key now
      (answer.1, { store with short := short, long := answer.2 })

def «recall» (json : SerdeJson Value) (sim : Similarity Score)
    (orderBy : OrderByRecency) (store : MemoryStore Value)
    (agentId queryText : String) (clock : Nat → Nat) :
    MemoryResult (List (SearchResult Value Score)) × MemoryStore Value :=
  let embedding := sim.simpleTextEmbedding queryText 128
  let query :=
    ((MemoryQuery.byAgent sim agentId).withEmbedding embedding).withLimit 10
  let registry := store.registry.ensure agentId fun ns =>
    { ns with totalQueries := ns.totalQueries + 1 }
  let searched := store.short.search sim query clock
  let longResults := store.long.search json sim orderBy query
  let sorted := (searched.1 ++ longResults).insertionSort
    fun left right => left.compareSimilarity sim right ≠ .gt
  (.ok (sorted.take query.limit),
    { store with short := searched.2, registry := registry })

/-- Write each entry to the long-term tier; the first error ends the loop. -/
def promoteEach (json : SerdeJson Value) :
    List (MemoryEntry Value) → Nat → LongTermStore →
      MemoryResult Nat × LongTermStore
  | [], promoted, long => (.ok promoted, long)
  | entry :: rest, promoted, long =>
      match long.put json entry with
      | (.error error, long) => (.error error, long)
      | (.ok _, long) => promoteEach json rest (promoted + 1) long

def promote (json : SerdeJson Value) (store : MemoryStore Value)
    (agentId : String) : MemoryResult Nat × MemoryStore Value :=
  let promotable := store.short.getPromotable agentId promotionThreshold
  match promoteEach json promotable 0 store.long with
  | (.error error, long) => (.error error, { store with long := long })
  | (.ok promoted, long) =>
      let registry :=
        if promoted > 0 then
          store.registry.ensure agentId fun ns =>
            { ns with
              promotions := ns.promotions + promoted
              longTermEntries := ns.longTermEntries + promoted }
        else store.registry
      (.ok promoted, { store with long := long, registry := registry })

def prune (store : MemoryStore Value) (now : Nat) :
    MemoryResult Nat × MemoryStore Value :=
  let pruned := store.long.pruneExpired now
  (pruned.1, { store with long := pruned.2 })

def deleteAgent (json : SerdeJson Value) (store : MemoryStore Value)
    (agentId : String) : MemoryResult Unit × MemoryStore Value :=
  let short := store.short.deleteNamespace json agentId
  match store.long.deleteNamespace agentId with
  | (.error error, long) =>
      (.error error, { store with short := short, long := long })
  | (.ok _, long) =>
      (.ok (),
        { short := short
          long := long
          registry := store.registry.erase agentId })

/-- The calls a store serves.  `now` and `clock` are clock readings, `order`
the iteration order of the short-term hash map. -/
inductive Call (Value : Type) where
  | put (agentId key : String) (value : Value) (now : Nat)
      (order : List String)
  | putWithEmbedding (agentId key : String) (value : Value)
      (embedding : List UInt32) (now : Nat) (order : List String)
  | persist (agentId key : String) (value : Value) (now : Nat)
  | promote (agentId : String)
  | get (agentId key : String) (now : Nat)
  | «recall» (agentId queryText : String) (clock : Nat → Nat)
  | prune (now : Nat)
  | deleteAgent (agentId : String)

/-- The store after a call. -/
def serve (json : SerdeJson Value) (sim : Similarity Score)
    (orderBy : OrderByRecency) (store : MemoryStore Value) :
    Call Value → MemoryStore Value
  | .put agentId key value now order =>
      (store.put json agentId key value now order).2
  | .putWithEmbedding agentId key value embedding now order =>
      (store.putWithEmbedding json agentId key value embedding now order).2
  | .persist agentId key value now =>
      (store.persist json agentId key value now).2
  | .promote agentId => (store.promote json agentId).2
  | .get agentId key now => (store.get json agentId key now).2
  | .«recall» agentId queryText clock =>
      (store.recall json sim orderBy agentId queryText clock).2
  | .prune now => (store.prune now).2
  | .deleteAgent agentId => (store.deleteAgent json agentId).2

theorem putEntry_short (json : SerdeJson Value) (store : MemoryStore Value)
    (entry : MemoryEntry Value) (order : List String) :
    (store.putEntry json entry order).2.short =
      (store.short.put json entry order).2 :=
  rfl

theorem putEntry_long (json : SerdeJson Value) (store : MemoryStore Value)
    (entry : MemoryEntry Value) (order : List String) :
    (store.putEntry json entry order).2.long = store.long :=
  rfl

theorem putEntry_result (json : SerdeJson Value) (store : MemoryStore Value)
    (entry : MemoryEntry Value) (order : List String) :
    (store.putEntry json entry order).1 = .ok () :=
  rfl

/-- A read leaves the short-term tier as its own read does, and the long-term
tier alone or as its own read does. -/
theorem get_tiers (json : SerdeJson Value) (store : MemoryStore Value)
    (agentId key : String) (now : Nat) :
    (store.get json agentId key now).2.short =
        (store.short.get agentId key now).2 ∧
      ((store.get json agentId key now).2.long = store.long ∨
        (store.get json agentId key now).2.long =
          (store.long.get json agentId key now).2) := by
  rw [get]
  split
  next entry short asked =>
    rw [asked]
    exact ⟨rfl, .inl rfl⟩
  next error short asked =>
    rw [asked]
    exact ⟨rfl, .inr rfl⟩

theorem promote_tiers (json : SerdeJson Value) (store : MemoryStore Value)
    (agentId : String) :
    (store.promote json agentId).2.short = store.short ∧
      (store.promote json agentId).2.long =
        (promoteEach json
          (store.short.getPromotable agentId promotionThreshold) 0
          store.long).2 := by
  rw [promote]
  split
  next error long written =>
    rw [written]
    exact ⟨rfl, rfl⟩
  next promoted long written =>
    rw [written]
    exact ⟨rfl, rfl⟩

theorem storedValue_promoteEach (json : SerdeJson Value)
    {agentId key : String} {entries : List (MemoryEntry Value)}
    (untouched : ∀ entry ∈ entries,
      ¬ (agentId = entry.agentId ∧ key = entry.key))
    (promoted : Nat) (long : LongTermStore) :
    (promoteEach json entries promoted long).2.storedValue json agentId key =
      long.storedValue json agentId key := by
  induction entries generalizing promoted long with
  | nil => rfl
  | cons entry rest induction =>
      have other := long.storedValue_put_other json entry
        (untouched entry List.mem_cons_self)
      have later := induction fun next member =>
        untouched next (List.mem_cons_of_mem entry member)
      rw [promoteEach]
      split
      next written =>
        rw [written] at other
        exact other
      next written =>
        rw [written] at other
        rw [later, other]

/-! ## What a read answers -/

/-- The value a read of a key answers with, if it answers. -/
def currentValue (json : SerdeJson Value) (store : MemoryStore Value)
    (agentId key : String) : Option Value :=
  match held store.short.entries agentId key with
  | some entry => some entry.value
  | none => store.long.storedValue json agentId key

variable (json : SerdeJson Value) {store : MemoryStore Value}

theorem currentValue_of_held {agentId key : String}
    {entry : MemoryEntry Value}
    (found : held store.short.entries agentId key = some entry) :
    store.currentValue json agentId key = some entry.value := by
  rw [currentValue, found]

theorem currentValue_of_missing {agentId key : String}
    (missing : held store.short.entries agentId key = none) :
    store.currentValue json agentId key =
      store.long.storedValue json agentId key := by
  rw [currentValue, missing]

/-- The current value depends on the values held, not on their use. -/
theorem currentValue_congr (store next : MemoryStore Value)
    {agentId key : String}
    (sameShort :
      (held next.short.entries agentId key).map MemoryEntry.value =
        (held store.short.entries agentId key).map MemoryEntry.value)
    {value : Value}
    (fades : next.long.storedValue json agentId key = some value →
      store.long.storedValue json agentId key = some value)
    (found : next.currentValue json agentId key = some value) :
    store.currentValue json agentId key = some value := by
  cases before : held store.short.entries agentId key with
  | some entry =>
      rw [before] at sameShort
      obtain ⟨other, present, sameValue⟩ :=
        Option.map_eq_some_iff.mp sameShort
      rw [currentValue_of_held json present, sameValue] at found
      rw [currentValue_of_held json before, found]
  | none =>
      rw [before, Option.map_none, Option.map_eq_none_iff] at sameShort
      rw [currentValue_of_missing json sameShort] at found
      rw [currentValue_of_missing json before]
      exact fades found

theorem get_of_held {agentId key : String} (now : Nat)
    {entry : MemoryEntry Value}
    (found : held store.short.entries agentId key = some entry) :
    (store.get json agentId key now).1 = .ok (entry.touch now) := by
  have asked := store.short.get_of_held now found
  cases answer : store.short.get agentId key now with
  | mk result short =>
      rw [answer] at asked
      cases asked
      rw [get, answer]

theorem get_of_missing {agentId key : String} (now : Nat)
    (missing : held store.short.entries agentId key = none) :
    (store.get json agentId key now).1 =
      (store.long.get json agentId key now).1 := by
  rw [get, store.short.get_of_missing now missing]

section Persist

variable (store) (agentId key : String) (value : Value) (now : Nat)

theorem currentValue_persist_self {text : String}
    (encoded : json.toString value = .ok text) :
    (store.persist json agentId key value now).2.currentValue json agentId
        key =
      match held store.short.entries agentId key with
      | some entry => some entry.value
      | none => some ((json.fromStr text).getD json.null) := by
  have self := store.long.storedValue_put_self json
    (.newShort agentId key value now) encoded (Nat.two_pow_pos 32)
  rw [currentValue, ← self]
  rfl

theorem currentValue_persist_other {other otherKey : String}
    (different : ¬ (other = agentId ∧ otherKey = key)) :
    (store.persist json agentId key value now).2.currentValue json other
        otherKey =
      store.currentValue json other otherKey := by
  have kept := store.long.storedValue_put_other json
    (.newShort agentId key value now) different
  rw [currentValue, currentValue, ← kept]
  rfl

/-- A value that has no JSON text is refused, and changes no value. -/
theorem persist_error {message : String}
    (refused : json.toString value = .error message) :
    (store.persist json agentId key value now).1 =
        .error (.serialization message) ∧
      ∀ other otherKey,
        (store.persist json agentId key value now).2.currentValue json other
            otherKey =
          store.currentValue json other otherKey := by
  have unchanged := store.long.put_error json
    (.newShort agentId key value now) refused
  rw [persist, unchanged]
  exact ⟨rfl, fun _ _ => rfl⟩

theorem persist_ok {text : String}
    (encoded : json.toString value = .ok text) :
    (store.persist json agentId key value now).1 = .ok () :=
  store.long.put_ok json (.newShort agentId key value now) encoded

end Persist

theorem get_value_iff {agentId key : String} {value : Value} (now : Nat) :
    (∃ entry, (store.get json agentId key now).1 = .ok entry ∧
        entry.value = value) ↔
      store.currentValue json agentId key = some value := by
  cases present : held store.short.entries agentId key with
  | some found =>
      rw [get_of_held json now present, currentValue_of_held json present]
      simp
  | none =>
      rw [get_of_missing json now present,
        currentValue_of_missing json present, LongTermStore.storedValue,
        Option.map_eq_some_iff]
      simp only [LongTermStore.get_eq_ok_iff]

end MemoryStore

end Ughi.Memory
