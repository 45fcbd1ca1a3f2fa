import Ughi.Memory.Store

/-!
# Which reads answer with the last write

A value written to one tier does not replace the copy in the other.  A read
can therefore answer with an older value in two ways: `persist` writes behind
a short-term entry that keeps another value, or an eviction uncovers a
long-term row that holds another value than the evicted entry.
`KeepsCurrent` excludes exactly these, and a value whose JSON text decodes to
another value.
-/

namespace Ughi.Memory

open Ughi.Lib

namespace MemoryStore

/-- A store, and the value last written to each key of each agent. -/
structure Tracked (Value : Type) where
  store : MemoryStore Value
  written : String → String → Option Value

variable {Value Score : Type}

def Tracked.fresh : Tracked Value :=
  { store := .inMemory
    written := fun _ _ => none }

/-- Note a write that succeeded. -/
def noteWrite (result : MemoryResult Unit) (agentId key : String)
    (value : Value) (written : String → String → Option Value) :
    String → String → Option Value :=
  match result with
  | .error _ => written
  | .ok _ => fun other otherKey =>
      if other = agentId ∧ otherKey = key then some value
      else written other otherKey

/-- The last writes after a call. -/
def track (json : SerdeJson Value) (state : Tracked Value) :
    Call Value → String → String → Option Value
  | .put agentId key value now order =>
      noteWrite (state.store.put json agentId key value now order).1
        agentId key value state.written
  | .putWithEmbedding agentId key value embedding now order =>
      noteWrite
        (state.store.putWithEmbedding json agentId key value embedding now
          order).1
        agentId key value state.written
  | .persist agentId key value now =>
      noteWrite (state.store.persist json agentId key value now).1
        agentId key value state.written
  | _ => state.written

def serveTracked (json : SerdeJson Value) (sim : Similarity Score)
    (orderBy : OrderByRecency) (state : Tracked Value) (call : Call Value) :
    Tracked Value :=
  { store := state.store.serve json sim orderBy call
    written := track json state call }

/-- Whatever a read answers with was written last. -/
def ReadsLastWrite (json : SerdeJson Value) (state : Tracked Value) : Prop :=
  ∀ agentId key now entry,
    (state.store.get json agentId key now).1 = .ok entry →
      state.written agentId key = some entry.value

/-- The write evicts no other entry whose long-term row holds another
value. -/
def UncoversNone (json : SerdeJson Value) (store : MemoryStore Value)
    (entry : MemoryEntry Value) (order : List String) : Prop :=
  ∀ agentId key, ¬ (agentId = entry.agentId ∧ key = entry.key) →
    ∀ evicted, held store.short.entries agentId key = some evicted →
      held (store.short.put json entry order).2.entries agentId key = none →
        ∀ value, store.long.storedValue json agentId key = some value →
          value = evicted.value

/-- A value written to the long-term tier is the one its key then reads as:
the short-term entry of the key holds it, or there is no such entry and the
JSON text of the value decodes to it. -/
def PersistsVisibly (json : SerdeJson Value) (store : MemoryStore Value)
    (agentId key : String) (value : Value) : Prop :=
  ∀ text, json.toString value = .ok text →
    match held store.short.entries agentId key with
    | some entry => entry.value = value
    | none => (json.fromStr text).getD json.null = value

/-- The calls after which reads still answer with the last write. -/
def KeepsCurrent (json : SerdeJson Value) (state : Tracked Value) :
    Call Value → Prop
  | .put agentId key value now order =>
      UncoversNone json state.store (.newShort agentId key value now) order
  | .putWithEmbedding agentId key value embedding now order =>
      UncoversNone json state.store
        { MemoryEntry.newShort agentId key value now with
          embedding := some embedding } order
  | .persist agentId key value _ =>
      PersistsVisibly json state.store agentId key value
  | _ => True

section Steps

variable (json : SerdeJson Value) (sim : Similarity Score)
  (orderBy : OrderByRecency) {state : Tracked Value}

theorem readsLastWrite_iff :
    ReadsLastWrite json state ↔
      ∀ agentId key value,
        state.store.currentValue json agentId key = some value →
          state.written agentId key = some value := by
  constructor
  · intro reads agentId key value current
    obtain ⟨entry, answered, same⟩ :=
      (get_value_iff json 0).mpr current
    rw [reads agentId key 0 entry answered, same]
  · intro current agentId key now entry answered
    apply current
    exact (get_value_iff json now).mp ⟨entry, answered, rfl⟩

/-- A call that writes nothing and after which only values that were current
before are current keeps the property. -/
theorem ReadsLastWrite.fade (reads : ReadsLastWrite json state)
    {next : MemoryStore Value}
    (fades : ∀ agentId key value,
      next.currentValue json agentId key = some value →
        state.store.currentValue json agentId key = some value) :
    ReadsLastWrite json { store := next, written := state.written } := by
  apply (readsLastWrite_iff json).mpr
  intro agentId key value current
  have before := fades agentId key value current
  exact (readsLastWrite_iff json).mp reads agentId key value before

theorem noteWrite_ok {agentId key other otherKey : String} {value : Value}
    {written : String → String → Option Value} :
    noteWrite (.ok ()) agentId key value written other otherKey =
      if other = agentId ∧ otherKey = key then some value
      else written other otherKey :=
  rfl

/-- A write that uncovers nothing makes no other value current. -/
theorem putEntry_currentValue_other
    (indexed : Indexed state.store.short.entries) {entry : MemoryEntry Value}
    {order : List String}
    (uncovers : UncoversNone json state.store entry order)
    {agentId key : String} {value : Value}
    (different : ¬ (agentId = entry.agentId ∧ key = entry.key))
    (current : (state.store.putEntry json entry order).2.currentValue json
      agentId key = some value) :
    state.store.currentValue json agentId key = some value := by
  cases after : held (state.store.putEntry json entry order).2.short.entries
      agentId key with
  | some other =>
      rw [currentValue_of_held json after] at current
      rw [putEntry_short] at after
      have present := ShortTermStore.held_put_other json state.store.short
        entry order indexed different after
      rw [currentValue_of_held json present, current]
  | none =>
      rw [currentValue_of_missing json after, putEntry_long] at current
      rw [putEntry_short] at after
      cases present : held state.store.short.entries agentId key with
      | some evicted =>
          rw [uncovers agentId key different evicted present after value
            current]
          exact currentValue_of_held json present
      | none => rw [currentValue_of_missing json present, current]

theorem putEntry_readsLastWrite_iff
    (indexed : Indexed state.store.short.entries)
    (reads : ReadsLastWrite json state) (entry : MemoryEntry Value)
    (order : List String) :
    ReadsLastWrite json
        { store := (state.store.putEntry json entry order).2
          written := noteWrite (state.store.putEntry json entry order).1
            entry.agentId entry.key entry.value state.written } ↔
      UncoversNone json state.store entry order := by
  have before := (readsLastWrite_iff json).mp reads
  rw [readsLastWrite_iff, putEntry_result]
  dsimp only
  constructor
  · intro after agentId key different evicted present gone value uncovered
    have current : (state.store.putEntry json entry order).2.currentValue
        json agentId key = some value := by
      rw [← putEntry_short json state.store] at gone
      rw [currentValue_of_missing json gone, putEntry_long]
      exact uncovered
    have kept := after agentId key value current
    have lastWrite := before agentId key evicted.value
      (currentValue_of_held json present)
    rw [noteWrite_ok, if_neg different, lastWrite] at kept
    exact (Option.some.inj kept).symm
  · intro uncovers agentId key value current
    rw [noteWrite_ok]
    split
    next same =>
      obtain ⟨rfl, rfl⟩ := same
      have found := ShortTermStore.held_put_self json state.store.short
        entry order
      rw [← putEntry_short json state.store] at found
      rw [currentValue_of_held json found] at current
      exact current
    next different =>
      apply before agentId key value
      exact putEntry_currentValue_other json indexed uncovers different current

theorem exists_currentValue_persist (store : MemoryStore Value)
    (agentId key : String) (value : Value) (now : Nat) {text : String}
    (encoded : json.toString value = .ok text) :
    ∃ shown,
      (store.persist json agentId key value now).2.currentValue json agentId
        key = some shown := by
  rw [store.currentValue_persist_self json agentId key value now encoded]
  cases held store.short.entries agentId key with
  | some entry => exact ⟨entry.value, rfl⟩
  | none => exact ⟨_, rfl⟩

theorem persistsVisibly_iff (store : MemoryStore Value)
    (agentId key : String) (value : Value) (now : Nat) {text : String}
    (encoded : json.toString value = .ok text) :
    PersistsVisibly json store agentId key value ↔
      (store.persist json agentId key value now).2.currentValue json agentId
        key = some value := by
  rw [store.currentValue_persist_self json agentId key value now encoded,
    PersistsVisibly]
  cases held store.short.entries agentId key with
  | some entry =>
      constructor
      · intro visible
        exact congrArg some (visible text encoded)
      · intro shown _ _
        exact Option.some.inj shown
  | none =>
      constructor
      · intro visible
        exact congrArg some (visible text encoded)
      · intro shown other written
        rw [encoded] at written
        cases written
        exact Option.some.inj shown

theorem persist_readsLastWrite_iff (reads : ReadsLastWrite json state)
    (agentId key : String) (value : Value) (now : Nat) :
    ReadsLastWrite json
        { store := (state.store.persist json agentId key value now).2
          written :=
            noteWrite (state.store.persist json agentId key value now).1
              agentId key value state.written } ↔
      PersistsVisibly json state.store agentId key value := by
  have before := (readsLastWrite_iff json).mp reads
  cases encoded : json.toString value with
  | error message =>
      obtain ⟨refused, unchanged⟩ :=
        state.store.persist_error json agentId key value now encoded
      constructor
      · intro _ text written
        rw [encoded] at written
        cases written
      · intro _
        rw [refused]
        apply reads.fade
        intro other otherKey found current
        rwa [unchanged] at current
  | ok text =>
      rw [readsLastWrite_iff,
        persistsVisibly_iff json state.store agentId key value now encoded,
        state.store.persist_ok json agentId key value now encoded]
      dsimp only
      constructor
      · intro after
        obtain ⟨shown, current⟩ := exists_currentValue_persist json
          state.store agentId key value now encoded
        have last := after agentId key shown current
        rw [noteWrite_ok, if_pos ⟨rfl, rfl⟩] at last
        rw [current, last]
      · intro visible other otherKey found current
        rw [noteWrite_ok]
        split
        next same =>
          obtain ⟨rfl, rfl⟩ := same
          rw [← visible, current]
        next different =>
          rw [state.store.currentValue_persist_other json agentId key value
            now different] at current
          exact before other otherKey found current

theorem promote_currentValue (indexed : Indexed state.store.short.entries)
    (promoted agentId key : String) {value : Value}
    (current : (state.store.promote json promoted).2.currentValue json
      agentId key = some value) :
    state.store.currentValue json agentId key = some value := by
  obtain ⟨sameShort, long⟩ := promote_tiers json state.store promoted
  cases present : held state.store.short.entries agentId key with
  | some entry =>
      rw [currentValue_of_held json present]
      rw [← sameShort] at present
      rw [← current, currentValue_of_held json present]
  | none =>
      -- No promoted entry has this key, since the store does not hold it.
      have untouched : ∀ entry ∈ state.store.short.getPromotable promoted
          promotionThreshold,
          ¬ (agentId = entry.agentId ∧ key = entry.key) := by
        rintro entry member ⟨rfl, rfl⟩
        have inside := List.mem_of_mem_filter member
        rw [indexed.filed promoted entry inside] at present
        exact firstWith_eq_none_iff.mp present entry inside rfl
      have sameLong := storedValue_promoteEach json untouched 0
        state.store.long
      rw [currentValue_of_missing json present, ← sameLong, ← long]
      rw [← sameShort] at present
      rw [← current, currentValue_of_missing json present]

theorem get_currentValue {asked askedKey agentId key : String} {now : Nat}
    {value : Value}
    (current : (state.store.get json asked askedKey now).2.currentValue json
      agentId key = some value) :
    state.store.currentValue json agentId key = some value := by
  obtain ⟨short, long⟩ := get_tiers json state.store asked askedKey now
  apply currentValue_congr json state.store _ _ _ current
  · rw [short]
    exact held_value_of_touched
      (state.store.short.touched_get asked askedKey now) agentId key
  · intro found
    rcases long with same | read
    · rwa [same] at found
    · rw [read] at found
      exact LongTermStore.storedValue_of_get json _ found

theorem deleteAgent_currentValue
    (indexed : Indexed state.store.short.entries)
    {deleted agentId key : String} {value : Value}
    (current : (state.store.deleteAgent json deleted).2.currentValue json
      agentId key = some value) :
    state.store.currentValue json agentId key = some value := by
  have thinned :=
    ShortTermStore.thinned_deleteNamespace json state.store.short deleted
  cases after : held (state.store.deleteAgent json deleted).2.short.entries
      agentId key with
  | some entry =>
      rw [currentValue_of_held json after] at current
      have present := held_of_thinned indexed thinned after
      rw [currentValue_of_held json present, current]
  | none =>
      rw [currentValue_of_missing json after] at current
      obtain ⟨found, different⟩ :=
        LongTermStore.storedValue_of_deleteNamespace json _ current
      have missing : held state.store.short.entries agentId key = none := by
        have bucket := ShortTermStore.entriesOf_deleteNamespace json
          state.store.short deleted agentId
        rw [if_neg different] at bucket
        rw [held, ← bucket]
        exact after
      rw [currentValue_of_missing json missing, found]

theorem serveTracked_readsLastWrite_iff
    (indexed : Indexed state.store.short.entries)
    (reads : ReadsLastWrite json state) (call : Call Value) :
    ReadsLastWrite json (serveTracked json sim orderBy state call) ↔
      KeepsCurrent json state call := by
  cases call with
  | put agentId key value now order =>
      exact putEntry_readsLastWrite_iff json indexed reads
        (.newShort agentId key value now) order
  | putWithEmbedding agentId key value embedding now order =>
      exact putEntry_readsLastWrite_iff json indexed reads
        { MemoryEntry.newShort agentId key value now with
          embedding := some embedding } order
  | persist agentId key value now =>
      exact persist_readsLastWrite_iff json reads agentId key value now
  | promote promoted =>
      refine iff_of_true ?_ trivial
      apply reads.fade
      intro agentId key value
      exact promote_currentValue json indexed promoted agentId key
  | get asked askedKey now =>
      refine iff_of_true ?_ trivial
      apply reads.fade
      intro agentId key value
      exact get_currentValue json
  | «recall» asked queryText clock =>
      refine iff_of_true ?_ trivial
      apply reads.fade
      intro agentId key value current
      apply currentValue_congr json state.store
        (state.store.recall json sim orderBy asked queryText clock).2 _ id
        current
      exact held_value_of_touched
        (state.store.short.touched_search sim _ clock) agentId key
  | prune now =>
      refine iff_of_true ?_ trivial
      apply reads.fade
      intro agentId key value current
      apply currentValue_congr json state.store (state.store.prune now).2
        rfl _ current
      exact LongTermStore.storedValue_of_pruneExpired json _
  | deleteAgent deleted =>
      refine iff_of_true ?_ trivial
      apply reads.fade
      intro agentId key value
      exact deleteAgent_currentValue json indexed

theorem serveTracked_indexed (indexed : Indexed state.store.short.entries)
    (call : Call Value) :
    Indexed (serveTracked json sim orderBy state call).store.short.entries := by
  cases call with
  | put agentId key value now order =>
      exact ShortTermStore.indexed_put json _ _ order indexed
  | putWithEmbedding agentId key value embedding now order =>
      exact ShortTermStore.indexed_put json _ _ order indexed
  | persist agentId key value now => exact indexed
  | promote promoted =>
      have same := (promote_tiers json state.store promoted).1
      rw [serveTracked, serve]
      dsimp only
      rw [same]
      exact indexed
  | get asked askedKey now =>
      have short := (get_tiers json state.store asked askedKey now).1
      rw [serveTracked, serve]
      dsimp only
      rw [short]
      exact indexed.touched (state.store.short.touched_get asked askedKey now)
  | «recall» asked queryText clock =>
      exact indexed.touched (state.store.short.touched_search sim _ clock)
  | prune now => exact indexed
  | deleteAgent deleted =>
      exact indexed.thinned
        (ShortTermStore.thinned_deleteNamespace json state.store.short deleted)

end Steps

/-- In a run of any calls, every read answers with the last write exactly
when every call is one of `KeepsCurrent`. -/
theorem readsLastWrite_throughout_iff (json : SerdeJson Value)
    (sim : Similarity Score) (orderBy : OrderByRecency)
    (calls : List (Call Value)) :
    Throughout (serveTracked json sim orderBy) (ReadsLastWrite json) .fresh
        calls ↔
      EachCall (serveTracked json sim orderBy) (KeepsCurrent json) .fresh
        calls := by
  have start : ReadsLastWrite json (.fresh : Tracked Value) := by
    apply (readsLastWrite_iff json).mpr
    intro agentId key value current
    cases current
  exact throughout_iff_eachCall
    (fun _ call _ indexed =>
      serveTracked_indexed json sim orderBy indexed call)
    (fun _ call _ indexed reads =>
      serveTracked_readsLastWrite_iff json sim orderBy indexed reads call)
    (fun _ _ => trivial)
    ShortTermStore.indexed_new start

/-- The JSON texts of null and of the two truth values. -/
inductive Literal where
  | null
  | bool (value : Bool)
deriving DecidableEq, Repr

def literalJson : SerdeJson Literal :=
  { toString := fun
      | .null => .ok "null"
      | .bool true => .ok "true"
      | .bool false => .ok "false"
    fromStr := fun text =>
      if text = "null" then some .null
      else if text = "true" then some (.bool true)
      else if text = "false" then some (.bool false)
      else none
    null := .null }

/-- Rows accessed at one time stay as they are. -/
def stableOrder : OrderByRecency :=
  { sort := fun rows =>
      rows.insertionSort fun left right =>
        left.lastAccessed ≥ right.lastAccessed
    perm := fun rows => List.perm_insertionSort _ rows
    sorted := fun rows => by
      have total : Std.Total fun left right : EntryRow =>
          left.lastAccessed ≥ right.lastAccessed :=
        ⟨fun _ _ => Nat.le_total _ _⟩
      have transitive : IsTrans EntryRow fun left right =>
          left.lastAccessed ≥ right.lastAccessed :=
        ⟨fun _ _ _ first second => second.trans first⟩
      exact List.pairwise_insertionSort _ rows }

/-- Every two texts are alike. -/
def literalSimilarity : Similarity Bool :=
  { lessThan := fun a b => !a && b
    atLeast := fun a b => a || !b
    zero := false
    half := true
    cosineSimilarity := fun _ _ => true
    simpleTextEmbedding := fun _ _ => [] }

/-- A value persisted behind a short-term entry is not read back. -/
theorem persisted_value_hidden :
    ¬ ∀ (sim : Similarity Bool) (orderBy : OrderByRecency)
      (calls : List (Call Literal)),
      ReadsLastWrite literalJson
        (runCalls (serveTracked literalJson sim orderBy) .fresh calls) := by
  intro claimed
  have reads := claimed literalSimilarity stableOrder
    [.put "agent" "plan" (.bool true) 1 [],
      .persist "agent" "plan" (.bool false) 2]
  have answered := reads "agent" "plan" 3
    { agentId := "agent", key := "plan", value := .bool true
      embedding := none, createdAt := 1, lastAccessed := 3
      accessCount := 1, tier := .shortTerm } (by decide)
  exact absurd answered (by decide)

end MemoryStore

end Ughi.Memory
