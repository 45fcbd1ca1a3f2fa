import Ughi.Memory.Additions
import Ughi.Memory.LongTermUsage
import Ughi.Memory.ReadYourWrites

/-!
# The books of the hierarchical store

Each agent's namespace counts entries and bytes of both tiers, and the usage
table counts the rows.  The counters are moved where a call is made and not
where entries come and go, so they are right exactly as long as each write
adds what it counts and nothing is pruned.
-/

namespace Ughi.Memory

open Ughi.Lib

/-- An agent's namespace; all counters are zero when it has none. -/
def NamespaceRegistry.namespaceOf (registry : NamespaceRegistry)
    (agentId : String) : Namespace :=
  (registry.lookup agentId).getD { agentId := agentId }

theorem NamespaceRegistry.namespaceOf_ensure (registry : NamespaceRegistry)
    (agentId other : String) (change : Namespace → Namespace) :
    (registry.ensure agentId change).namespaceOf other =
      if other = agentId then change (registry.namespaceOf other)
      else registry.namespaceOf other := by
  rw [ensure, namespaceOf, HashMap.lookup_insert_eq]
  split
  next same =>
    rw [same]
    rfl
  · rfl

namespace MemoryStore

variable {Value Score : Type}

/-- What is counted for an agent. -/
structure Books where
  shortTermEntries : Nat
  shortTermBytes : Nat
  longTermEntries : Nat
  usage : AgentUsage
deriving DecidableEq

/-- The counters of an agent. -/
def recorded (store : MemoryStore Value) (agentId : String) : Books :=
  let ns := store.registry.namespaceOf agentId
  { shortTermEntries := ns.shortTermEntries
    shortTermBytes := ns.shortTermBytes
    longTermEntries := ns.longTermEntries
    usage := store.long.usageOf agentId }

/-- What the counters of an agent should be. -/
def contents (json : SerdeJson Value) (store : MemoryStore Value)
    (agentId : String) : Books :=
  { shortTermEntries := (entriesOf store.short.entries agentId).length
    shortTermBytes :=
      ShortTermStore.bytesOf json (entriesOf store.short.entries agentId)
    longTermEntries := (store.long.namespaceRows agentId).length
    usage := store.long.contentsOf agentId }

/-- Every counter of every agent is right. -/
def BooksBalance (json : SerdeJson Value) (store : MemoryStore Value) :
    Prop :=
  ∀ agentId, store.recorded agentId = store.contents json agentId

/-- Promotion writes every promotable entry to a key that has no row yet, or
nothing, as the first one cannot be written. -/
def PromotesNew (json : SerdeJson Value) (store : MemoryStore Value)
    (agentId : String) : Prop :=
  let promotable := store.short.getPromotable agentId promotionThreshold
  (∀ entry ∈ promotable, LongTermStore.HasText json entry ∧
      store.long.memoryEntries.select (agentId, entry.key) = none) ∨
    ∃ entry rest, promotable = entry :: rest ∧
      ¬ LongTermStore.HasText json entry

/-- The calls that change the contents as they count: a write adds an entry or
a row and replaces none, and nothing is pruned. -/
def CountsRight (json : SerdeJson Value) (store : MemoryStore Value) :
    Call Value → Prop
  | .put agentId key value now _ =>
      ShortTermStore.AddsEntry json store.short
        (.newShort agentId key value now)
  | .putWithEmbedding agentId key value embedding now _ =>
      ShortTermStore.AddsEntry json store.short
        { MemoryEntry.newShort agentId key value now with
          embedding := some embedding }
  | .persist agentId key value now =>
      LongTermStore.HasText json (.newShort agentId key value now) ∧
        store.long.memoryEntries.select (agentId, key) = none
  | .promote agentId => PromotesNew json store agentId
  | .prune now => store.long.NoneExpired now
  | .get _ _ _ => True
  | .«recall» _ _ _ => True
  | .deleteAgent _ => True

/-- Keys are distinct and filed, and the entry limit is the constant. -/
structure Orderly (store : MemoryStore Value) : Prop where
  indexed : Indexed store.short.entries
  capacity : store.short.maxEntriesPerAgent = 500

section Steps

variable (json : SerdeJson Value) {store : MemoryStore Value}

/-! ## Writes to the short-term tier -/

theorem booksBalance_putEntry_iff (orderly : Orderly store)
    (balance : BooksBalance json store) (entry : MemoryEntry Value)
    (order : List String) :
    BooksBalance json (store.putEntry json entry order).2 ↔
      ShortTermStore.AddsEntry json store.short entry := by
  have counted : ∀ agentId,
      (store.putEntry json entry order).2.recorded agentId =
        if agentId = entry.agentId then
          { store.recorded agentId with
            shortTermEntries := (store.recorded agentId).shortTermEntries + 1
            shortTermBytes := (store.recorded agentId).shortTermBytes +
              entry.estimatedBytes json }
        else store.recorded agentId := by
    intro agentId
    rw [putEntry, recorded, NamespaceRegistry.namespaceOf_ensure]
    split
    · rfl
    · rfl
  constructor
  · intro after
    apply (ShortTermStore.growsByOne_iff_addsEntry json orderly.capacity
      entry order).mp
    intro agentId
    have now := congrArg Books.shortTermEntries (after agentId)
    have before := congrArg Books.shortTermEntries (balance agentId)
    rw [counted] at now
    split
    next writer =>
      rw [if_pos writer, before] at now
      exact now.symm
    next other =>
      rw [if_neg other, before] at now
      exact now.symm
  · intro adds agentId
    have added := adds.added json orderly.capacity order agentId
    rw [counted, contents, putEntry_short, putEntry_long, added]
    split
    next writer =>
      rw [balance agentId, List.length_append,
        ShortTermStore.bytesOf_append_filed]
      rfl
    · exact balance agentId

/-! ## Writes to the long-term tier -/

/-- Entries of an agent are written to the long-term tier, and so many are
counted. -/
structure WritesLong (before after : MemoryStore Value) (agentId : String)
    (entries : List (MemoryEntry Value)) (counted : Nat) : Prop where
  short : after.short = before.short
  long : after.long = LongTermStore.writeAll json entries before.long
  shortTermEntries : ∀ other,
    (after.registry.namespaceOf other).shortTermEntries =
      (before.registry.namespaceOf other).shortTermEntries
  shortTermBytes : ∀ other,
    (after.registry.namespaceOf other).shortTermBytes =
      (before.registry.namespaceOf other).shortTermBytes
  longTermEntries : ∀ other,
    (after.registry.namespaceOf other).longTermEntries =
      (before.registry.namespaceOf other).longTermEntries +
        if other = agentId then counted else 0

theorem writesLong_of_change {after : MemoryStore Value} {agentId : String}
    {entries : List (MemoryEntry Value)} {counted : Nat}
    {change : Namespace → Namespace}
    (short : after.short = store.short)
    (long : after.long = LongTermStore.writeAll json entries store.long)
    (changed : ∀ other, after.registry.namespaceOf other =
      if other = agentId then change (store.registry.namespaceOf other)
      else store.registry.namespaceOf other)
    (counts : ∀ ns, (change ns).shortTermEntries = ns.shortTermEntries ∧
      (change ns).shortTermBytes = ns.shortTermBytes ∧
      (change ns).longTermEntries = ns.longTermEntries + counted) :
    WritesLong json store after agentId entries counted := by
  refine ⟨short, long, ?_, ?_, ?_⟩
  · intro other
    rw [changed]
    split
    · exact (counts _).1
    · rfl
  · intro other
    rw [changed]
    split
    · exact (counts _).2.1
    · rfl
  · intro other
    rw [changed]
    split
    · exact (counts _).2.2
    · rfl

/-- The books balance after such writes exactly when all of them are counted
and go to new and distinct keys. -/
theorem booksBalance_iff_of_writesLong (balance : BooksBalance json store)
    {after : MemoryStore Value} {agentId : String}
    {entries : List (MemoryEntry Value)} {counted : Nat}
    (writes : WritesLong json store after agentId entries counted)
    (hasText : ∀ entry ∈ entries, LongTermStore.HasText json entry)
    (filed : ∀ entry ∈ entries, entry.agentId = agentId) :
    BooksBalance json after ↔
      counted = entries.length ∧
        (∀ entry ∈ entries,
          store.long.memoryEntries.select (agentId, entry.key) = none) ∧
        (entries.map MemoryEntry.key).Nodup := by
  have rows : ∀ other,
      (store.registry.namespaceOf other).longTermEntries =
        (store.long.namespaceRows other).length := by
    intro other
    exact congrArg Books.longTermEntries (balance other)
  have usage : ∀ other, store.long.usageOf other =
      store.long.contentsOf other := by
    intro other
    exact congrArg Books.usage (balance other)
  have length := LongTermStore.length_namespaceRows_writeAll hasText filed
    store.long
  constructor
  · intro balanced
    have ofAgent := balanced agentId
    have nowRows :
        (after.registry.namespaceOf agentId).longTermEntries =
          (after.long.namespaceRows agentId).length :=
      congrArg Books.longTermEntries ofAgent
    have nowUsage : (after.long.usageOf agentId).entryCount =
        (after.long.namespaceRows agentId).length :=
      congrArg (fun books => books.usage.entryCount) ofAgent
    have wasUsage : (store.long.usageOf agentId).entryCount =
        (store.long.namespaceRows agentId).length :=
      congrArg AgentUsage.entryCount (usage agentId)
    rw [writes.longTermEntries, if_pos rfl, rows, writes.long] at nowRows
    rw [writes.long, LongTermStore.usageOf_writeAll hasText filed,
      wasUsage] at nowUsage
    exact ⟨by omega, length.2.mp nowUsage.symm⟩
  · rintro ⟨all, new, distinct⟩ other
    have before := balance other
    rw [recorded, contents] at before ⊢
    simp only [Books.mk.injEq] at before ⊢
    rw [writes.shortTermEntries, writes.shortTermBytes,
      writes.longTermEntries, writes.short, writes.long]
    refine ⟨before.1, before.2.1, ?_, ?_⟩
    · rw [rows]
      split
      next same =>
        rw [same, all]
        exact (length.2.mpr ⟨new, distinct⟩).symm
      next different =>
        have kept := (LongTermStore.usageOf_writeAll_other hasText filed
          different store.long).2
        exact (congrArg AgentUsage.entryCount kept).symm
    · by_cases same : other = agentId
      · rw [same]
        exact LongTermStore.usageOf_eq_contentsOf_writeAll hasText filed
          distinct new (usage agentId)
      · obtain ⟨keptUsage, keptContents⟩ :=
          LongTermStore.usageOf_writeAll_other hasText filed same store.long
        rw [keptUsage, keptContents]
        exact usage other

theorem booksBalance_persist_iff (balance : BooksBalance json store)
    (agentId key : String) (value : Value) (now : Nat) :
    BooksBalance json (store.persist json agentId key value now).2 ↔
      LongTermStore.HasText json (.newShort agentId key value now) ∧
        store.long.memoryEntries.select (agentId, key) = none := by
  have writes : ∀ entries : List (MemoryEntry Value),
      (store.long.put json (.newShort agentId key value now)).2 =
          LongTermStore.writeAll json entries store.long →
        WritesLong json store (store.persist json agentId key value now).2
          agentId entries 1 := by
    intro entries written
    refine @writesLong_of_change _ json store _ agentId _ _
      (fun ns => { ns with longTermEntries := ns.longTermEntries + 1 })
      ?_ written ?_ ?_
    · rfl
    · exact fun other => NamespaceRegistry.namespaceOf_ensure _ agentId other _
    · exact fun ns => ⟨rfl, rfl, rfl⟩
  cases encoded : json.toString value with
  | error message =>
      have refused := LongTermStore.put_error json store.long
        (.newShort agentId key value now) encoded
      have nothing := writes [] (by rw [refused]; rfl)
      rw [booksBalance_iff_of_writesLong json balance nothing (by simp)
        (by simp)]
      constructor
      · rintro ⟨counted, -⟩
        cases counted
      · rintro ⟨⟨text, written⟩, -⟩
        have same : json.toString value = .ok text := written
        rw [encoded] at same
        cases same
  | ok text =>
      have hasText : LongTermStore.HasText json
          (.newShort agentId key value now) :=
        ⟨text, encoded⟩
      have one := writes [.newShort agentId key value now] rfl
      rw [booksBalance_iff_of_writesLong json balance one
        (by simpa using hasText)
        (by simp [MemoryEntry.newShort]), and_iff_right hasText]
      simp [MemoryEntry.newShort]

/-- Promotion writes all promotable entries, or those before the first that
cannot be written. -/
theorem promoteEach_cases (entries : List (MemoryEntry Value))
    (promoted : Nat) (long : LongTermStore) :
    (∀ entry ∈ entries, LongTermStore.HasText json entry) ∧
        promoteEach json entries promoted long =
          (.ok (promoted + entries.length),
            LongTermStore.writeAll json entries long) ∨
      ∃ written refused rest error, entries = written ++ refused :: rest ∧
        (∀ entry ∈ written, LongTermStore.HasText json entry) ∧
        ¬ LongTermStore.HasText json refused ∧
        promoteEach json entries promoted long =
          (.error error, LongTermStore.writeAll json written long) := by
  induction entries generalizing promoted long with
  | nil => exact .inl ⟨by simp, rfl⟩
  | cons entry entries induction =>
      cases encoded : json.toString entry.value with
      | error message =>
          refine .inr ⟨[], entry, entries, .serialization message, rfl,
            by simp, ?_, ?_⟩
          · rintro ⟨text, written⟩
            rw [encoded] at written
            cases written
          · rw [promoteEach, LongTermStore.put_error json long entry encoded]
            rfl
      | ok text =>
          have hasText : LongTermStore.HasText json entry := ⟨text, encoded⟩
          have first := LongTermStore.put_eq json long encoded
          have step : promoteEach json (entry :: entries) promoted long =
              promoteEach json entries (promoted + 1)
                (long.put json entry).2 := by
            rw [promoteEach, first]
          rw [step]
          rcases induction (promoted + 1) (long.put json entry).2 with
            ⟨all, served⟩ |
            ⟨written, refused, rest, error, split, some, stops, served⟩
          · refine .inl ⟨List.forall_mem_cons.mpr ⟨hasText, all⟩, ?_⟩
            rw [served, List.length_cons, Nat.add_assoc,
              Nat.add_comm 1 entries.length]
            rfl
          · refine .inr ⟨entry :: written, refused, rest, error, ?_,
              List.forall_mem_cons.mpr ⟨hasText, some⟩, stops, served⟩
            rw [split]
            rfl

theorem writesLong_promote_of_ok {agentId : String}
    (served : promoteEach json
        (store.short.getPromotable agentId promotionThreshold) 0 store.long =
      (.ok (0 + (store.short.getPromotable agentId
          promotionThreshold).length),
        LongTermStore.writeAll json
          (store.short.getPromotable agentId promotionThreshold)
          store.long)) :
    WritesLong json store (store.promote json agentId).2 agentId
      (store.short.getPromotable agentId promotionThreshold)
      (store.short.getPromotable agentId promotionThreshold).length := by
  rw [promote, served, Nat.zero_add]
  generalize store.short.getPromotable agentId promotionThreshold = promotable
  refine @writesLong_of_change _ json store _ agentId _ _
    (fun ns =>
      { ns with
        promotions := ns.promotions + promotable.length
        longTermEntries := ns.longTermEntries + promotable.length })
    ?_ ?_ ?_ ?_
  · rfl
  · rfl
  · intro other
    dsimp only
    split
    · exact NamespaceRegistry.namespaceOf_ensure _ agentId other _
    next none =>
      rw [Nat.eq_zero_of_not_pos none]
      split <;> rfl
  · exact fun ns => ⟨rfl, rfl, rfl⟩

/-- A promotion that stops on the way counts none of what it wrote. -/
theorem writesLong_promote_of_error {agentId : String}
    {written : List (MemoryEntry Value)} {error : MemoryError}
    (served : promoteEach json
        (store.short.getPromotable agentId promotionThreshold) 0 store.long =
      (.error error, LongTermStore.writeAll json written store.long)) :
    WritesLong json store (store.promote json agentId).2 agentId written
      0 := by
  rw [promote, served]
  exact ⟨rfl, rfl, fun _ => rfl, fun _ => rfl, fun _ => by simp⟩

theorem booksBalance_promote_iff (orderly : Orderly store)
    (balance : BooksBalance json store) (agentId : String) :
    BooksBalance json (store.promote json agentId).2 ↔
      PromotesNew json store agentId := by
  have filed : ∀ entry ∈ store.short.getPromotable agentId
      promotionThreshold, entry.agentId = agentId := by
    intro entry member
    exact orderly.indexed.filed agentId entry (List.mem_filter.mp member).1
  have distinct : ((store.short.getPromotable agentId
      promotionThreshold).map MemoryEntry.key).Nodup :=
    (orderly.indexed.distinct agentId).sublist
      (List.filter_sublist.map MemoryEntry.key)
  rw [PromotesNew]
  rcases promoteEach_cases json
      (store.short.getPromotable agentId promotionThreshold) 0 store.long with
    ⟨all, served⟩ |
    ⟨written, refused, rest, error, split, some, stops, served⟩
  · have writes := writesLong_promote_of_ok json served
    rw [booksBalance_iff_of_writesLong json balance writes all filed]
    constructor
    · rintro ⟨-, new, -⟩
      exact .inl fun entry member => ⟨all entry member, new entry member⟩
    · rintro (each | ⟨entry, rest, split, refused⟩)
      · exact ⟨rfl, fun entry member => (each entry member).2, distinct⟩
      · rw [split] at all
        exact absurd (all entry List.mem_cons_self) refused
  · have writes := writesLong_promote_of_error json served
    have filedWritten : ∀ entry ∈ written, entry.agentId = agentId := by
      intro entry member
      apply filed
      rw [split]
      exact List.mem_append_left _ member
    rw [booksBalance_iff_of_writesLong json balance writes some filedWritten,
      split]
    constructor
    · rintro ⟨none, -⟩
      have empty := List.length_eq_zero_iff.mp none.symm
      rw [empty]
      exact .inr ⟨refused, rest, rfl, stops⟩
    · rintro (each | ⟨entry, others, same, unwritten⟩)
      · have reached := each refused (List.mem_append_right _
          List.mem_cons_self)
        exact absurd reached.1 stops
      · cases written with
        | nil => simp
        | cons first written =>
            obtain ⟨sameEntry, -⟩ := List.cons.inj same
            rw [← sameEntry] at unwritten
            exact absurd (some first List.mem_cons_self) unwritten

/-! ## The other calls -/

theorem booksBalance_prune_iff (balance : BooksBalance json store)
    (now : Nat) :
    BooksBalance json (store.prune now).2 ↔ store.long.NoneExpired now := by
  rw [← LongTermStore.contentsOf_pruneExpired_iff]
  constructor
  · intro after agentId
    have recordedNow : (store.long.pruneExpired now).2.usageOf agentId =
        (store.long.pruneExpired now).2.contentsOf agentId :=
      congrArg Books.usage (after agentId)
    have recordedBefore : store.long.usageOf agentId =
        store.long.contentsOf agentId :=
      congrArg Books.usage (balance agentId)
    rw [← recordedNow, ← recordedBefore]
    rfl
  · intro same agentId
    have before := balance agentId
    have rows := congrArg AgentUsage.entryCount (same agentId)
    rw [recorded, contents] at before ⊢
    simp only [Books.mk.injEq] at before ⊢
    refine ⟨before.1, before.2.1, ?_, ?_⟩
    · exact before.2.2.1.trans rows.symm
    · exact before.2.2.2.trans (same agentId).symm

theorem booksBalance_of_same (balance : BooksBalance json store)
    {after : MemoryStore Value}
    (recordedSame : ∀ agentId,
      after.recorded agentId = store.recorded agentId)
    (contentsSame : ∀ agentId,
      after.contents json agentId = store.contents json agentId) :
    BooksBalance json after := by
  intro agentId
  rw [recordedSame, contentsSame]
  exact balance agentId

theorem contents_congr {after : MemoryStore Value} {agentId : String}
    (lengths : (entriesOf after.short.entries agentId).length =
      (entriesOf store.short.entries agentId).length)
    (bytes : ShortTermStore.bytesOf json
        (entriesOf after.short.entries agentId) =
      ShortTermStore.bytesOf json (entriesOf store.short.entries agentId))
    (rows : after.long.contentsOf agentId = store.long.contentsOf agentId) :
    after.contents json agentId = store.contents json agentId := by
  have counted := congrArg AgentUsage.entryCount rows
  have countedRows : (after.long.namespaceRows agentId).length =
      (store.long.namespaceRows agentId).length :=
    counted
  rw [contents, contents, lengths, bytes, countedRows, rows]

theorem booksBalance_get (balance : BooksBalance json store)
    (asked key : String) (now : Nat) :
    BooksBalance json (store.get json asked key now).2 := by
  obtain ⟨short, long⟩ := get_tiers json store asked key now
  have registry : (store.get json asked key now).2.registry =
      store.registry := by
    rw [get]
    split <;> rfl
  have rows : ∀ agentId,
      (store.get json asked key now).2.long.usageOf agentId =
          store.long.usageOf agentId ∧
        (store.get json asked key now).2.long.contentsOf agentId =
          store.long.contentsOf agentId := by
    intro agentId
    rcases long with same | read
    · rw [same]
      exact ⟨rfl, rfl⟩
    · rw [read]
      exact store.long.books_get json asked key now agentId
  apply booksBalance_of_same json balance
  · intro agentId
    rw [recorded, recorded, registry, (rows agentId).1]
  · intro agentId
    have touched := store.short.touched_get asked key now agentId
    apply contents_congr json
    · rw [short]
      exact touched.length_eq.symm
    · rw [short, (ShortTermStore.get_eq_getAlone store.short asked key
        now).2 agentId]
      split
      next same =>
        rw [same]
        exact ShortTermStore.bytesOf_getAlone json _ key now
      · rfl
    · exact (rows agentId).2

theorem booksBalance_recall (sim : Similarity Score)
    (orderBy : OrderByRecency) (balance : BooksBalance json store)
    (asked queryText : String) (clock : Nat → Nat) :
    BooksBalance json
      (store.recall json sim orderBy asked queryText clock).2 := by
  apply booksBalance_of_same json balance
  · intro agentId
    rw [MemoryStore.recall, recorded]
    dsimp only
    rw [NamespaceRegistry.namespaceOf_ensure]
    split
    · rfl
    · rfl
  · intro agentId
    have touched := store.short.touched_search sim
      (((MemoryQuery.byAgent sim asked).withEmbedding
        (sim.simpleTextEmbedding queryText 128)).withLimit 10) clock agentId
    apply contents_congr json
    · exact touched.length_eq.symm
    · have searched := (ShortTermStore.search_eq_searchAlone sim store.short
        (((MemoryQuery.byAgent sim asked).withEmbedding
          (sim.simpleTextEmbedding queryText 128)).withLimit 10)
        clock).2 agentId
      rw [MemoryStore.recall]
      dsimp only
      rw [searched]
      split
      next same =>
        rw [same]
        exact ShortTermStore.bytesOf_visit json sim _ clock _
      · rfl
    · rfl

theorem booksBalance_deleteAgent (balance : BooksBalance json store)
    (deleted : String) :
    BooksBalance json (store.deleteAgent json deleted).2 := by
  intro agentId
  obtain ⟨usage, rows⟩ := store.long.books_deleteNamespace deleted agentId
  have bucket := store.short.entriesOf_deleteNamespace json deleted agentId
  have served : (store.deleteAgent json deleted).2 =
      { short := store.short.deleteNamespace json deleted
        long := (store.long.deleteNamespace deleted).2
        registry := store.registry.erase deleted } :=
    rfl
  have counters : NamespaceRegistry.namespaceOf
      (store.registry.erase deleted) agentId =
        if agentId = deleted then { agentId := agentId }
        else store.registry.namespaceOf agentId := by
    rw [NamespaceRegistry.namespaceOf, HashMap.lookup_erase_eq]
    split
    · rfl
    · rfl
  have counted := congrArg AgentUsage.entryCount rows
  have before := balance agentId
  rw [served, recorded, contents]
  dsimp only
  rw [counters, bucket, usage]
  by_cases gone : agentId = deleted
  · rw [if_pos gone] at rows counted
    rw [rows, if_pos gone, if_pos gone, if_pos gone]
    simp only [Books.mk.injEq]
    exact ⟨rfl, rfl, counted.symm, trivial⟩
  · rw [if_neg gone] at rows counted
    rw [rows, if_neg gone, if_neg gone, if_neg gone]
    rw [recorded, contents] at before
    simp only [Books.mk.injEq] at before ⊢
    exact ⟨before.1, before.2.1, before.2.2.1.trans counted.symm,
      before.2.2.2⟩

/-! ## Runs -/

theorem Orderly.serve (sim : Similarity Score) (orderBy : OrderByRecency)
    (orderly : Orderly store) (call : Call Value) :
    Orderly (store.serve json sim orderBy call) where
  indexed :=
    @serveTracked_indexed _ _ json sim orderBy
      { store := store, written := fun _ _ => none } orderly.indexed call
  capacity := by
    have capacity := orderly.capacity
    cases call with
    | put agentId key value now order =>
        exact (ShortTermStore.maxEntriesPerAgent_put json store.short _
          order).trans capacity
    | putWithEmbedding agentId key value embedding now order =>
        exact (ShortTermStore.maxEntriesPerAgent_put json store.short _
          order).trans capacity
    | persist agentId key value now => exact capacity
    | promote agentId =>
        rw [MemoryStore.serve, (promote_tiers json store agentId).1]
        exact capacity
    | get agentId key now =>
        rw [MemoryStore.serve, (get_tiers json store agentId key now).1]
        exact (ShortTermStore.maxEntriesPerAgent_get store.short agentId key
          now).trans capacity
    | «recall» agentId queryText clock =>
        exact (ShortTermStore.maxEntriesPerAgent_search store.short sim _
          clock).trans capacity
    | prune now => exact capacity
    | deleteAgent agentId =>
        exact (ShortTermStore.maxEntriesPerAgent_deleteNamespace json
          store.short agentId).trans capacity

theorem booksBalance_serve_iff (sim : Similarity Score)
    (orderBy : OrderByRecency) (orderly : Orderly store)
    (balance : BooksBalance json store) (call : Call Value) :
    BooksBalance json (store.serve json sim orderBy call) ↔
      CountsRight json store call := by
  cases call with
  | put agentId key value now order =>
      exact booksBalance_putEntry_iff json orderly balance _ order
  | putWithEmbedding agentId key value embedding now order =>
      exact booksBalance_putEntry_iff json orderly balance _ order
  | persist agentId key value now =>
      exact booksBalance_persist_iff json balance agentId key value now
  | promote agentId =>
      exact booksBalance_promote_iff json orderly balance agentId
  | get agentId key now =>
      have same := booksBalance_get json balance agentId key now
      exact iff_of_true same trivial
  | «recall» agentId queryText clock =>
      have same := booksBalance_recall json sim orderBy balance agentId
        queryText clock
      exact iff_of_true same trivial
  | prune now => exact booksBalance_prune_iff json balance now
  | deleteAgent agentId =>
      have gone := booksBalance_deleteAgent json balance agentId
      exact iff_of_true gone trivial

end Steps

/-- In a run of any calls, the books balance after every call exactly when
every call changes the contents as it counts. -/
theorem booksBalance_throughout_iff (json : SerdeJson Value)
    (sim : Similarity Score) (orderBy : OrderByRecency)
    (calls : List (Call Value)) :
    Throughout (serve json sim orderBy) (BooksBalance json) .inMemory
        calls ↔
      EachCall (serve json sim orderBy) (CountsRight json) .inMemory
        calls := by
  have start : BooksBalance json (.inMemory : MemoryStore Value) := by
    intro agentId
    rfl
  have orderly : Orderly (.inMemory : MemoryStore Value) :=
    ⟨ShortTermStore.indexed_new, rfl⟩
  exact throughout_iff_eachCall
    (fun _ call _ orderly => orderly.serve json sim orderBy call)
    (fun _ call _ orderly balance =>
      booksBalance_serve_iff json sim orderBy orderly balance call)
    (fun _ _ => trivial) orderly start

/-- Writing a key twice leaves one entry and counts two. -/
theorem overwrite_counted_twice :
    ¬ ∀ calls : List (Call Literal), BooksBalance literalJson
      (runCalls (serve literalJson literalSimilarity stableOrder) .inMemory
        calls) := by
  intro claimed
  have balance := claimed
    [.put "agent" "plan" (.bool true) 1 [],
      .put "agent" "plan" (.bool false) 2 []]
  have counted := congrArg Books.shortTermEntries (balance "agent")
  exact absurd counted (by decide)

end MemoryStore

end Ughi.Memory
