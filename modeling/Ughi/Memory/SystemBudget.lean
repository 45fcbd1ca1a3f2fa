import Ughi.Memory.SystemEviction

/-!
# The system budget

A write that would exceed the budget first evicts at least as many bytes as it
adds, or everything.  So the stored bytes stay within every limit that is no
less than the budget and no less than each entry written.
-/

namespace Ughi.Memory

open Ughi.Lib

namespace ShortTermStore

variable {Value Score : Type} (json : SerdeJson Value) (sim : Similarity Score)

/-- The accounts are in order and the counter is within a limit. -/
structure Bounded (limit : Nat) (store : ShortTermStore Value) : Prop where
  accounted : Accounted json store
  within : store.totalBytes ≤ limit

/-- A limit that no write within it can leave, and that leaves the counter
away from the end of its range. -/
structure Ample (limit : Nat) : Prop where
  wide : systemBudgetBytes ≤ limit
  word : limit + limit < 2 ^ 64

section Steps

variable {json} {store : ShortTermStore Value} {limit : Nat}

theorem bounded_new : Bounded json limit new where
  accounted := new_accounted json
  within := Nat.zero_le limit

theorem Bounded.keepSystemBudget (bounded : Bounded json limit store)
    (ample : Ample limit) {entrySize : Nat} (small : entrySize ≤ limit)
    (order : List String) :
    (store.keepSystemBudget json entrySize order).totalBytes + entrySize ≤
      limit := by
  have within := bounded.within
  have wide := ample.wide
  have word := ample.word
  have sum : wrappingAdd 64 store.totalBytes entrySize =
      store.totalBytes + entrySize :=
    wrappingAdd_of_lt (by omega)
  rw [ShortTermStore.keepSystemBudget, sum]
  split
  · exact totalBytes_evictSystemLru bounded.accounted within small order
  next fits =>
    have room := Nat.le_of_not_gt fits
    exact room.trans wide

theorem Bounded.roomFor (bounded : Bounded json limit store)
    (ample : Ample limit) {entry : MemoryEntry Value}
    (small : entry.estimatedBytes json ≤ limit) (order : List String) :
    Accounted json (store.roomFor json entry order) ∧
      (store.roomFor json entry order).totalBytes +
        entry.estimatedBytes json ≤ limit := by
  have system := keepSystemBudget_frees json bounded.accounted
    (entry.estimatedBytes json) order
  have ensured :=
    ensureAgent_accounted json system.accounted entry.agentId
  have agent := keepAgentBudget_frees json ensured entry.agentId
    (entry.estimatedBytes json)
  have room := bounded.keepSystemBudget ample small order
  have shrunk := agent.smaller
  rw [totalBytes_ensureAgent] at shrunk
  exact ⟨agent.accounted, (Nat.add_le_add_right shrunk _).trans room⟩

theorem Bounded.put (bounded : Bounded json limit store)
    (ample : Ample limit) {entry : MemoryEntry Value}
    (small : entry.estimatedBytes json ≤ limit) (order : List String) :
    Bounded json limit (store.put json entry order).2 := by
  let filed : MemoryEntry Value := { entry with tier := .shortTerm }
  have word := ample.word
  obtain ⟨accounted, room⟩ := @Bounded.roomFor _ json store limit bounded
    ample filed small order
  have fits : (store.roomFor json filed order).totalBytes +
      filed.estimatedBytes json < 2 ^ 64 := by
    omega
  obtain ⟨-, placed, growth⟩ := place_accounted json accounted
    (mem_roomFor json store filed order) fits
  exact ⟨placed, growth.trans room⟩

theorem Bounded.serve (bounded : Bounded json limit store)
    (ample : Ample limit) {call : Call Value Score}
    (small : call.bytes json ≤ limit) :
    Bounded json limit (afterCall (serve json sim) store call) := by
  have within := bounded.within
  have word := ample.word
  have balanced := serve_balanced json sim bounded.accounted call (by omega)
  cases call with
  | put entry order => exact bounded.put ample small order
  | _ => exact ⟨balanced.accounted, balanced.growth.trans within⟩

theorem bounded_run (ample : Ample limit) {calls : List (Call Value Score)}
    (bounded : Bounded json limit store)
    (small : ∀ call ∈ calls, call.bytes json ≤ limit) :
    Bounded json limit (runCalls (afterCall (serve json sim)) store calls) := by
  have kept : ∀ (store : ShortTermStore Value) (call : Call Value Score),
      Bounded json limit store → call.bytes json ≤ limit →
        Bounded json limit (afterCall (serve json sim) store call) := by
    intro store call bounded small
    exact bounded.serve sim ample small
  exact invariant_of_eachCall kept bounded ((eachCall_calls_iff _).mpr small)

end Steps

theorem ample_systemBudget : Ample systemBudgetBytes where
  wide := Nat.le_refl _
  word := by decide

/-- While every entry written is within the system budget, the stored entries
and the counter are after every call. -/
theorem storedBytes_le_systemBudget {calls : List (Call Value Score)}
    (small : ∀ entry order, Call.put entry order ∈ calls →
      entry.estimatedBytes json ≤ systemBudgetBytes) :
    Throughout (afterCall (serve json sim))
      (fun store => storedBytes json store.entries ≤ systemBudgetBytes ∧
        store.totalBytes ≤ systemBudgetBytes) new calls := by
  intro served isPrefix
  have eachSmall : ∀ call ∈ served, call.bytes json ≤ systemBudgetBytes := by
    intro call member
    have listed := isPrefix.subset member
    cases call with
    | put entry order => exact small entry order listed
    | _ => exact Nat.zero_le _
  have bounded := bounded_run sim ample_systemBudget bounded_new eachSmall
  refine ⟨?_, bounded.within⟩
  rw [← bounded.accounted.total]
  exact bounded.within

/-- An entry with an embedding of a given length. -/
def embedded (agentId key : String) (length now : Nat) :
    MemoryEntry MemoryStore.Literal :=
  { MemoryEntry.newShort agentId key .null now with
    embedding := some (List.replicate length 0) }

theorem estimatedBytes_embedded {agentId key : String} {names : Nat}
    (sizes : agentId.utf8ByteSize + key.utf8ByteSize = names)
    (length now : Nat) :
    (embedded agentId key length now).estimatedBytes
        MemoryStore.literalJson =
      names + length * 4 + 68 := by
  have value : "null".utf8ByteSize = 4 := by decide +kernel
  simp only [MemoryEntry.estimatedBytes, embedded, MemoryEntry.newShort,
    MemoryStore.literalJson, List.length_replicate, value]
  omega

/-- The entries of the agents `a` and `b` are each within the budget, and both
together are not. -/
theorem storedBytes_le_systemBudget_evicting :
    let json := MemoryStore.literalJson
    let sim := MemoryStore.literalSimilarity
    let calls : List (Call MemoryStore.Literal Bool) :=
      [.put (embedded "a" "k1" 20000000 1) [],
        .put (embedded "b" "k1" 20000000 2) ["a"],
        .get "b" "k1" 3, .put (embedded "a" "k2" 1000 4) [],
        .deleteNamespace "b"]
    (embedded "a" "k1" 20000000 1).estimatedBytes json +
          (embedded "b" "k1" 20000000 2).estimatedBytes json >
        systemBudgetBytes ∧
      (∀ entry order, Call.put entry order ∈ calls →
        entry.estimatedBytes json ≤ systemBudgetBytes) ∧
      Throughout (afterCall (serve json sim))
        (fun store => storedBytes json store.entries ≤ systemBudgetBytes ∧
          store.totalBytes ≤ systemBudgetBytes) new calls := by
  intro json sim calls
  have budget : systemBudgetBytes = 125829120 := rfl
  have sizeA1 :=
    @estimatedBytes_embedded "a" "k1" 3 (by decide +kernel) 20000000 1
  have sizeB1 :=
    @estimatedBytes_embedded "b" "k1" 3 (by decide +kernel) 20000000 2
  have sizeA2 :=
    @estimatedBytes_embedded "a" "k2" 3 (by decide +kernel) 1000 4
  have each : ∀ call ∈ calls, call.bytes json ≤ systemBudgetBytes := by
    simp only [calls, json, List.forall_mem_cons, Call.bytes, sizeA1, sizeB1,
      sizeA2, budget]
    simp
  have small : ∀ entry order, Call.put entry order ∈ calls →
      entry.estimatedBytes json ≤ systemBudgetBytes :=
    fun _ _ member => each _ member
  refine ⟨?_, small, storedBytes_le_systemBudget json sim small⟩
  rw [sizeA1, sizeB1, budget]
  decide

end ShortTermStore

end Ughi.Memory
