import Ughi.Inference.Engine

/-!
# Bounds of the pool and the caches

Whatever the interleaving, a cache stays within its budget, the pool within
its capacity, and the counters of loads and unloads account for the pool.  Each
section touches one of the two maps, so each keeps the bounds of the other.
-/

namespace Ughi.Inference

open Ughi.Lib

namespace KvCacheSlot

def WithinBudget (slot : KvCacheSlot) : Prop :=
  slot.allocatedBytes ≤ slot.budgetBytes

theorem new_withinBudget (agentId : String) (budgetBytes : UInt64)
    (now : Nat) : (new agentId budgetBytes now).WithinBudget :=
  UInt64.zero_le

/-- A sum that wraps around is checked and stored alike. -/
theorem allocate_withinBudget (tokens : UInt32) (slot : KvCacheSlot)
    (within : slot.WithinBudget) : (allocate tokens slot).WithinBudget := by
  rw [allocate]
  split
  next fits =>
    have room : slot.allocatedBytes + tokens.toUInt64 * 1024 ≤
        slot.budgetBytes := of_decide_eq_true fits
    exact room
  next full => exact within

end KvCacheSlot

namespace SharedInferenceEngine

/-- The bounds, and that the counters account for the pool. -/
structure Safe (config : EngineConfig) (engine : SharedInferenceEngine) :
    Prop where
  configured : engine.config = config
  slots : HashMap.Every KvCacheSlot.WithinBudget engine.kvCaches
  bounded : HashMap.size engine.pool ≤ config.maxLoadedModels.toNat
  counted : engine.modelLoads - engine.modelUnloads =
    UInt64.ofNat (HashMap.size engine.pool)

variable {config : EngineConfig} {engine : SharedInferenceEngine}

theorem new_safe (config : EngineConfig) : Safe config (new config) :=
  { configured := rfl
    slots := HashMap.every_empty
    bounded := Nat.zero_le _
    counted := UInt64.sub_self 0 }

/-! ## Caches -/

theorem Safe.withCaches (safe : Safe config engine)
    {caches : HashMap String KvCacheSlot}
    (within : HashMap.Every KvCacheSlot.WithinBudget caches) :
    Safe config { engine with kvCaches := caches } :=
  { safe with slots := within }

theorem Safe.ensureKvCache (safe : Safe config engine) (agentId : String)
    (now : Nat) : Safe config (engine.ensureKvCache agentId now) := by
  rw [SharedInferenceEngine.ensureKvCache]
  split
  next present => exact safe
  next absent =>
    apply safe.withCaches
    exact safe.slots.insert (KvCacheSlot.new_withinBudget _ _ now)

theorem Safe.allocate (safe : Safe config engine) (agentId : String)
    (tokens : UInt32) : Safe config (engine.allocate agentId tokens) := by
  apply safe.withCaches
  exact safe.slots.modify (KvCacheSlot.allocate_withinBudget tokens)

theorem Safe.touchSlot (safe : Safe config engine) (agentId : String)
    (tokensGenerated : UInt32) (now : Nat) :
    Safe config (engine.touchSlot agentId tokensGenerated now) := by
  apply safe.withCaches
  exact safe.slots.modify fun slot within => within

theorem Safe.evictIdleSlots (safe : Safe config engine) (now : Nat) :
    Safe config (engine.evictIdleSlots now) := by
  apply safe.withCaches
  exact safe.slots.eraseAll _

theorem Safe.releaseAgent (safe : Safe config engine) (agentId : String) :
    Safe config (engine.releaseAgent agentId) := by
  apply safe.withCaches
  exact safe.slots.erase agentId

/-! ## The pool -/

theorem Safe.touchModel (safe : Safe config engine) (family : ModelFamily)
    (now : Nat) : Safe config (engine.touchModel family now) := by
  have same := @HashMap.size_modify _ _ _ engine.pool family
    (LoadedModel.touch now)
  obtain ⟨configured, slots, bounded, counted⟩ := safe
  rw [← same] at bounded counted
  exact ⟨configured, slots, bounded, counted⟩

theorem Safe.unload (safe : Safe config engine) {family : ModelFamily}
    (present : family ∈ engine.pool) : Safe config (engine.unload family) := by
  obtain ⟨configured, slots, bounded, counted⟩ := safe
  have smaller := HashMap.size_erase_of_mem present
  refine ⟨configured, slots, ?_, ?_⟩
  · change HashMap.size (engine.pool.erase family) ≤ _
    omega
  · rw [← smaller, UInt64.ofNat_add] at counted
    change engine.modelLoads - (engine.modelUnloads + 1) =
      UInt64.ofNat (HashMap.size (engine.pool.erase family))
    have one : UInt64.ofNat 1 = 1 := rfl
    grind

theorem mem_unload {family other : ModelFamily}
    (present : other ∈ engine.pool) (different : other ≠ family) :
    other ∈ (engine.unload family).pool :=
  AList.mem_erase.mpr ⟨different, present⟩

theorem lruFamily_mem {order : List ModelFamily} {family : ModelFamily}
    (least : engine.lruFamily order = some family) : family ∈ engine.pool := by
  have member := List.argmin_mem least
  exact (HashMap.mem_iterate order).mp member

theorem exists_lruFamily (order : List ModelFamily)
    (nonempty : 0 < HashMap.size engine.pool) :
    ∃ family, engine.lruFamily order = some family := by
  obtain ⟨family, member⟩ := List.exists_mem_of_length_pos nonempty
  have listed : family ∈ HashMap.iterate order engine.pool :=
    (HashMap.mem_iterate order).mpr (AList.mem_keys.mpr member)
  apply Option.ne_none_iff_exists'.mp
  intro missing
  rw [lruFamily, List.argmin_eq_none] at missing
  rw [missing] at listed
  cases listed

theorem Safe.evictForLoad (safe : Safe config engine)
    (atLeastOne : 1 ≤ config.maxLoadedModels) (order : List ModelFamily) :
    Safe config (engine.evictForLoad order) ∧
      HashMap.size (engine.evictForLoad order).pool <
        config.maxLoadedModels.toNat := by
  have positive : 0 < config.maxLoadedModels.toNat :=
    UInt32.le_iff_toNat_le.mp atLeastOne
  have bounded := safe.bounded
  rw [SharedInferenceEngine.evictForLoad, safe.configured]
  by_cases full :
      HashMap.size engine.pool ≥ config.maxLoadedModels.toNat
  · rw [if_pos full]
    have nonempty : 0 < HashMap.size engine.pool := by omega
    obtain ⟨family, least⟩ := exists_lruFamily order nonempty
    have present := lruFamily_mem least
    have smaller := HashMap.size_erase_of_mem present
    rw [least]
    refine ⟨safe.unload present, ?_⟩
    change HashMap.size (engine.pool.erase family) < _
    omega
  · rw [if_neg full]
    exact ⟨safe, Nat.lt_of_not_ge full⟩

theorem notMem_evictForLoad {family : ModelFamily}
    (absent : family ∉ engine.pool) (order : List ModelFamily) :
    family ∉ (engine.evictForLoad order).pool := by
  rw [SharedInferenceEngine.evictForLoad]
  split
  next full =>
    split
    next evictFamily _ =>
      intro present
      exact absent (AList.mem_erase.mp present).2
    next => exact absent
  next room => exact absent

theorem Safe.ensureModelLoaded (safe : Safe config engine)
    (atLeastOne : 1 ≤ config.maxLoadedModels) (family : ModelFamily)
    (around : Surroundings) :
    Safe config (engine.ensureModelLoaded family around).1 := by
  rw [SharedInferenceEngine.ensureModelLoaded]
  by_cases present : family ∈ engine.pool
  · rw [if_pos present]
    exact safe
  · rw [if_neg present]
    obtain ⟨evicted, room⟩ := safe.evictForLoad atLeastOne around.order
    have absent := notMem_evictForLoad present around.order
    dsimp only
    cases findModelConfig family with
    | none => exact evicted
    | some modelConfig =>
        dsimp only
        cases LoadedModel.load modelConfig around with
        | error error => exact evicted
        | ok loaded =>
            have grown := @HashMap.size_insert_of_notMem _ _ _ _ _ loaded
              absent
            refine ⟨evicted.configured, evicted.slots, ?_, ?_⟩
            · change HashMap.size (AList.insert _ _ _) ≤ _
              omega
            · change _ + 1 - _ = UInt64.ofNat (HashMap.size
                (AList.insert _ _ _))
              rw [grown, UInt64.ofNat_add, ← evicted.counted]
              have one : UInt64.ofNat 1 = 1 := rfl
              grind

theorem Safe.unloadAll {families : List ModelFamily}
    (distinct : families.Nodup) (safe : Safe config engine)
    (present : ∀ family ∈ families, family ∈ engine.pool) :
    Safe config (families.foldl SharedInferenceEngine.unload engine) := by
  induction families generalizing engine with
  | nil => exact safe
  | cons family families induction =>
      obtain ⟨fresh, rest⟩ := List.nodup_cons.mp distinct
      apply induction rest
      · exact safe.unload (present family List.mem_cons_self)
      · intro other member
        apply mem_unload (present other (List.mem_cons_of_mem _ member))
        rintro rfl
        exact fresh member

theorem Safe.evictIdleModels (safe : Safe config engine) (now : Nat) :
    Safe config (engine.evictIdleModels now) := by
  have chosen : ((engine.pool.entries.filter fun entry =>
      decide (entry.2.idleDuration now > engine.config.timeout)).map
        Sigma.fst).Sublist engine.pool.keys :=
    List.filter_sublist.map Sigma.fst
  apply safe.unloadAll
  · exact engine.pool.keys_nodup.sublist chosen
  · intro family member
    exact AList.mem_keys.mp (chosen.subset member)

end SharedInferenceEngine

/-! ## Every interleaving -/

open SharedInferenceEngine

variable {toLowercase : String → String} {config : EngineConfig}
  {engine : SharedInferenceEngine}

theorem enter_safe (safe : Safe config engine) (request : Request) :
    Safe config (enter toLowercase engine request).1 := by
  cases request with
  | infer request => exact { safe with }
  | releaseAgent agentId => exact safe.releaseAgent agentId
  | evictIdle now => exact safe.evictIdleSlots now

theorem advance_safe (atLeastOne : 1 ≤ config.maxLoadedModels)
    (safe : Safe config engine) (place : Place) (around : Surroundings) :
    Safe config (advance toLowercase engine place around).1 := by
  cases place with
  | fastPath selected =>
      rw [advance]
      split
      all_goals exact safe
  | slowPath selected =>
      have loaded := safe.ensureModelLoaded atLeastOne selected.family around
      rw [advance]
      cases result : engine.ensureModelLoaded selected.family around with
      | mk later outcome =>
          rw [result] at loaded
          cases outcome with
          | ok _ => exact loaded
          | error error => exact loaded
  | ensureKvCache selected =>
      have ensured := safe.ensureKvCache selected.request.agentId around.now
      rw [advance]
      cases findModelConfig selected.family with
      | none => exact ensured
      | some modelConfig => exact ensured
  | readPool selected modelConfig => exact safe
  | allocate generated => exact safe.allocate _ _
  | countRequest generated => exact { safe with }
  | countTokens generated => exact { safe with }
  | touchSlot generated => exact safe.touchSlot _ _ _
  | touchModel generated => exact safe.touchModel _ _
  | readSlot generated => exact safe
  | leave result => exact { safe with }
  | evictIdleModels => exact safe.evictIdleModels around.now

theorem afterSections_safe (atLeastOne : 1 ≤ config.maxLoadedModels)
    (moves : List (Move Request Surroundings)) :
    Safe config (afterSections toLowercase config moves).shared := by
  apply Interleaved.shared_runCalls
  · intro engine request safe
    exact enter_safe safe request
  · intro engine place around safe
    exact advance_safe atLeastOne safe place around
  · exact new_safe config

/-- In every interleaving of inferences, releases and idle evictions the caches
are within their budgets, the pool is within its capacity, and the models in it
are those loaded and not unloaded. -/
theorem pool_and_caches_bounded (toLowercase : String → String)
    (config : EngineConfig) (atLeastOne : 1 ≤ config.maxLoadedModels)
    (moves : List (Move Request Surroundings)) :
    let engine := (afterSections toLowercase config moves).shared
    (∀ agentId slot, engine.kvCaches.lookup agentId = some slot →
        slot.allocatedBytes ≤ slot.budgetBytes) ∧
      HashMap.size engine.pool ≤ config.maxLoadedModels.toNat ∧
      (engine.modelLoads - engine.modelUnloads).toNat =
        HashMap.size engine.pool := by
  have safe : Safe config (afterSections toLowercase config moves).shared :=
    afterSections_safe atLeastOne moves
  refine ⟨safe.slots, safe.bounded, ?_⟩
  have small := config.maxLoadedModels.toNat_lt
  have bounded := safe.bounded
  rw [safe.counted]
  apply UInt64.toNat_ofNat_of_lt'
  rw [UInt64.size]
  omega

/-- Room for one model, two agents that need different ones, and an eviction
between their sections. -/
theorem pool_and_caches_bounded_example :
    let request (agentId : String) (family : ModelFamily) : Request :=
      .infer
        { prompt := "what is rust?"
          maxTokens := 256
          agentId
          modelOverride := some family
          systemPrompt := none }
    let around : Surroundings :=
      { now := 1
        order := []
        loading := .ok false }
    let engine := (afterSections (fun text => text)
      { maxLoadedModels := 1
        kvCacheBudgetPerAgent := 47185920
        idleUnloadTimeoutSecs := 300 }
      [.enter (request "agent-001" .qwen1_5B),
        .enter (request "agent-002" .phi3Mini), .advance 0 around,
        .advance 1 around, .advance 0 around, .advance 1 around,
        .enter (.evictIdle 2), .advance 0 around, .advance 0 around,
        .advance 0 around, .enter (.releaseAgent "agent-001")]).shared
    (∀ agentId slot, engine.kvCaches.lookup agentId = some slot →
        slot.allocatedBytes ≤ slot.budgetBytes) ∧
      HashMap.size engine.pool ≤ (1 : UInt32).toNat ∧
      (engine.modelLoads - engine.modelUnloads).toNat =
        HashMap.size engine.pool :=
  pool_and_caches_bounded _ _ (by decide) _

end Ughi.Inference
