import Mathlib.Data.List.MinMax
import Ughi.Inference.Model
import Ughi.Lib.HashMap
import Ughi.Lib.Interleaving

/-!
# The shared inference engine

One engine serves all agents.  Every access to the model pool or to the caches
takes its lock for one section only, and the counters are atomic, so that an
inference is a sequence of small sections.  Times are nanoseconds.
-/

namespace Ughi.Inference

open Ughi.Lib

/-- The errors that selecting and loading a model can have. -/
inductive InferenceError where
  | modelNotFound (path : String)
  | invalidModelFormat (reason : String)
  | modelLoadFailed (reason : String)
  | noSuitableModel (complexity : String)
deriving DecidableEq, Repr

/-- KV cache slot for a single agent. -/
structure KvCacheSlot where
  agentId : String
  allocatedBytes : UInt64
  budgetBytes : UInt64
  lastUsed : Nat
  contextLength : UInt32
deriving DecidableEq, Repr

namespace KvCacheSlot

def new (agentId : String) (budgetBytes : UInt64) (now : Nat) : KvCacheSlot :=
  { agentId
    allocatedBytes := 0
    budgetBytes
    lastUsed := now
    contextLength := 0 }

/-- Check if allocation would exceed budget. -/
def canAllocate (slot : KvCacheSlot) (bytes : UInt64) : Bool :=
  decide (slot.allocatedBytes + bytes ≤ slot.budgetBytes)

/-- Each token uses 1 KB, if the budget allows it. -/
def allocate (tokens : UInt32) (slot : KvCacheSlot) : KvCacheSlot :=
  let kvBytes := tokens.toUInt64 * 1024
  if slot.canAllocate kvBytes then
    { slot with allocatedBytes := slot.allocatedBytes + kvBytes }
  else slot

def touch (now : Nat) (tokensGenerated : UInt32) (slot : KvCacheSlot) :
    KvCacheSlot :=
  { slot with
    lastUsed := now
    contextLength := slot.contextLength + tokensGenerated }

def idleDuration (slot : KvCacheSlot) (now : Nat) : Nat :=
  now - slot.lastUsed

end KvCacheSlot

/-- A loaded model in the pool. -/
structure LoadedModel where
  config : ModelConfig
  weightsLoaded : Bool
  loadedAt : Nat
  lastUsed : Nat
  requestCount : UInt64
deriving DecidableEq, Repr

/-- What the surroundings contribute to a section: the time, the iteration
order of the pool, and how loading ends, with whether the file exists. -/
structure Surroundings where
  now : Nat
  order : List ModelFamily
  loading : Except InferenceError Bool

namespace LoadedModel

def load (config : ModelConfig) (around : Surroundings) :
    Except InferenceError LoadedModel :=
  match around.loading with
  | .error error => .error error
  | .ok weightsLoaded =>
      .ok
        { config
          weightsLoaded
          loadedAt := around.now
          lastUsed := around.now
          requestCount := 0 }

def touch (now : Nat) (model : LoadedModel) : LoadedModel :=
  { model with
    lastUsed := now
    requestCount := model.requestCount + 1 }

def idleDuration (model : LoadedModel) (now : Nat) : Nat :=
  now - model.lastUsed

end LoadedModel

/-- Configuration for the shared inference engine. -/
structure EngineConfig where
  maxLoadedModels : UInt32
  kvCacheBudgetPerAgent : UInt64
  idleUnloadTimeoutSecs : UInt64
deriving DecidableEq, Repr

def EngineConfig.timeout (config : EngineConfig) : Nat :=
  config.idleUnloadTimeoutSecs.toNat * 1000000000

structure SharedInferenceEngine where
  pool : HashMap ModelFamily LoadedModel
  kvCaches : HashMap String KvCacheSlot
  config : EngineConfig
  totalRequests : UInt64
  totalTokens : UInt64
  activeInferences : UInt32
  modelLoads : UInt64
  modelUnloads : UInt64

namespace SharedInferenceEngine

/-- Create a new shared inference engine. -/
def new (config : EngineConfig) : SharedInferenceEngine :=
  { pool := ∅
    kvCaches := ∅
    config
    totalRequests := 0
    totalTokens := 0
    activeInferences := 0
    modelLoads := 0
    modelUnloads := 0 }

/-- Remove a model and count it. -/
def unload (engine : SharedInferenceEngine) (family : ModelFamily) :
    SharedInferenceEngine :=
  { engine with
    pool := engine.pool.erase family
    modelUnloads := engine.modelUnloads + 1 }

/-- The first least recently used model, in the order of iteration. -/
def lruFamily (engine : SharedInferenceEngine) (order : List ModelFamily) :
    Option ModelFamily :=
  (HashMap.iterate order engine.pool).argmin fun family =>
    ((engine.pool.lookup family).map LoadedModel.lastUsed).getD 0

/-- Make room for a model, if the pool is full. -/
def evictForLoad (engine : SharedInferenceEngine)
    (order : List ModelFamily) : SharedInferenceEngine :=
  if HashMap.size engine.pool ≥ engine.config.maxLoadedModels.toNat then
    match engine.lruFamily order with
    | some evictFamily => engine.unload evictFamily
    | none => engine
  else engine

/-- The slow path of `ensure_model_loaded`, under the write lock. -/
def ensureModelLoaded (engine : SharedInferenceEngine)
    (family : ModelFamily) (around : Surroundings) :
    SharedInferenceEngine × Except InferenceError Unit :=
  if family ∈ engine.pool then (engine, .ok ())
  else
    let engine := engine.evictForLoad around.order
    match findModelConfig family with
    | none => (engine, .error (.noSuitableModel "unknown"))
    | some config =>
        match LoadedModel.load config around with
        | .error error => (engine, .error error)
        | .ok loaded =>
            ({ engine with
                pool := engine.pool.insert family loaded
                modelLoads := engine.modelLoads + 1 }, .ok ())

/-- Ensure an agent has a KV cache slot. -/
def ensureKvCache (engine : SharedInferenceEngine) (agentId : String)
    (now : Nat) : SharedInferenceEngine :=
  if agentId ∈ engine.kvCaches then engine
  else
    { engine with
      kvCaches := engine.kvCaches.insert agentId
        (.new agentId engine.config.kvCacheBudgetPerAgent now) }

/-- Update KV cache allocation. -/
def allocate (engine : SharedInferenceEngine) (agentId : String)
    (tokens : UInt32) : SharedInferenceEngine :=
  { engine with
    kvCaches := HashMap.modify agentId (KvCacheSlot.allocate tokens)
      engine.kvCaches }

def touchSlot (engine : SharedInferenceEngine) (agentId : String)
    (tokensGenerated : UInt32) (now : Nat) : SharedInferenceEngine :=
  { engine with
    kvCaches := HashMap.modify agentId (KvCacheSlot.touch now tokensGenerated)
      engine.kvCaches }

def touchModel (engine : SharedInferenceEngine) (family : ModelFamily)
    (now : Nat) : SharedInferenceEngine :=
  { engine with
    pool := HashMap.modify family (LoadedModel.touch now) engine.pool }

/-- The first half of `evict_idle`: evict idle KV caches. -/
def evictIdleSlots (engine : SharedInferenceEngine) (now : Nat) :
    SharedInferenceEngine :=
  let idleAgents := (engine.kvCaches.entries.filter fun entry =>
    decide (entry.2.idleDuration now > engine.config.timeout)).map Sigma.fst
  { engine with
    kvCaches := HashMap.eraseAll idleAgents engine.kvCaches }

/-- The second half of `evict_idle`: evict idle models. -/
def evictIdleModels (engine : SharedInferenceEngine) (now : Nat) :
    SharedInferenceEngine :=
  let idleModels := (engine.pool.entries.filter fun entry =>
    decide (entry.2.idleDuration now > engine.config.timeout)).map Sigma.fst
  idleModels.foldl unload engine

/-- Release an agent's KV cache. -/
def releaseAgent (engine : SharedInferenceEngine) (agentId : String) :
    SharedInferenceEngine :=
  { engine with kvCaches := engine.kvCaches.erase agentId }

end SharedInferenceEngine

/-! ## Sections -/

/-- Inference response, without its timing and reflection. -/
structure InferenceResponse where
  text : String
  tokensGenerated : UInt32
  modelUsed : String
  taskComplexity : String
  agentId : String
  kvCacheBytes : UInt64
deriving DecidableEq, Repr

/-- A request and the model selected for it. -/
structure Selected where
  request : InferenceRequest
  family : ModelFamily
  complexity : TaskComplexity
deriving DecidableEq, Repr

/-- A request and what was generated for it. -/
structure Generated extends Selected where
  text : String
  tokensGenerated : UInt32
deriving DecidableEq, Repr

/-- The calls on the engine. -/
inductive Request where
  | infer (request : InferenceRequest)
  | releaseAgent (agentId : String)
  | evictIdle (now : Nat)
deriving DecidableEq, Repr

/-- The section a call comes to next. -/
inductive Place where
  | fastPath (selected : Selected)
  | slowPath (selected : Selected)
  | ensureKvCache (selected : Selected)
  | readPool (selected : Selected) (modelConfig : ModelConfig)
  | allocate (generated : Generated)
  | countRequest (generated : Generated)
  | countTokens (generated : Generated)
  | touchSlot (generated : Generated)
  | touchModel (generated : Generated)
  | readSlot (generated : Generated)
  | leave (result : Except InferenceError InferenceResponse)
  | evictIdleModels

inductive Answer where
  | inferred (result : Except InferenceError InferenceResponse)
  | released
  | evicted

section Sections

variable (toLowercase : String → String)

/-- Select model (auto or override). -/
def select (request : InferenceRequest) : Selected :=
  let auto := autoSelectModel toLowercase request.prompt
  { request
    family := request.modelOverride.getD auto.1
    complexity := auto.2 }

open SharedInferenceEngine

/-- The first section of a call. -/
def enter (engine : SharedInferenceEngine) :
    Request → SharedInferenceEngine × Progress Place Answer
  | .infer request =>
      ({ engine with activeInferences := engine.activeInferences + 1 },
        .goesOn (.fastPath (select toLowercase request)))
  | .releaseAgent agentId => (engine.releaseAgent agentId, .done .released)
  | .evictIdle now => (engine.evictIdleSlots now, .goesOn .evictIdleModels)

/-- The section of a call at a place. -/
def advance (engine : SharedInferenceEngine) (place : Place)
    (around : Surroundings) :
    SharedInferenceEngine × Progress Place Answer :=
  match place with
  | .fastPath selected =>
      if selected.family ∈ engine.pool then
        (engine, .goesOn (.ensureKvCache selected))
      else (engine, .goesOn (.slowPath selected))
  | .slowPath selected =>
      let (engine, loaded) := engine.ensureModelLoaded selected.family around
      match loaded with
      | .ok () => (engine, .goesOn (.ensureKvCache selected))
      | .error error => (engine, .goesOn (.leave (.error error)))
  | .ensureKvCache selected =>
      let engine := engine.ensureKvCache selected.request.agentId around.now
      match findModelConfig selected.family with
      | none =>
          (engine, .goesOn (.leave (.error
            (.noSuitableModel selected.complexity.display))))
      | some modelConfig =>
          (engine, .goesOn (.readPool selected modelConfig))
  -- both branches after the look at the weights simulate
  | .readPool selected modelConfig =>
      let text := responseText toLowercase selected.request modelConfig
      (engine, .goesOn (.allocate
        { toSelected := selected
          text
          tokensGenerated := tokenCount selected.request text }))
  | .allocate generated =>
      (engine.allocate generated.request.agentId generated.tokensGenerated,
        .goesOn (.countRequest generated))
  | .countRequest generated =>
      ({ engine with totalRequests := engine.totalRequests + 1 },
        .goesOn (.countTokens generated))
  | .countTokens generated =>
      ({ engine with
          totalTokens :=
            engine.totalTokens + generated.tokensGenerated.toUInt64 },
        .goesOn (.touchSlot generated))
  | .touchSlot generated =>
      (engine.touchSlot generated.request.agentId generated.tokensGenerated
          around.now,
        .goesOn (.touchModel generated))
  | .touchModel generated =>
      (engine.touchModel generated.family around.now,
        .goesOn (.readSlot generated))
  | .readSlot generated =>
      let kvBytes := ((engine.kvCaches.lookup generated.request.agentId).map
        KvCacheSlot.allocatedBytes).getD 0
      (engine, .goesOn (.leave (.ok
        { text := generated.text
          tokensGenerated := generated.tokensGenerated
          modelUsed := generated.family.display
          taskComplexity := generated.complexity.display
          agentId := generated.request.agentId
          kvCacheBytes := kvBytes })))
  | .leave result =>
      ({ engine with activeInferences := engine.activeInferences - 1 },
        .done (.inferred result))
  | .evictIdleModels => (engine.evictIdleModels around.now, .done .evicted)

def engineSections :
    Sections SharedInferenceEngine Place Request Surroundings Answer :=
  { enter := enter toLowercase
    advance := advance toLowercase }

/-- The engine and the calls after a run of sections. -/
def afterSections (config : EngineConfig)
    (moves : List (Move Request Surroundings)) :
    Interleaved SharedInferenceEngine Place Answer :=
  runCalls (Interleaved.step (engineSections toLowercase))
    (Interleaved.start (.new config)) moves

end Sections

end Ughi.Inference
