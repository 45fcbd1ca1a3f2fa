import Ughi.Sandbox.SkillRegistry
import Ughi.Sandbox.Trackers

/-!
# The sandbox engine

An execution passes the quarantine, the registry and the capability manager
before it runs, and the limit check before its result is returned.  What the
engine uses of the WebAssembly and JSON libraries is a parameter.
-/

namespace Ughi.Sandbox

open Ughi.Lib

/-- The import modules and the number of exports of a compiled module. -/
structure CompiledModule where
  imports : List String
  exportsCount : Nat
deriving DecidableEq, Repr

/-- The library calls of the engine: fuel for a store, validation and
compilation of a module, and JSON values with their texts. -/
structure Host where
  setFuel : Nat → Except String Unit
  validate : List UInt8 → Except String Unit
  compile : List UInt8 → Except String CompiledModule
  Value : Type
  null : Value
  toJson : Value → Except String String

/-- The JSON text of a value, empty when there is none. -/
def Host.payloadText (host : Host) (payload : host.Value) : String :=
  match host.toJson payload with
  | .ok text => text
  | .error _ => ""

def maxModuleSize : Nat := 2 * 1024 * 1024

def defaultFuel : Nat := 10000000

structure SkillInput (host : Host) where
  agentId : String
  skillName : String
  payload : host.Value

structure SkillResult where
  output : String
  status : String
  sandboxed : Bool
  fuelUsed : Nat
  fuelBudget : Nat
deriving DecidableEq, Repr

structure SkillOutput where
  result : SkillResult
  summary : String
  resourceUsage : ResourceUsage
  latencyMs : Nat
deriving DecidableEq, Repr

structure ValidationResult where
  valid : Bool
  reason : String
  importsCount : Nat
  exportsCount : Nat
  memoryPages : Nat
deriving DecidableEq, Repr

/-- What the clocks show to one execution: the wall clock of the capability
check and of a recorded violation, and the time since the start at the limit
check, in its message, in the usage and in the latency. -/
structure Readings where
  validateNow : Nat
  recordNow : Nat
  checkMs : Nat
  messageMs : Nat
  usageMs : Nat
  latencyMs : Nat
deriving DecidableEq, Repr

structure SandboxEngine where
  capabilities : CapabilityManager
  registry : SkillRegistry
  violations : ViolationTracker
  totalExecutions : Nat
  totalBlocked : Nat
  totalFuelConsumed : Nat

/-- The fuel of an execution, scaled with its memory. -/
def fuelBudget (scope : CapabilityScope) : Nat :=
  min (scope.maxMemoryBytes / 45) defaultFuel

/-- The limits an execution under a scope has. -/
def executionLimits (scope : CapabilityScope) : ResourceLimits :=
  { maxMemoryBytes := scope.maxMemoryBytes
    maxFuel := fuelBudget scope
    maxTimeMs := scope.maxTimeMs }

/-- The fuel a payload costs. -/
def fuelCost (payloadSize : Nat) : Nat :=
  max (wrappingMul 64 payloadSize 10) 1000

namespace SandboxEngine

def new : SandboxEngine :=
  { capabilities := .new
    registry := .new
    violations := .new
    totalExecutions := 0
    totalBlocked := 0
    totalFuelConsumed := 0 }

/-- Issue a token with a given scope. -/
def grantWithScope (engine : SandboxEngine) (agentId skillName : String)
    (scope : CapabilityScope) (ttlMs now : Nat) (nanos : UInt64) :
    SandboxResult Unit × SandboxEngine :=
  if !engine.registry.isRegistered skillName then
    (.error (.skillNotRegistered skillName), engine)
  else
    (.ok (),
      { engine with
        capabilities := (engine.capabilities.issue agentId skillName scope
          ttlMs now nanos).2 })

/-- Issue a token with the default scope of the skill. -/
def grant (engine : SandboxEngine) (agentId skillName : String)
    (ttlMs now : Nat) (nanos : UInt64) : SandboxResult Unit × SandboxEngine :=
  if !engine.registry.isRegistered skillName then
    (.error (.skillNotRegistered skillName), engine)
  else
    let scope := (engine.registry.defaultScope skillName).getD {}
    (.ok (),
      { engine with
        capabilities := (engine.capabilities.issue agentId skillName scope
          ttlMs now nanos).2 })

def revokeAll (engine : SandboxEngine) (agentId : String) : SandboxEngine :=
  { engine with capabilities := engine.capabilities.revokeAll agentId }

def releaseQuarantine (engine : SandboxEngine) (agentId : String) :
    SandboxEngine :=
  { engine with violations := engine.violations.release agentId }

/-- Count a blocked call and record it as a violation. -/
def block (engine : SandboxEngine) (agentId skillName reason : String)
    (now : Nat) : SandboxEngine :=
  { engine with
    totalBlocked := engine.totalBlocked + 1
    violations := (engine.violations.record agentId skillName reason now).2 }

/-- The import modules that are never allowed. -/
def forbiddenImport (moduleName : String) : Bool :=
  moduleName = "wasi_snapshot_preview1" || moduleName = "wasi_unstable" ||
    moduleName = "env"

def rejected (reason : String) (importsCount exportsCount : Nat) :
    ValidationResult :=
  { valid := false
    reason := reason
    importsCount := importsCount
    exportsCount := exportsCount
    memoryPages := 0 }

variable {host : Host}

/-- The static checks of a module: size, validity and imports. -/
def preValidate (host : Host) (wasmBytes : List UInt8) : ValidationResult :=
  if wasmBytes.length > maxModuleSize then
    rejected
      ("Module too large: " ++ wasmBytes.length.repr ++ " bytes > " ++
        maxModuleSize.repr ++ " max") 0 0
  else
    match host.validate wasmBytes with
    | .error message => rejected ("Invalid WASM: " ++ message) 0 0
    | .ok () =>
        match host.compile wasmBytes with
        | .error message => rejected ("Module parse failed: " ++ message) 0 0
        | .ok compiled =>
            match compiled.imports.find? forbiddenImport with
            | some moduleName =>
                rejected
                  ("Sandbox Violation - Access Denied: " ++
                    "forbidden import module '" ++ moduleName ++ "'")
                  compiled.imports.length compiled.exportsCount
            | none =>
                { valid := true
                  reason := "passed static analysis"
                  importsCount := compiled.imports.length
                  exportsCount := compiled.exportsCount
                  memoryPages := 0 }

/-- The usage of an execution: its payload and the fuel the payload costs. -/
def payloadUsage (scope : CapabilityScope) (payloadSize : Nat) :
    ResourceTracker :=
  let started := ResourceTracker.start (executionLimits scope)
  let allocated := (started.allocate payloadSize).2
  (allocated.consumeFuel (fuelCost payloadSize)).2

def resultText (input : SkillInput host) (scope : CapabilityScope)
    (payloadSize : Nat) : String :=
  "[SANDBOXED] Skill '" ++ input.skillName ++ "' executed for agent '" ++
    input.agentId ++ "' | fuel=" ++ (fuelCost payloadSize).repr ++ "/" ++
    (fuelBudget scope).repr ++ " | mem=" ++ payloadSize.repr ++ "/" ++
    scope.maxMemoryBytes.repr ++ "B"

def skillOutput (input : SkillInput host) (scope : CapabilityScope)
    (payloadSize : Nat) (readings : Readings) : SkillOutput :=
  let text := resultText input scope payloadSize
  { result :=
      { output := text
        status := "success"
        sandboxed := true
        fuelUsed := fuelCost payloadSize
        fuelBudget := fuelBudget scope }
    summary := text
    resourceUsage := (payloadUsage scope payloadSize).usage readings.usageMs
    latencyMs := readings.latencyMs }

/-- The execution itself, once a token has been found. -/
def executeWithin (engine : SandboxEngine) (input : SkillInput host)
    (scope : CapabilityScope) (readings : Readings) :
    SandboxResult SkillOutput × SandboxEngine :=
  match host.setFuel (fuelBudget scope) with
  | .error message =>
      (.error (.resourceExceeded ("fuel setup failed: " ++ message) 0
        (fuelBudget scope)), engine)
  | .ok () =>
      let payloadSize := (host.payloadText input.payload).utf8ByteSize
      let tracker := payloadUsage scope payloadSize
      match tracker.checkLimits readings.checkMs readings.messageMs with
      | some violation =>
          (.error (.resourceExceeded violation 0 0),
            { engine with
              violations := (engine.violations.record input.agentId
                input.skillName violation readings.recordNow).2 })
      | none =>
          (.ok (skillOutput input scope payloadSize readings),
            { engine with
              totalExecutions := engine.totalExecutions + 1
              totalFuelConsumed :=
                engine.totalFuelConsumed + fuelCost payloadSize })

def execute (engine : SandboxEngine) (input : SkillInput host)
    (readings : Readings) : SandboxResult SkillOutput × SandboxEngine :=
  if engine.violations.isQuarantined input.agentId then
    (.error (.agentQuarantined input.agentId
        (engine.violations.agentViolationCount input.agentId)),
      { engine with totalBlocked := engine.totalBlocked + 1 })
  else if !engine.registry.isRegistered input.skillName then
    (.error (.skillNotRegistered input.skillName),
      engine.block input.agentId input.skillName "unregistered skill"
        readings.recordNow)
  else
    let validated := engine.capabilities.validate input.agentId
      input.skillName readings.validateNow
    let checked := { engine with capabilities := validated.2 }
    match validated.1 with
    | .error denial =>
        (.error denial,
          checked.block input.agentId input.skillName
            ("capability denied: " ++ denial.display) readings.recordNow)
    | .ok token => checked.executeWithin input token.scope readings

/-- Execute raw module bytes, which are validated first. -/
def executeWasmModule (engine : SandboxEngine) (input : SkillInput host)
    (wasmBytes : List UInt8) (readings : Readings) :
    SandboxResult SkillOutput × SandboxEngine :=
  let validation := preValidate host wasmBytes
  if !validation.valid then
    (.error (.capabilityDenied input.agentId
        (input.skillName ++ ": " ++ validation.reason)),
      engine.block input.agentId input.skillName validation.reason
        readings.recordNow)
  else engine.execute input readings

section Outcomes

variable {engine : SandboxEngine} {input : SkillInput host}
  {readings : Readings} {output : SkillOutput}

theorem grant_eq_grantWithScope (agentId skillName : String)
    (ttlMs now : Nat) (nanos : UInt64) :
    engine.grant agentId skillName ttlMs now nanos =
      engine.grantWithScope agentId skillName
        ((engine.registry.defaultScope skillName).getD {}) ttlMs now nanos :=
  rfl

theorem executeWithin_capabilities (scope : CapabilityScope) :
    (engine.executeWithin input scope readings).2.capabilities =
      engine.capabilities := by
  simp only [executeWithin]
  split
  · rfl
  · split <;> rfl

theorem executeWithin_registry (scope : CapabilityScope) :
    (engine.executeWithin input scope readings).2.registry =
      engine.registry := by
  simp only [executeWithin]
  split
  · rfl
  · split <;> rfl

/-- An execution runs through exactly when the store takes its fuel and its
usage is within every limit. -/
theorem executeWithin_eq_ok_iff {scope : CapabilityScope} :
    (engine.executeWithin input scope readings).1 = .ok output ↔
      host.setFuel (fuelBudget scope) = .ok () ∧
        (payloadUsage scope
            (host.payloadText input.payload).utf8ByteSize).checkLimits
          readings.checkMs readings.messageMs = none ∧
          output = skillOutput input scope
            (host.payloadText input.payload).utf8ByteSize readings := by
  simp only [executeWithin]
  split
  next refused =>
    simp [refused]
  next fuelled =>
    split
    next exceeded =>
      simp [exceeded]
    next within =>
      simp [fuelled, within, eq_comm]

theorem execute_eq_ok_iff :
    (engine.execute input readings).1 = .ok output ↔
      engine.violations.isQuarantined input.agentId = false ∧
        engine.registry.isRegistered input.skillName = true ∧
          ∃ token,
            (engine.capabilities.validate input.agentId input.skillName
                readings.validateNow).1 = .ok token ∧
              (engine.executeWithin input token.scope readings).1 =
                .ok output := by
  simp only [execute]
  split
  next quarantined =>
    simp [quarantined]
  next free =>
    split
    next unregistered =>
      simp [show engine.registry.isRegistered input.skillName = false by
        simpa using unregistered]
    next registered =>
      have passed : engine.violations.isQuarantined input.agentId = false ∧
          engine.registry.isRegistered input.skillName = true :=
        ⟨by simpa using free, by simpa using registered⟩
      rw [passed.1, passed.2]
      cases engine.capabilities.validate input.agentId input.skillName
          readings.validateNow with
      | mk validated capabilities =>
          cases validated with
          | error denial => simp
          | ok token => simp [executeWithin_eq_ok_iff]

theorem usage_of_executeWithin {scope : CapabilityScope}
    (succeeded : (engine.executeWithin input scope readings).1 =
      .ok output) :
    output.resourceUsage.memoryBytes ≤ scope.maxMemoryBytes ∧
      output.resourceUsage.fuelUsed ≤ fuelBudget scope := by
  obtain ⟨_, within, rfl⟩ := executeWithin_eq_ok_iff.mp succeeded
  have limits := (ResourceTracker.checkLimits_eq_none_iff _ _ _).mp within
  exact ⟨limits.1, limits.2.1⟩

theorem execute_tokens :
    (engine.execute input readings).2.capabilities.tokens =
      engine.capabilities.tokens := by
  simp only [execute]
  split
  · rfl
  · split
    · rfl
    · split
      · exact CapabilityManager.tokens_validate _ _ _ _
      · rw [executeWithin_capabilities]
        exact CapabilityManager.tokens_validate _ _ _ _

theorem execute_registry :
    (engine.execute input readings).2.registry = engine.registry := by
  simp only [execute]
  split
  · rfl
  · split
    · rfl
    · split
      · rfl
      · rw [executeWithin_registry]

theorem executeWithin_violations (scope : CapabilityScope) :
    (engine.executeWithin input scope readings).2.violations =
        engine.violations ∨
      ∃ reason,
        (engine.executeWithin input scope readings).2.violations =
          (engine.violations.record input.agentId input.skillName reason
            readings.recordNow).2 := by
  simp only [executeWithin]
  split
  · exact .inl rfl
  · split
    · exact .inr ⟨_, rfl⟩
    · exact .inl rfl

/-- An execution records at most one violation, of its own agent. -/
theorem execute_violations (engine : SandboxEngine) (input : SkillInput host)
    (readings : Readings) :
    (engine.execute input readings).2.violations = engine.violations ∨
      ∃ reason, (engine.execute input readings).2.violations =
        (engine.violations.record input.agentId input.skillName reason
          readings.recordNow).2 := by
  simp only [execute]
  split
  · exact .inl rfl
  · split
    · exact .inr ⟨_, rfl⟩
    · split
      · exact .inr ⟨_, rfl⟩
      · exact executeWithin_violations _

theorem executeWasmModule_cases (wasmBytes : List UInt8) :
    (∃ reason,
        engine.executeWasmModule input wasmBytes readings =
          (.error (.capabilityDenied input.agentId
              (input.skillName ++ ": " ++ reason)),
            engine.block input.agentId input.skillName reason
              readings.recordNow)) ∨
      engine.executeWasmModule input wasmBytes readings =
        engine.execute input readings := by
  simp only [executeWasmModule]
  split
  · exact .inl ⟨_, rfl⟩
  · exact .inr rfl

end Outcomes

end SandboxEngine

end Ughi.Sandbox
