import Ughi.Lib.Binary64
import Ughi.Lib.Text
import Ughi.Lib.Vec

/-!
# Workflows

A workflow is a list of steps with an index to the current one.  Its
operations write the status of the workflow and of the current step.
Checkpoints are JSON: how `serde_json` writes and reads a workflow is the
parameter `WorkflowJson`.  Clock readings are milliseconds.
-/

namespace Ughi.Computer

open Ughi.Lib
open Ughi.Lib.Binary64 (Double)

/-- Workflow execution status. -/
inductive WorkflowStatus where
  | pending
  | running
  | paused
  | checkpointed
  | completed
  | failed
  | killed
deriving DecidableEq, Repr

def WorkflowStatus.display : WorkflowStatus → String
  | .pending => "Pending"
  | .running => "Running"
  | .paused => "Paused"
  | .checkpointed => "Checkpointed"
  | .completed => "Completed"
  | .failed => "Failed"
  | .killed => "Killed"

/-- Project lifecycle phases. -/
inductive ProjectPhase where
  | research
  | planning
  | design
  | code
  | test
  | deploy
  | monitor
  | iterate
deriving DecidableEq, Repr

def ProjectPhase.display : ProjectPhase → String
  | .research => "Research"
  | .planning => "Planning"
  | .design => "Design"
  | .code => "Code"
  | .test => "Test"
  | .deploy => "Deploy"
  | .monitor => "Monitor"
  | .iterate => "Iterate"

/-- A single step in a workflow. -/
structure WorkflowStep where
  id : UInt32
  name : String
  description : String
  phase : ProjectPhase
  status : WorkflowStatus
  output : Option String
  modelUsed : Option String
  durationMs : UInt64
  retryCount : UInt8
deriving DecidableEq

structure Workflow where
  id : String
  goal : String
  status : WorkflowStatus
  steps : List WorkflowStep
  currentStep : Nat
  createdAtMs : UInt64
  lastCheckpointMs : UInt64
  totalDurationMs : UInt64
  totalCostUsd : Double
  checkpointPath : String
deriving DecidableEq

/-- How serde_json writes and reads a workflow. -/
structure WorkflowJson where
  toStringPretty : Workflow → Except String String
  fromStr : String → Option Workflow

/-- The text of a workflow, or the default where it cannot be written. -/
def WorkflowJson.text (json : WorkflowJson) (wf : Workflow) : String :=
  match json.toStringPretty wf with
  | .ok text => text
  | .error _ => ""

namespace Workflow

/-- Create a new workflow from a high-level goal. -/
def new (id goal : String) (now : UInt64) : Workflow :=
  { id
    goal
    status := .pending
    steps := []
    currentStep := 0
    createdAtMs := now
    lastCheckpointMs := 0
    totalDurationMs := 0
    totalCostUsd := 0
    checkpointPath := "data/workflows/" ++ id ++ ".checkpoint.json" }

def addStep (wf : Workflow) (name desc : String) (phase : ProjectPhase) :
    Workflow :=
  { wf with
    steps := wf.steps ++
      [{ id := UInt32.ofNat wf.steps.length + 1
         name
         description := desc
         phase
         status := .pending
         output := none
         modelUsed := none
         durationMs := 0
         retryCount := 0 }] }

/-- Overwrite the current step. -/
def modifyCurrent (wf : Workflow) (change : WorkflowStep → WorkflowStep) :
    Workflow :=
  { wf with steps := wf.steps.modify wf.currentStep change }

/-- Progress to next step. -/
def progress (wf : Workflow) : Workflow × Option WorkflowStep :=
  if wf.currentStep < wf.steps.length then
    let wf := wf.modifyCurrent fun step => { step with status := .running }
    let wf := { wf with status := .running }
    (wf, wf.steps[wf.currentStep]?)
  else
    (wf, none)

/-- Complete current step with output. -/
def completeStep (wf : Workflow) (output model : String)
    (durationMs : UInt64) (costUsd : Double) : Workflow :=
  if wf.currentStep < wf.steps.length then
    let wf := wf.modifyCurrent fun step =>
      { step with
        status := .completed
        output := some output
        modelUsed := some model
        durationMs := durationMs }
    let wf :=
      { wf with
        totalDurationMs := wf.totalDurationMs + durationMs
        totalCostUsd := wf.totalCostUsd + costUsd
        currentStep := wf.currentStep + 1 }
    if wf.steps.length ≤ wf.currentStep then
      { wf with status := .completed }
    else wf
  else wf

/-- Fail current step (with retry). -/
def failStep (wf : Workflow) (error : String) : Workflow :=
  match wf.steps[wf.currentStep]? with
  | none => wf
  | some step =>
      let retryCount := step.retryCount + 1
      if 3 ≤ retryCount then
        let wf := wf.modifyCurrent fun step =>
          { step with
            retryCount
            status := .failed
            output := some ("FAILED after 3 retries: " ++ error) }
        { wf with status := .failed }
      else
        wf.modifyCurrent fun step =>
          { step with
            retryCount
            status := .pending }

/-- Checkpoint workflow to disk; the text is what is written. -/
def checkpoint (json : WorkflowJson) (wf : Workflow) (now : UInt64) :
    Workflow × String :=
  let wf :=
    { wf with
      lastCheckpointMs := now
      status :=
        if wf.currentStep < wf.steps.length then .checkpointed
        else .completed }
  (wf, json.text wf)

/-- Resume from checkpoint. -/
def resumeFromCheckpoint (json : WorkflowJson) (text : String) :
    Option Workflow :=
  (json.fromStr text).map fun wf => { wf with status := .running }

def pause (wf : Workflow) : Workflow :=
  { wf with status := .paused }

def kill (wf : Workflow) : Workflow :=
  { wf with status := .killed }

/-- Get completed step count. -/
def completedSteps (wf : Workflow) : Nat :=
  (wf.steps.filter fun s => s.status = .completed).length

theorem map_modifyCurrent {α : Type} (wf : Workflow) {field : WorkflowStep → α}
    {change : WorkflowStep → WorkflowStep}
    (kept : ∀ step, field (change step) = field step) :
    (wf.modifyCurrent change).steps.map field = wf.steps.map field :=
  map_modify_of_kept kept wf.steps wf.currentStep

theorem exists_of_getElem?_modifyCurrent {wf : Workflow}
    {change : WorkflowStep → WorkflowStep} {index : Nat}
    {step : WorkflowStep}
    (found : (wf.modifyCurrent change).steps[index]? = some step) :
    ∃ old, wf.steps[index]? = some old ∧
      (index = wf.currentStep ∧ step = change old ∨
        index ≠ wf.currentStep ∧ step = old) := by
  rw [modifyCurrent, List.getElem?_modify] at found
  obtain ⟨old, oldFound, changed⟩ := Option.map_eq_some_iff.mp found
  refine ⟨old, oldFound, ?_⟩
  by_cases atCurrent : wf.currentStep = index
  · rw [if_pos atCurrent] at changed
    exact Or.inl ⟨atCurrent.symm, changed.symm⟩
  · rw [if_neg atCurrent] at changed
    exact Or.inr ⟨Ne.symm atCurrent, changed.symm⟩

end Workflow

/-- Workflow engine.  `totalCreated` counts the workflows pushed to the vector,
so it does not reach the end of its word. -/
structure WorkflowEngine where
  workflows : List Workflow
  totalCreated : Nat

namespace WorkflowEngine

def new : WorkflowEngine :=
  { workflows := []
    totalCreated := 0 }

def workflowId (number : Nat) : String :=
  "wf-" ++ decimalPadded 6 number

/-- Create a new workflow and return its ID. -/
def create (engine : WorkflowEngine) (goal : String) (now : UInt64) :
    WorkflowEngine × String :=
  let totalCreated := engine.totalCreated + 1
  let id := workflowId totalCreated
  ({ workflows := engine.workflows ++ [Workflow.new id goal now]
     totalCreated },
    id)

/-- Get a workflow by ID. -/
def get (engine : WorkflowEngine) (id : String) : Option Workflow :=
  firstWith Workflow.id id engine.workflows

/-- What is written through `get_mut`. -/
def modify (engine : WorkflowEngine) (id : String)
    (change : Workflow → Workflow) : WorkflowEngine :=
  { engine with
    workflows := modifyFirst Workflow.id id change engine.workflows }

/-- The workflows carry the identifiers drawn so far, in order. -/
def Numbered (engine : WorkflowEngine) : Prop :=
  engine.workflows.map Workflow.id =
    (List.range engine.totalCreated).map fun drawn => workflowId (drawn + 1)

theorem workflowId_injective : Function.Injective workflowId := by
  intro left right same
  apply decimalPadded_injective 6
  exact String.append_right_inj "wf-" |>.mp same

theorem new_numbered : new.Numbered :=
  rfl

theorem create_numbered {engine : WorkflowEngine}
    (numbered : engine.Numbered) (goal : String) (now : UInt64) :
    (engine.create goal now).1.Numbered := by
  unfold Numbered at numbered ⊢
  simp [create, numbered, List.range_succ, Workflow.new]

theorem modify_numbered {engine : WorkflowEngine}
    (numbered : engine.Numbered) {id : String}
    {change : Workflow → Workflow}
    (kept : ∀ wf, wf.id = id → (change wf).id = id) :
    (engine.modify id change).Numbered := by
  unfold Numbered at numbered ⊢
  rw [modify, map_modifyFirst fun wf _ => kept wf, numbered]

theorem id_ne_create {engine : WorkflowEngine} (numbered : engine.Numbered)
    (goal : String) (now : UInt64) :
    ∀ wf ∈ engine.workflows, wf.id ≠ (engine.create goal now).2 := by
  intro wf member same
  have drawn : wf.id ∈ engine.workflows.map Workflow.id :=
    List.mem_map_of_mem member
  rw [numbered, same] at drawn
  obtain ⟨number, inRange, sameId⟩ := List.mem_map.mp drawn
  have sameNumber := workflowId_injective sameId
  have below := List.mem_range.mp inRange
  omega

theorem get_create {engine : WorkflowEngine} (numbered : engine.Numbered)
    (goal : String) (now : UInt64) :
    (engine.create goal now).1.get (engine.create goal now).2 =
      some (Workflow.new (engine.create goal now).2 goal now) := by
  have absent : firstWith Workflow.id (workflowId (engine.totalCreated + 1))
      engine.workflows = none :=
    firstWith_eq_none_iff.mpr (id_ne_create numbered goal now)
  simp only [get, create, firstWith_append, absent, Option.none_or]
  simp [firstWith_cons, Workflow.new]

theorem get_modify {engine : WorkflowEngine} {id : String}
    {change : Workflow → Workflow}
    (kept : ∀ wf, wf.id = id → (change wf).id = id) :
    (engine.modify id change).get id = (engine.get id).map change := by
  rw [get, modify, firstWith_modifyFirst fun wf _ => kept wf, if_pos rfl]
  rfl

end WorkflowEngine

end Ughi.Computer
