import Ughi.Computer.Record

/-!
# Going on from a checkpoint

A checkpoint writes whether steps remain into the status; resuming overwrites
the status with `Running` in any case.  So a workflow comes back as it was left
exactly when steps remain, and a finished one comes back as running.
-/

namespace Ughi.Computer

open Ughi.Lib
open Ughi.Lib.Binary64 (Double)

/-- serde_json writes the workflow, and reads back what it wrote. -/
def WorkflowJson.ReadsBack (json : WorkflowJson) (wf : Workflow) : Prop :=
  ∃ text, json.toStringPretty wf = .ok text ∧ json.fromStr text = some wf

namespace Workflow

/-- What should come back from a checkpoint: the workflow itself, running when
steps remain and completed when none do. -/
def asLeft (wf : Workflow) (now : UInt64) : Workflow :=
  { wf with
    lastCheckpointMs := now
    status :=
      if wf.currentStep < wf.steps.length then .running else .completed }

/-- Resuming from a checkpoint of the workflow gives it back as it was left. -/
def ResumesAsLeft (json : WorkflowJson) (wf : Workflow) (now : UInt64) : Prop :=
  resumeFromCheckpoint json (wf.checkpoint json now).2 = some (wf.asLeft now)

theorem resumeFromCheckpoint_checkpoint {json : WorkflowJson} {wf : Workflow}
    {now : UInt64} (readsBack : json.ReadsBack (wf.checkpoint json now).1) :
    resumeFromCheckpoint json (wf.checkpoint json now).2 =
      some { wf with
        lastCheckpointMs := now
        status := .running } := by
  obtain ⟨text, written, read⟩ := readsBack
  have checkpointText : (wf.checkpoint json now).2 = text := by
    change json.text (wf.checkpoint json now).1 = text
    rw [WorkflowJson.text, written]
  rw [checkpointText, resumeFromCheckpoint, read]
  rfl

/-- A workflow made by edits, whatever its status, comes back from a checkpoint
as it was left exactly when steps remain. -/
theorem resumesAsLeft_iff (json : WorkflowJson) (id goal : String)
    (created now : UInt64) (edits : List Edit)
    (readsBack : json.ReadsBack
      ((edited json id goal created edits).checkpoint json now).1) :
    let wf := edited json id goal created edits
    wf.ResumesAsLeft json now ↔ wf.currentStep < wf.steps.length := by
  intro wf
  rw [ResumesAsLeft, resumeFromCheckpoint_checkpoint readsBack,
    Option.some_inj, asLeft]
  constructor
  · intro same
    by_contra finished
    rw [if_neg finished] at same
    have status := congrArg Workflow.status same
    cases status
  · intro unfinished
    rw [if_pos unfinished]

/-- The step of a workflow is done. -/
def oneStep : List Edit :=
  [.addStep "Code" "Implement app" .code, .progress,
    .completeStep "Done" "LocalPhi3" 5000 0]

/-- The workflow when its checkpoint is written. -/
def oneStepDone : Workflow :=
  { id := "wf-000001"
    goal := "Build an app"
    status := .completed
    steps :=
      [{ id := 1
         name := "Code"
         description := "Implement app"
         phase := .code
         status := .completed
         output := some "Done"
         modelUsed := some "LocalPhi3"
         durationMs := 5000
         retryCount := 0 }]
    currentStep := 1
    createdAtMs := 1000
    lastCheckpointMs := 7000
    totalDurationMs := 5000
    totalCostUsd := 0
    checkpointPath := "data/workflows/wf-000001.checkpoint.json" }

/-- What serde_json writes of it. -/
def oneStepText : String :=
  "\x7b\n  \"id\": \"wf-000001\",\n  \"goal\": \"Build an app\",\n" ++
  "  \"status\": \"Completed\",\n  \"steps\": [\n    \x7b\n" ++
  "      \"id\": 1,\n      \"name\": \"Code\",\n" ++
  "      \"description\": \"Implement app\",\n      \"phase\": \"Code\",\n" ++
  "      \"status\": \"Completed\",\n      \"output\": \"Done\",\n" ++
  "      \"model_used\": \"LocalPhi3\",\n      \"duration_ms\": 5000,\n" ++
  "      \"retry_count\": 0\n    \x7d\n  ],\n  \"current_step\": 1,\n" ++
  "  \"created_at_ms\": 1000,\n  \"last_checkpoint_ms\": 7000,\n" ++
  "  \"total_duration_ms\": 5000,\n  \"total_cost_usd\": 0.0,\n" ++
  "  \"checkpoint_path\": " ++
  "\"data/workflows/wf-000001.checkpoint.json\"\n\x7d"

/-- serde_json as far as one workflow goes. -/
def jsonOf (wf : Workflow) (text : String) : WorkflowJson :=
  { toStringPretty := fun other =>
      if other = wf then .ok text else .error ""
    fromStr := fun read => if read = text then some wf else none }

theorem jsonOf_readsBack (wf : Workflow) (text : String) :
    (jsonOf wf text).ReadsBack wf := by
  refine ⟨text, ?_, ?_⟩
  · simp [jsonOf]
  · simp [jsonOf]

theorem checkpoint_oneStep (json : WorkflowJson) :
    ((edited json "wf-000001" "Build an app" 1000 oneStep).checkpoint json
      7000).1 = oneStepDone := by
  have written :
      ((edited json "wf-000001" "Build an app" 1000 oneStep).checkpoint json
        7000).1 = { oneStepDone with totalCostUsd := 0 + 0 } := rfl
  rw [written, Double.zero_add_zero]
  rfl

/-- A finished workflow comes back from its checkpoint as running. -/
theorem finished_workflow_resumed :
    let json := jsonOf oneStepDone oneStepText
    let wf := edited json "wf-000001" "Build an app" 1000 oneStep
    json.ReadsBack (wf.checkpoint json 7000).1 ∧ wf.status = .completed ∧
      ¬ wf.ResumesAsLeft json 7000 := by
  intro json wf
  have readsBack : json.ReadsBack (wf.checkpoint json 7000).1 := by
    rw [checkpoint_oneStep]
    exact jsonOf_readsBack oneStepDone oneStepText
  refine ⟨readsBack, rfl, ?_⟩
  intro asLeft
  rw [ResumesAsLeft, resumeFromCheckpoint_checkpoint readsBack] at asLeft
  have status := congrArg Workflow.status (Option.some.inj asLeft)
  cases status

theorem resumesAsLeft_iff_oneStep :
    let json := jsonOf oneStepDone oneStepText
    let wf := edited json "wf-000001" "Build an app" 1000 oneStep
    wf.ResumesAsLeft json 7000 ↔ wf.currentStep < wf.steps.length := by
  apply resumesAsLeft_iff
  rw [checkpoint_oneStep]
  exact jsonOf_readsBack oneStepDone oneStepText

end Workflow

end Ughi.Computer
