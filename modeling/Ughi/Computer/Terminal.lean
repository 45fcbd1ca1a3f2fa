import Ughi.Computer.Computer

/-!
# When a finished workflow stays finished

The operations write the status of a workflow without asking for it.  Which of
them leave a finished workflow finished depends on whether the index has passed
the last step.
-/

namespace Ughi.Computer

open Ughi.Lib
open Ughi.Lib.Binary64 (Double)

/-- The statuses no operation should leave. -/
def WorkflowStatus.isTerminal : WorkflowStatus → Bool
  | .completed | .failed | .killed => true
  | .pending | .running | .paused | .checkpointed => false

namespace Workflow

/-- The operations on a workflow.  `resume` is what `UghiComputer::resume`
writes; `resumeFromCheckpoint` takes a checkpoint and goes on from it, or with
the workflow at hand where the text cannot be read back. -/
inductive Call where
  | progress
  | completeStep (output model : String) (durationMs : UInt64)
      (costUsd : Double)
  | failStep (error : String)
  | checkpoint (now : UInt64)
  | pause
  | kill
  | resume
  | resumeFromCheckpoint (now : UInt64)

def serve (json : WorkflowJson) (wf : Workflow) : Call → Workflow
  | .progress => wf.progress.1
  | .completeStep output model durationMs costUsd =>
      wf.completeStep output model durationMs costUsd
  | .failStep error => wf.failStep error
  | .checkpoint now => (wf.checkpoint json now).1
  | .pause => wf.pause
  | .kill => wf.kill
  | .resume => wf.resume
  | .resumeFromCheckpoint now =>
      let (wf, text) := wf.checkpoint json now
      (resumeFromCheckpoint json text).getD wf

/-- Once `wf` is finished, `later` is finished and has no further completed
step. -/
structure StaysTerminal (wf later : Workflow) : Prop where
  status : wf.status.isTerminal = true → later.status.isTerminal = true
  steps : wf.status.isTerminal = true →
    ∀ (index : Nat) step, later.steps[index]? = some step →
      step.status = .completed →
        ∃ old, wf.steps[index]? = some old ∧ old.status = .completed

/-- The calls that leave a finished workflow finished. -/
def KeepsTerminal (json : WorkflowJson) (wf : Workflow) (call : Call) :
    Prop :=
  wf.status.isTerminal = true →
    match call with
    | .progress | .checkpoint _ => wf.steps.length ≤ wf.currentStep
    | .completeStep _ _ _ _ =>
        ∀ step, wf.steps[wf.currentStep]? = some step →
          step.status = .completed
    | .failStep _ | .kill => True
    | .pause | .resume => False
    | .resumeFromCheckpoint now =>
        wf.steps.length ≤ wf.currentStep ∧
          json.fromStr (json.text
            { wf with
              lastCheckpointMs := now
              status := .completed }) = none

namespace StaysTerminal

theorem refl (wf : Workflow) : StaysTerminal wf wf :=
  { status := fun terminal => terminal
    steps := fun _ _ step found done => ⟨step, found, done⟩ }

theorem trans {first second third : Workflow}
    (earlier : StaysTerminal first second)
    (later : StaysTerminal second third) : StaysTerminal first third := by
  constructor
  · intro terminal
    exact later.status (earlier.status terminal)
  · intro terminal index step found done
    obtain ⟨middle, middleFound, middleDone⟩ :=
      later.steps (earlier.status terminal) index step found done
    exact earlier.steps terminal index middle middleFound middleDone

theorem of_steps_eq {wf later : Workflow} (same : later.steps = wf.steps)
    (status : wf.status.isTerminal = true →
      later.status.isTerminal = true) : StaysTerminal wf later := by
  refine ⟨status, ?_⟩
  intro _ index step found done
  rw [same] at found
  exact ⟨step, found, done⟩

/-- Overwriting the current step completes no step unless it writes that
status. -/
theorem of_modifyCurrent {wf later : Workflow}
    {change : WorkflowStep → WorkflowStep}
    (same : later.steps = (wf.modifyCurrent change).steps)
    (status : wf.status.isTerminal = true → later.status.isTerminal = true)
    (current : wf.status.isTerminal = true →
      ∀ step, wf.steps[wf.currentStep]? = some step →
        (change step).status = .completed → step.status = .completed) :
    StaysTerminal wf later := by
  refine ⟨status, ?_⟩
  intro terminal index step found done
  rw [same] at found
  obtain ⟨old, oldFound, ⟨rfl, rfl⟩ | ⟨_, rfl⟩⟩ :=
    exists_of_getElem?_modifyCurrent found
  · exact ⟨old, oldFound, current terminal old oldFound done⟩
  · exact ⟨step, oldFound, done⟩

end StaysTerminal

/-! ## One call -/

/-- Writing a status that is not final is right for unfinished workflows
only. -/
theorem staysTerminal_iff_of_reopened {wf later : Workflow}
    (reopened : later.status.isTerminal = false) :
    StaysTerminal wf later ↔ (wf.status.isTerminal = true → False) := by
  constructor
  · intro stays terminal
    have kept := stays.status terminal
    rw [reopened] at kept
    cases kept
  · intro unfinished
    exact ⟨fun terminal => (unfinished terminal).elim,
      fun terminal => (unfinished terminal).elim⟩

theorem progress_staysTerminal_iff (wf : Workflow) :
    StaysTerminal wf wf.progress.1 ↔
      (wf.status.isTerminal = true → wf.steps.length ≤ wf.currentStep) := by
  rw [progress]
  by_cases inside : wf.currentStep < wf.steps.length
  · rw [if_pos inside, staysTerminal_iff_of_reopened rfl]
    simp [Nat.not_le_of_lt inside]
  · rw [if_neg inside]
    exact iff_of_true (.refl wf) fun _ => Nat.le_of_not_lt inside

theorem completeStep_staysTerminal_iff (wf : Workflow)
    (output model : String) (durationMs : UInt64) (costUsd : Double) :
    StaysTerminal wf (wf.completeStep output model durationMs costUsd) ↔
      (wf.status.isTerminal = true →
        ∀ step, wf.steps[wf.currentStep]? = some step →
          step.status = .completed) := by
  rw [completeStep]
  by_cases inside : wf.currentStep < wf.steps.length
  · rw [if_pos inside]
    have current : wf.steps[wf.currentStep]? =
        some wf.steps[wf.currentStep] := List.getElem?_eq_getElem inside
    constructor
    · intro stays terminal step found
      have before := stays.steps terminal wf.currentStep
      obtain ⟨old, oldFound, done⟩ := before
        { step with
          status := .completed
          output := some output
          modelUsed := some model
          durationMs := durationMs } (by
            dsimp only
            split
            all_goals
              simp [modifyCurrent, found]) rfl
      rw [found] at oldFound
      cases oldFound
      exact done
    · intro completed
      dsimp only
      split
      · exact .of_modifyCurrent rfl (fun _ => rfl)
          fun terminal step found _ => completed terminal step found
      · exact .of_modifyCurrent rfl (fun terminal => terminal)
          fun terminal step found _ => completed terminal step found
  · rw [if_neg inside]
    have none := List.getElem?_eq_none (Nat.le_of_not_lt inside)
    simp [none, StaysTerminal.refl wf]

theorem failStep_staysTerminal (wf : Workflow) (error : String) :
    StaysTerminal wf (wf.failStep error) := by
  unfold failStep
  split
  next => exact .refl wf
  next failing _ =>
    dsimp only
    split
    · refine .of_modifyCurrent rfl (fun _ => rfl) ?_
      intro _ step _ done
      cases done
    · refine .of_modifyCurrent rfl (fun terminal => terminal) ?_
      intro _ step _ done
      cases done

theorem checkpoint_staysTerminal_iff (json : WorkflowJson) (wf : Workflow)
    (now : UInt64) :
    StaysTerminal wf (wf.checkpoint json now).1 ↔
      (wf.status.isTerminal = true → wf.steps.length ≤ wf.currentStep) := by
  by_cases inside : wf.currentStep < wf.steps.length
  · have unfinished : (wf.checkpoint json now).1.status = .checkpointed :=
      if_pos inside
    have reopened : (wf.checkpoint json now).1.status.isTerminal = false := by
      rw [unfinished]
      rfl
    rw [staysTerminal_iff_of_reopened reopened]
    simp [Nat.not_le_of_lt inside]
  · have finished : (wf.checkpoint json now).1.status = .completed :=
      if_neg inside
    refine iff_of_true (.of_steps_eq rfl fun _ => ?_)
      fun _ => Nat.le_of_not_lt inside
    rw [finished]
    rfl

/-- The text is written from the state the checkpoint leaves, so a checkpoint
taken behind the last step carries the status `Completed`. -/
theorem resumeFromCheckpoint_staysTerminal_iff (json : WorkflowJson)
    (wf : Workflow) (now : UInt64) :
    StaysTerminal wf (wf.serve json (.resumeFromCheckpoint now)) ↔
      KeepsTerminal json wf (.resumeFromCheckpoint now) := by
  let written := (wf.checkpoint json now).1
  have served : wf.serve json (.resumeFromCheckpoint now) =
      (resumeFromCheckpoint json (json.text written)).getD written := rfl
  have finished : wf.steps.length ≤ wf.currentStep → written =
      { wf with
        lastCheckpointMs := now
        status := .completed } := by
    intro behind
    simp [written, checkpoint, Nat.not_lt_of_le behind]
  rw [served]
  cases readBack : json.fromStr (json.text written) with
  | some resumed =>
      have reopened : ((resumeFromCheckpoint json (json.text written)).getD
          written).status.isTerminal = false := by
        simp [resumeFromCheckpoint, readBack, WorkflowStatus.isTerminal]
      rw [staysTerminal_iff_of_reopened reopened]
      constructor
      · intro unfinished terminal
        exact (unfinished terminal).elim
      · intro keeps terminal
        obtain ⟨behind, unread⟩ := keeps terminal
        rw [← finished behind, readBack] at unread
        cases unread
  | none =>
      have stuck : (resumeFromCheckpoint json (json.text written)).getD
          written = written := by
        simp [resumeFromCheckpoint, readBack]
      rw [stuck, checkpoint_staysTerminal_iff json wf now]
      constructor
      · intro behind terminal
        rw [finished (behind terminal)] at readBack
        exact ⟨behind terminal, readBack⟩
      · intro keeps terminal
        exact (keeps terminal).1

theorem serve_staysTerminal_iff (json : WorkflowJson) (wf : Workflow)
    (call : Call) :
    StaysTerminal wf (wf.serve json call) ↔ KeepsTerminal json wf call := by
  cases call with
  | progress => exact progress_staysTerminal_iff wf
  | completeStep output model durationMs costUsd =>
      exact completeStep_staysTerminal_iff wf output model durationMs costUsd
  | failStep error =>
      exact iff_of_true (failStep_staysTerminal wf error) fun _ => trivial
  | checkpoint now => exact checkpoint_staysTerminal_iff json wf now
  | pause => exact staysTerminal_iff_of_reopened rfl
  | kill =>
      exact iff_of_true (.of_steps_eq rfl fun _ => rfl) fun _ => trivial
  | resume => exact staysTerminal_iff_of_reopened rfl
  | resumeFromCheckpoint now =>
      exact resumeFromCheckpoint_staysTerminal_iff json wf now

/-! ## Runs -/

/-- From each state of a run to each later one, a finished workflow stays
finished and completes no further step, exactly when every call leaves it
so. -/
theorem staysTerminal_onwards_iff (json : WorkflowJson) (wf : Workflow)
    (calls : List Call) :
    Onwards (serve json) StaysTerminal wf calls ↔
      EachCall (serve json) (KeepsTerminal json) wf calls := by
  rw [onwards_iff_eachCall .refl fun _ _ _ => .trans]
  simp only [serve_staysTerminal_iff]

/-- A completed workflow is paused. -/
theorem completed_workflow_paused :
    ¬ Onwards
      (serve { toStringPretty := fun _ => .error "", fromStr := fun _ => none })
      StaysTerminal
      ((Workflow.new "wf-000001" "goal" 0).addStep "Step" "Only step" .code)
      [.completeStep "done" "LocalPhi3" 1 0, .pause] := by
  intro onwards
  have stays := onwards [.completeStep "done" "LocalPhi3" 1 0] [.pause]
    (List.prefix_refl _)
  have paused := stays.status (by decide)
  revert paused
  decide

end Workflow

/-- `UghiComputer::resume` writes the same, whatever the status was. -/
theorem UghiComputer.get_resume {computer : UghiComputer} {wf : Workflow}
    {workflowId : String}
    (found : computer.workflows.get workflowId = some wf) :
    (computer.resume workflowId).1.workflows.get workflowId =
      some wf.resume := by
  have kept : ∀ stored : Workflow, stored.id = workflowId →
      stored.resume.id = workflowId := fun _ same => same
  have written :
      (computer.workflows.modify workflowId Workflow.resume).get workflowId =
        (computer.workflows.get workflowId).map Workflow.resume :=
    WorkflowEngine.get_modify kept
  rw [resume, writeWorkflow, found]
  rw [found] at written
  exact written

end Ughi.Computer
