import Ughi.Computer.Workflow
import Ughi.Lib.Run

/-!
# The record a workflow keeps

The steps of a workflow are finished ones, in order, followed by open ones, and
the index points to the first open one.  Every edit keeps it so: a step is
appended to the open ones, the first open one is rewritten, or it is completed
and becomes the last finished one.
-/

namespace Ughi.Computer

open Ughi.Lib
open Ughi.Lib.Binary64 (Double)

/-- A completed step says by which model, and with what. -/
structure WorkflowStep.Finished (step : WorkflowStep) : Prop where
  completed : step.status = .completed
  output : step.output.isSome = true
  modelUsed : step.modelUsed.isSome = true

structure WorkflowStep.Open (step : WorkflowStep) : Prop where
  notCompleted : step.status ≠ .completed
  durationMs : step.durationMs = 0

/-- The time steps took together. -/
def durationOf (steps : List WorkflowStep) : Nat :=
  (steps.map fun step => step.durationMs.toNat).sum

@[simp] theorem durationOf_append (first second : List WorkflowStep) :
    durationOf (first ++ second) = durationOf first + durationOf second := by
  simp [durationOf]

theorem durationOf_of_open {steps : List WorkflowStep}
    (areOpen : ∀ step ∈ steps, step.Open) : durationOf steps = 0 := by
  induction steps with
  | nil => rfl
  | cons step steps induction =>
      obtain ⟨isOpen, others⟩ := List.forall_mem_cons.mp areOpen
      have rest := induction others
      rw [durationOf] at rest ⊢
      rw [List.map_cons, List.sum_cons, isOpen.durationMs, rest]
      rfl

namespace Workflow

inductive Edit where
  | addStep (name desc : String) (phase : ProjectPhase)
  | progress
  | completeStep (output model : String) (durationMs : UInt64)
      (costUsd : Double)
  | failStep (error : String)
  | checkpoint (now : UInt64)
  | pause
  | kill

def edit (json : WorkflowJson) (wf : Workflow) : Edit → Workflow
  | .addStep name desc phase => wf.addStep name desc phase
  | .progress => wf.progress.1
  | .completeStep output model durationMs costUsd =>
      wf.completeStep output model durationMs costUsd
  | .failStep error => wf.failStep error
  | .checkpoint now => (wf.checkpoint json now).1
  | .pause => wf.pause
  | .kill => wf.kill

/-- The workflow some edits make of a new one. -/
def edited (json : WorkflowJson) (id goal : String) (created : UInt64)
    (edits : List Edit) : Workflow :=
  runCalls (edit json) (new id goal created) edits

/-- The steps of the workflow are so many finished ones and some open ones. -/
structure SplitsInto (wf : Workflow) (finished remaining : List WorkflowStep) :
    Prop where
  steps : wf.steps = finished ++ remaining
  current : wf.currentStep = finished.length
  areFinished : ∀ step ∈ finished, step.Finished
  areOpen : ∀ step ∈ remaining, step.Open
  duration : wf.totalDurationMs = UInt64.ofNat (durationOf finished)

structure Recorded (wf : Workflow) : Prop where
  splits : ∃ finished remaining, wf.SplitsInto finished remaining
  ids : wf.steps.map WorkflowStep.id =
    (List.range' 1 wf.steps.length).map UInt32.ofNat

theorem recorded_new (id goal : String) (now : UInt64) :
    (new id goal now).Recorded where
  splits := ⟨[], [],
    { steps := rfl
      current := rfl
      areFinished := by simp
      areOpen := by simp
      duration := rfl }⟩
  ids := rfl

theorem Recorded.of_same {wf later : Workflow} (recorded : wf.Recorded)
    (steps : later.steps = wf.steps)
    (current : later.currentStep = wf.currentStep)
    (duration : later.totalDurationMs = wf.totalDurationMs) :
    later.Recorded := by
  obtain ⟨⟨finished, remaining, splits⟩, ids⟩ := recorded
  constructor
  case splits =>
    exact ⟨finished, remaining,
      { steps := steps.trans splits.steps
        current := current.trans splits.current
        areFinished := splits.areFinished
        areOpen := splits.areOpen
        duration := duration.trans splits.duration }⟩
  case ids =>
    rw [steps]
    exact ids

theorem exists_addStep (wf : Workflow) (name desc : String)
    (phase : ProjectPhase) :
    ∃ step, (wf.addStep name desc phase).steps = wf.steps ++ [step] ∧
      step.Open ∧ step.id = UInt32.ofNat (wf.steps.length + 1) := by
  refine ⟨_, rfl, ⟨?_, rfl⟩, ?_⟩
  · intro same
    cases same
  · rw [UInt32.ofNat_add]
    rfl

theorem Recorded.addStep {wf : Workflow} (recorded : wf.Recorded)
    (name desc : String) (phase : ProjectPhase) :
    (wf.addStep name desc phase).Recorded := by
  obtain ⟨⟨finished, remaining, splits⟩, ids⟩ := recorded
  obtain ⟨added, steps, addedOpen, addedId⟩ :=
    exists_addStep wf name desc phase
  constructor
  case splits =>
    refine ⟨finished, remaining ++ [added], ?_⟩
    constructor
    case steps => rw [steps, splits.steps, List.append_assoc]
    case current => exact splits.current
    case areFinished => exact splits.areFinished
    case areOpen =>
      intro step member
      rcases List.mem_append.mp member with earlier | last
      · exact splits.areOpen step earlier
      · rw [List.mem_singleton.mp last]
        exact addedOpen
    case duration => exact splits.duration
  case ids =>
    rw [steps, List.map_append, ids, List.length_append,
      List.length_singleton, List.range'_1_concat, List.map_append,
      List.map_singleton, List.map_singleton, addedId, Nat.add_comm 1]

/-- Rewriting the first open step, where there is one, so that it stays open
and keeps its number. -/
theorem Recorded.rewrite {wf later : Workflow} (recorded : wf.Recorded)
    {change : WorkflowStep → WorkflowStep}
    (steps : later.steps = (wf.modifyCurrent change).steps)
    (current : later.currentStep = wf.currentStep)
    (duration : later.totalDurationMs = wf.totalDurationMs)
    (staysOpen : ∀ step, step.Open → (change step).Open)
    (sameId : ∀ step, (change step).id = step.id) :
    later.Recorded := by
  obtain ⟨⟨finished, remaining, splits⟩, ids⟩ := recorded
  constructor
  case splits =>
    refine ⟨finished, remaining.modifyHead change, ?_⟩
    constructor
    case steps =>
      rw [steps, modifyCurrent, splits.steps, splits.current,
        List.modify_eq_take_drop, List.take_left, List.drop_left]
    case current => exact current.trans splits.current
    case areFinished => exact splits.areFinished
    case areOpen =>
      cases remaining with
      | nil => exact splits.areOpen
      | cons first rest =>
          obtain ⟨firstOpen, restOpen⟩ :=
            List.forall_mem_cons.mp splits.areOpen
          rw [List.modifyHead_cons, List.forall_mem_cons]
          exact ⟨staysOpen first firstOpen, restOpen⟩
    case duration => exact duration.trans splits.duration
  case ids =>
    have sameLength : (wf.modifyCurrent change).steps.length =
        wf.steps.length := by
      simp [modifyCurrent]
    rw [steps, wf.map_modifyCurrent sameId, ids, sameLength]

theorem Recorded.advance {wf later : Workflow} (recorded : wf.Recorded)
    (inside : wf.currentStep < wf.steps.length)
    {change : WorkflowStep → WorkflowStep} {durationMs : UInt64}
    (steps : later.steps = (wf.modifyCurrent change).steps)
    (current : later.currentStep = wf.currentStep + 1)
    (duration : later.totalDurationMs = wf.totalDurationMs + durationMs)
    (finishes : ∀ step, (change step).Finished)
    (lasts : ∀ step, (change step).durationMs = durationMs)
    (sameId : ∀ step, (change step).id = step.id) :
    later.Recorded := by
  have sameLength : (wf.modifyCurrent change).steps.length =
      wf.steps.length := by
    simp [modifyCurrent]
  obtain ⟨⟨finished, remaining, splits⟩, ids⟩ := recorded
  cases remaining with
  | nil =>
      rw [splits.steps, splits.current, List.append_nil] at inside
      exact absurd inside (Nat.lt_irrefl _)
  | cons first rest =>
      constructor
      case splits =>
        refine ⟨finished ++ [change first], rest, ?_⟩
        constructor
        case steps =>
          rw [steps, modifyCurrent, splits.steps, splits.current,
            List.modify_eq_take_drop, List.take_left, List.drop_left,
            List.modifyHead_cons, List.append_assoc]
          rfl
        case current =>
          rw [current, List.length_append, List.length_singleton,
            ← splits.current]
        case areFinished =>
          intro step member
          rcases List.mem_append.mp member with earlier | last
          · exact splits.areFinished step earlier
          · rw [List.mem_singleton.mp last]
            exact finishes first
        case areOpen =>
          intro step member
          exact splits.areOpen step (List.mem_cons_of_mem first member)
        case duration =>
          rw [duration, splits.duration, durationOf_append, UInt64.ofNat_add]
          congr 1
          simp [durationOf, lasts first]
      case ids =>
        rw [steps, wf.map_modifyCurrent sameId, ids, sameLength]

theorem Recorded.completeStep {wf : Workflow} (recorded : wf.Recorded)
    (output model : String) (durationMs : UInt64) (costUsd : Double) :
    (wf.completeStep output model durationMs costUsd).Recorded := by
  rw [Workflow.completeStep]
  by_cases inside : wf.currentStep < wf.steps.length
  · rw [if_pos inside]
    dsimp only
    split
    · exact recorded.advance inside rfl rfl rfl (fun _ => ⟨rfl, rfl, rfl⟩)
        (fun _ => rfl) fun _ => rfl
    · exact recorded.advance inside rfl rfl rfl (fun _ => ⟨rfl, rfl, rfl⟩)
        (fun _ => rfl) fun _ => rfl
  · rw [if_neg inside]
    exact recorded

theorem Recorded.failStep {wf : Workflow} (recorded : wf.Recorded)
    (error : String) : (wf.failStep error).Recorded := by
  rw [Workflow.failStep]
  split
  next => exact recorded
  next failing _ =>
    dsimp only
    split
    · refine recorded.rewrite rfl rfl rfl ?_ fun _ => rfl
      intro step isOpen
      refine ⟨?_, isOpen.durationMs⟩
      intro same
      cases same
    · refine recorded.rewrite rfl rfl rfl ?_ fun _ => rfl
      intro step isOpen
      refine ⟨?_, isOpen.durationMs⟩
      intro same
      cases same

theorem Recorded.progress {wf : Workflow} (recorded : wf.Recorded) :
    wf.progress.1.Recorded := by
  rw [Workflow.progress]
  split
  · refine recorded.rewrite rfl rfl rfl ?_ fun _ => rfl
    intro step isOpen
    refine ⟨?_, isOpen.durationMs⟩
    intro same
    cases same
  · exact recorded

theorem Recorded.edit {json : WorkflowJson} {wf : Workflow}
    (recorded : wf.Recorded) (change : Edit) :
    (wf.edit json change).Recorded := by
  cases change with
  | addStep name desc phase => exact recorded.addStep name desc phase
  | progress => exact recorded.progress
  | completeStep output model durationMs costUsd =>
      exact recorded.completeStep output model durationMs costUsd
  | failStep error => exact recorded.failStep error
  | checkpoint now => exact recorded.of_same rfl rfl rfl
  | pause => exact recorded.of_same rfl rfl rfl
  | kill => exact recorded.of_same rfl rfl rfl

theorem recorded_edited (json : WorkflowJson) (id goal : String)
    (created : UInt64) (edits : List Edit) :
    (edited json id goal created edits).Recorded := by
  apply invariant_of_calls
  · intro wf change recorded
    exact recorded.edit change
  · exact recorded_new id goal created

namespace SplitsInto

variable {wf : Workflow} {finished remaining : List WorkflowStep}

theorem currentStep_le (splits : wf.SplitsInto finished remaining) :
    wf.currentStep ≤ wf.steps.length := by
  rw [splits.steps, splits.current, List.length_append]
  exact Nat.le_add_right _ _

theorem completed_iff (splits : wf.SplitsInto finished remaining)
    {index : Nat} {step : WorkflowStep}
    (found : wf.steps[index]? = some step) :
    step.status = .completed ↔ index < wf.currentStep := by
  rw [splits.steps] at found
  rw [splits.current]
  by_cases passed : index < finished.length
  · rw [List.getElem?_append_left passed] at found
    have isFinished :=
      splits.areFinished step (List.mem_of_getElem? found)
    exact iff_of_true isFinished.completed passed
  · rw [List.getElem?_append_right (Nat.le_of_not_lt passed)] at found
    have isOpen := splits.areOpen step (List.mem_of_getElem? found)
    exact iff_of_false isOpen.notCompleted passed

theorem finished_of_completed (splits : wf.SplitsInto finished remaining)
    {step : WorkflowStep} (member : step ∈ wf.steps)
    (completed : step.status = .completed) : step.Finished := by
  rw [splits.steps] at member
  rcases List.mem_append.mp member with done | undone
  · exact splits.areFinished step done
  · exact absurd completed (splits.areOpen step undone).notCompleted

theorem completedSteps (splits : wf.SplitsInto finished remaining) :
    wf.completedSteps = wf.currentStep := by
  have all : finished.filter (fun step =>
      decide (step.status = .completed)) = finished := by
    apply List.filter_eq_self.mpr
    intro step member
    exact decide_eq_true (splits.areFinished step member).completed
  have none : remaining.filter (fun step =>
      decide (step.status = .completed)) = [] := by
    apply List.filter_eq_nil_iff.mpr
    intro step member
    have notCompleted := (splits.areOpen step member).notCompleted
    simpa using notCompleted
  rw [Workflow.completedSteps, splits.steps, List.filter_append, all, none,
    List.append_nil, splits.current]

theorem totalDurationMs (splits : wf.SplitsInto finished remaining) :
    wf.totalDurationMs = UInt64.ofNat (durationOf wf.steps) := by
  rw [splits.duration, splits.steps, durationOf_append,
    durationOf_of_open splits.areOpen, Nat.add_zero]

end SplitsInto

/-- After any edits of a new workflow the completed steps are those the index
has passed, each with an output and a model, the steps are numbered in order,
and the time recorded is that of the steps while it fits into 64 bits. -/
theorem record_of_edits (json : WorkflowJson) (id goal : String)
    (created : UInt64) (edits : List Edit) :
    let wf := edited json id goal created edits
    wf.currentStep ≤ wf.steps.length ∧
      (∀ (index : Nat) step, wf.steps[index]? = some step →
        (step.status = .completed ↔ index < wf.currentStep)) ∧
      (∀ step ∈ wf.steps, step.status = .completed →
        step.output.isSome = true ∧ step.modelUsed.isSome = true) ∧
      wf.completedSteps = wf.currentStep ∧
      wf.steps.map WorkflowStep.id =
        (List.range' 1 wf.steps.length).map UInt32.ofNat ∧
      (durationOf wf.steps < 2 ^ 64 →
        wf.totalDurationMs.toNat = durationOf wf.steps) := by
  obtain ⟨⟨finished, remaining, splits⟩, ids⟩ :=
    recorded_edited json id goal created edits
  refine ⟨splits.currentStep_le, ?_, ?_, splits.completedSteps, ids, ?_⟩
  · intro index step found
    exact splits.completed_iff found
  · intro step member completed
    have isFinished := splits.finished_of_completed member completed
    exact ⟨isFinished.output, isFinished.modelUsed⟩
  · intro fits
    rw [splits.totalDurationMs]
    exact UInt64.toNat_ofNat_of_lt' fits

end Workflow

end Ughi.Computer
