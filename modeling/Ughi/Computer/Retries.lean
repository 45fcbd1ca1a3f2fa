import Ughi.Computer.Workflow
import Ughi.Lib.Run

/-!
# Failures in a row

The current step counts its failures in one byte, and fails from the third on.
The byte wraps: the step is pending again after 256 failures and after the two
that follow, and the addition overflows.  Up to 255 failures a failed step
stays failed.
-/

namespace Ughi.Computer

open Ughi.Lib

namespace Workflow

/-- A later workflow with the same steps outside the current one. -/
structure SameElsewhere (wf later : Workflow) : Prop where
  currentStep : later.currentStep = wf.currentStep
  length : later.steps.length = wf.steps.length
  others : ∀ index, index ≠ wf.currentStep →
    later.steps[index]? = wf.steps[index]?

/-- The count of the current step has room for one more failure. -/
def RetryFits (wf : Workflow) : Prop :=
  ∀ step, wf.steps[wf.currentStep]? = some step →
    step.retryCount.toNat + 1 < 2 ^ 8

/-- After the failures the current step and the workflow have failed, no count
overflowed, and nothing else changed. -/
structure FailsForGood (wf : Workflow) (errors : List String) : Prop where
  step : (runCalls failStep wf errors).steps[wf.currentStep]?.map
    WorkflowStep.status = some .failed
  workflow : (runCalls failStep wf errors).status = .failed
  fits : EachCall failStep (fun wf _ => wf.RetryFits) wf errors
  elsewhere : wf.SameElsewhere (runCalls failStep wf errors)

theorem sameElsewhere_modifyCurrent (wf : Workflow)
    (change : WorkflowStep → WorkflowStep) :
    wf.SameElsewhere (wf.modifyCurrent change) where
  currentStep := rfl
  length := List.length_modify change _ _
  others := by
    intro index different
    exact List.getElem?_modify_ne change wf.steps (Ne.symm different)

theorem SameElsewhere.trans {first second third : Workflow}
    (before : first.SameElsewhere second)
    (after : second.SameElsewhere third) : first.SameElsewhere third where
  currentStep := after.currentStep.trans before.currentStep
  length := after.length.trans before.length
  others := by
    intro index different
    have still : index ≠ second.currentStep := by
      rw [before.currentStep]
      exact different
    rw [after.others index still, before.others index different]

/-- What a failure does to the current step and to the workflow. -/
structure Failed (wf : Workflow) (step : WorkflowStep) (later : Workflow) :
    Prop where
  elsewhere : wf.SameElsewhere later
  current : ∃ next, later.steps[wf.currentStep]? = some next ∧
    next.retryCount = step.retryCount + 1 ∧
    next.status = if 3 ≤ next.retryCount then .failed else .pending
  status : later.status =
    if 3 ≤ step.retryCount + 1 then .failed else wf.status

theorem getElem?_modifyCurrent {wf : Workflow} {step : WorkflowStep}
    (found : wf.steps[wf.currentStep]? = some step)
    (change : WorkflowStep → WorkflowStep) :
    (wf.modifyCurrent change).steps[wf.currentStep]? =
      some (change step) := by
  rw [modifyCurrent, List.getElem?_modify_eq, found, Option.map_eq_map,
    Option.map_some]

theorem failed_failStep {wf : Workflow} {step : WorkflowStep}
    (found : wf.steps[wf.currentStep]? = some step) (error : String) :
    wf.Failed step (wf.failStep error) := by
  rw [failStep, found]
  by_cases exhausted : 3 ≤ step.retryCount + 1
  · simp only [if_pos exhausted]
    have elsewhere := wf.sameElsewhere_modifyCurrent fun step' =>
      { step' with
        retryCount := step.retryCount + 1
        status := .failed
        output := some ("FAILED after 3 retries: " ++ error) }
    constructor
    case elsewhere =>
      exact
        { currentStep := elsewhere.currentStep
          length := elsewhere.length
          others := elsewhere.others }
    case current =>
      exact ⟨_, getElem?_modifyCurrent found _, rfl, (if_pos exhausted).symm⟩
    case status => exact (if_pos exhausted).symm
  · simp only [if_neg exhausted]
    constructor
    case elsewhere => exact wf.sameElsewhere_modifyCurrent _
    case current =>
      exact ⟨_, getElem?_modifyCurrent found _, rfl, (if_neg exhausted).symm⟩
    case status => exact (if_neg exhausted).symm

/-- The current step after so many failures of a fresh one. -/
structure FailedTimes (wf : Workflow) (count : Nat) (later : Workflow) :
    Prop where
  elsewhere : wf.SameElsewhere later
  current : ∃ step, later.steps[wf.currentStep]? = some step ∧
    step.retryCount.toNat = count % 2 ^ 8 ∧
    (0 < count →
      step.status = if 3 ≤ count % 2 ^ 8 then .failed else .pending)
  status : 3 ≤ count → later.status = .failed

theorem toNat_add_one (retryCount : UInt8) :
    (retryCount + 1).toNat = (retryCount.toNat + 1) % 2 ^ 8 :=
  UInt8.toNat_add retryCount 1

theorem three_le_iff (retryCount : UInt8) :
    3 ≤ retryCount ↔ 3 ≤ retryCount.toNat :=
  UInt8.le_iff_toNat_le

theorem FailedTimes.failStep {wf later : Workflow} {count : Nat}
    (failed : wf.FailedTimes count later) (error : String) :
    wf.FailedTimes (count + 1) (later.failStep error) := by
  obtain ⟨step, found, counted, _⟩ := failed.current
  rw [← failed.elsewhere.currentStep] at found
  have next := failed_failStep found error
  have wrapped : (step.retryCount + 1).toNat = (count + 1) % 2 ^ 8 := by
    rw [toNat_add_one, counted]
    omega
  constructor
  case elsewhere => exact failed.elsewhere.trans next.elsewhere
  case current =>
    obtain ⟨changed, changedFound, oneMore, status⟩ := next.current
    rw [failed.elsewhere.currentStep] at changedFound
    refine ⟨changed, changedFound, ?_, ?_⟩
    · rw [oneMore, wrapped]
    · intro _
      rw [status, oneMore]
      simp only [three_le_iff, wrapped]
  case status =>
    intro many
    rw [next.status]
    split
    next exhausted => rfl
    next retrying =>
      -- The count wrapped, and the workflow failed before.
      apply failed.status
      rw [three_le_iff, wrapped] at retrying
      omega

theorem failedTimes_run {wf : Workflow} {step : WorkflowStep}
    (found : wf.steps[wf.currentStep]? = some step)
    (fresh : step.retryCount = 0) (errors : List String) :
    wf.FailedTimes errors.length (runCalls failStep wf errors) := by
  refine @invariant_of_history _ _ failStep
    (fun errors later => wf.FailedTimes errors.length later) wf ?_ ?_ errors
  · constructor
    case elsewhere =>
      exact
        { currentStep := rfl
          length := rfl
          others := fun _ _ => rfl }
    case current =>
      refine ⟨step, found, ?_, ?_⟩
      · rw [fresh]
        rfl
      · intro positive
        cases positive
    case status =>
      intro many
      cases many
  · intro errors later error failed
    rw [List.length_append, List.length_singleton]
    exact failed.failStep error

theorem FailedTimes.retryFits_iff {wf later : Workflow} {count : Nat}
    (failed : wf.FailedTimes count later) :
    later.RetryFits ↔ count % 2 ^ 8 + 1 < 2 ^ 8 := by
  obtain ⟨step, found, counted, _⟩ := failed.current
  rw [← failed.elsewhere.currentStep] at found
  rw [← counted]
  constructor
  · intro fits
    exact fits step found
  · intro room other otherFound
    cases found.symm.trans otherFound
    exact room

/-- No failure overflows exactly when there are no more than 255. -/
theorem eachCall_retryFits_iff {wf : Workflow} {step : WorkflowStep}
    (found : wf.steps[wf.currentStep]? = some step)
    (fresh : step.retryCount = 0) (errors : List String) :
    EachCall failStep (fun wf _ => wf.RetryFits) wf errors ↔
      errors.length ≤ 255 := by
  induction errors using List.reverseRecOn with
  | nil => simp
  | append_singleton errors error induction =>
      have failed := failedTimes_run found fresh errors
      rw [eachCall_append, induction, eachCall_cons, failed.retryFits_iff,
        List.length_append, List.length_singleton]
      simp only [eachCall_nil, and_true]
      omega

/-- A step without failures has failed for good after three or more exactly
when there are no more than 255. -/
theorem failsForGood_iff {wf : Workflow} {step : WorkflowStep}
    (found : wf.steps[wf.currentStep]? = some step)
    (fresh : step.retryCount = 0) {errors : List String}
    (enough : 3 ≤ errors.length) :
    wf.FailsForGood errors ↔ errors.length ≤ 255 := by
  constructor
  · intro fails
    exact (eachCall_retryFits_iff found fresh errors).mp fails.fits
  · intro few
    have failed := failedTimes_run found fresh errors
    obtain ⟨current, currentFound, _, status⟩ := failed.current
    constructor
    case step =>
      have small : errors.length % 2 ^ 8 = errors.length :=
        Nat.mod_eq_of_lt (by omega)
      rw [currentFound, Option.map_some, status (by omega), small,
        if_pos enough]
    case workflow => exact failed.status enough
    case fits => exact (eachCall_retryFits_iff found fresh errors).mpr few
    case elsewhere => exact failed.elsewhere

theorem failsForGood_of_three :
    ((new "wf" "goal" 0).addStep "build" "" .code).FailsForGood
      ["timeout", "timeout", "timeout"] :=
  (failsForGood_iff rfl rfl (by decide)).mpr (by decide)

/-- After 256 failures the step will be tried again. -/
theorem not_failsForGood_of_full_count :
    ¬ ((new "wf" "goal" 0).addStep "build" "" .code).FailsForGood
      (List.replicate 256 "timeout") := by
  intro fails
  have failed := @failedTimes_run
    ((new "wf" "goal" 0).addStep "build" "" .code) _ rfl rfl
    (List.replicate 256 "timeout")
  obtain ⟨current, found, _, status⟩ := failed.current
  have stillFailed := fails.step
  rw [List.length_replicate] at status
  rw [found, Option.map_some, status (by decide)] at stillFailed
  revert stillFailed
  decide

end Workflow

end Ughi.Computer
