import Ughi.Computer.Loop

/-!
# Private goals stay on the device

A goal that is detected as private is routed to a local model free of charge,
and so is the prompt of each of its steps, because the goal is part of it.
-/

namespace Ughi.Computer

open Ughi.Lib

namespace UghiComputer

variable {toLowercase : String → String} {goal : String}

/-- Whatever state the router is in, a prompt is routed to a local model with
a local fallback, free of charge. -/
def RoutedLocally (toLowercase : String → String) (prompt : String) : Prop :=
  ∀ router : ModelRouter, ∃ next decision,
    router.route toLowercase prompt = some (next, decision) ∧
      decision.primary.isLocal = true ∧ decision.fallback.isLocal = true ∧
      decision.estimatedCostUsd = 0

def AnsweredLocally (step : WorkflowStep) : Prop :=
  ∃ provider : ModelProvider, provider.isLocal = true ∧
    step.modelUsed = some provider.display

/-- Routing a private goal, decomposing it and routing its steps involves local
models only and costs nothing. -/
structure StaysLocal (toLowercase : String → String)
    (computer : UghiComputer) (goal : String) (now elapsed : UInt64) :
    Prop where
  goalLocal : RoutedLocally toLowercase goal
  executedLocally : ∃ after result wf,
    execute toLowercase goal computer now elapsed =
        some (after, .ok result) ∧
      after.workflows.get result.workflowId = some wf ∧
      wf.steps.map WorkflowStep.name =
        (plannedSteps .privateData).map Prod.fst ∧
      (∀ step ∈ wf.steps, AnsweredLocally step ∧
        RoutedLocally toLowercase (stepPrompt goal step.name)) ∧
      wf.totalCostUsd = 0 ∧ result.totalCostUsd = 0

theorem routedLocally_of_privateData {prompt : String}
    (detected : TaskCategory.detect toLowercase prompt = .privateData) :
    RoutedLocally toLowercase prompt := by
  intro router
  exact ⟨_, _, ModelRouter.route_of_privateData router detected, rfl, rfl,
    rfl⟩

theorem stepPrompt_privateData (keeps : KeepsAsciiKeywords toLowercase)
    (detected : TaskCategory.detect toLowercase goal = .privateData)
    (stepName : String) :
    TaskCategory.detect toLowercase (stepPrompt goal stepName) =
      .privateData := by
  rw [stepPrompt, String.append_assoc]
  exact TaskCategory.detect_append_of_privateData keeps detected _

/-- What the loop keeps for a private goal: the steps behind the index were
answered locally, and nothing was charged. -/
structure LocalSoFar (wfId : String) (names : List String) (wf : Workflow) :
    Prop where
  id : wf.id = wfId
  names : wf.steps.map WorkflowStep.name = names
  cost : wf.totalCostUsd = 0
  answered : ∀ index < wf.currentStep, ∀ step,
    wf.steps[index]? = some step → AnsweredLocally step

theorem localSoFar_of_turn {wfId : String} {names : List String}
    {wf next : Workflow} (before : LocalSoFar wfId names wf)
    (turn : Turn (ModelRouter.privateDecision .privateData) wf next) :
    LocalSoFar wfId names next := by
  constructor
  case id => exact turn.id.trans before.id
  case names => exact (turn.map_steps fun _ => rfl).trans before.names
  case cost =>
    rw [turn.cost, before.cost]
    exact Binary64.Double.zero_add_zero
  case answered =>
    intro index below step found
    rw [turn.current] at below
    obtain ⟨old, oldFound, ⟨_, rfl⟩ | ⟨other, rfl⟩⟩ :=
      turn.exists_of_getElem? found
    · exact ⟨.localPhi3, rfl, rfl⟩
    · have behind : index < wf.currentStep := by omega
      exact before.answered index behind step oldFound

theorem staysLocal_of_privateData (keeps : KeepsAsciiKeywords toLowercase)
    {computer : UghiComputer} (numbered : computer.workflows.Numbered)
    (detected : TaskCategory.detect toLowercase goal = .privateData)
    (now elapsed : UInt64) :
    StaysLocal toLowercase computer goal now elapsed := by
  refine ⟨routedLocally_of_privateData detected, ?_⟩
  have routed := ModelRouter.route_of_privateData computer.router detected
  let wfId := (computer.workflows.create goal now).2
  let wf := decomposeGoal (.new wfId goal now) .privateData
  let planned := (plannedSteps .privateData).map Prod.fst
  obtain ⟨_, sameId, start, free, outlined⟩ :=
    @decomposeGoal_new goal wfId now .privateData
  have names : wf.steps.map WorkflowStep.name = planned := by
    have named := congrArg (List.map Prod.fst) outlined
    rwa [List.map_map] at named
  have initial : LocalSoFar wfId planned wf := by
    refine ⟨sameId, names, free, ?_⟩
    intro index below
    rw [start] at below
    exact absurd below (Nat.not_lt_zero index)
  have preserved : ∀ (router : ModelRouter) (wf : Workflow) step,
      LocalSoFar wfId planned wf →
        wf.steps[wf.currentStep]? = some step →
          ∃ next turned,
            executeStep toLowercase goal router wf = some (next, turned) ∧
              turned.currentStep = wf.currentStep + 1 ∧
              turned.steps.length = wf.steps.length ∧
              LocalSoFar wfId planned turned := by
    intro router wf step before current
    have stepDetected := stepPrompt_privateData keeps detected step.name
    have stepRouted :=
      ModelRouter.route_of_privateData router stepDetected
    obtain ⟨turned, taken, turn⟩ := exists_executeStep current stepRouted
    exact ⟨_, turned, taken, turn.current, turn.length,
      localSoFar_of_turn before turn⟩
  have enough : wf.currentStep + (wf.steps.length - wf.currentStep) ≤
      wf.steps.length := by
    rw [start, Nat.zero_add, Nat.sub_zero]
  obtain ⟨next, executed, looped, ended, current, sameLength⟩ :=
    executeSteps_of_invariant preserved initial enough
  rw [start, Nat.zero_add, Nat.sub_zero] at current
  obtain ⟨_, _, found, done⟩ :=
    @execute_of_loop _ _ _ _ _ _ _ now elapsed numbered routed looped
      ended.id
  refine ⟨_, _, executed, done, found, ended.names, ?_, ended.cost,
    ended.cost⟩
  intro step member
  obtain ⟨index, inside, same⟩ := List.getElem_of_mem member
  have stepFound : executed.steps[index]? = some step := by
    rw [List.getElem?_eq_getElem inside, same]
  exact ⟨ended.answered index (by omega) step stepFound,
    routedLocally_of_privateData
      (stepPrompt_privateData keeps detected step.name)⟩

/-- After every run the counters agree, and a private goal stays local, also
once the router is replaced by any other. -/
theorem private_goals_stay_local (keeps : KeepsAsciiKeywords toLowercase)
    (calls : List Call) :
    ∃ computer, after toLowercase calls = some computer ∧
      computer.router.CountsAgree ∧
      ∀ (router : ModelRouter) (goal : String) (now elapsed : UInt64),
        TaskCategory.detect toLowercase goal = .privateData →
          StaysLocal toLowercase { computer with router } goal now
            elapsed := by
  obtain ⟨computer, reached, sound⟩ := exists_after_sound toLowercase calls
  refine ⟨computer, reached, sound.counts, ?_⟩
  intro router goal now elapsed detected
  let swapped : UghiComputer := { computer with router }
  have numbered : swapped.workflows.Numbered := sound.numbered
  exact staysLocal_of_privateData keeps numbered detected now elapsed

/-- Lower-casing of the ASCII letters only. -/
def asciiLowercase (text : String) : String :=
  String.ofList (text.toList.map Char.toLower)

theorem asciiLowercase_keepsAsciiKeywords :
    KeepsAsciiKeywords asciiLowercase := by
  intro keyword text appended _ occurs
  have split : asciiLowercase (text ++ appended) =
      asciiLowercase text ++ asciiLowercase appended := by
    simp [asciiLowercase]
  rw [split]
  exact contains_append occurs _

/-- With a key for a cloud model and an earlier goal in the workflows. -/
theorem private_goal_stays_local_keyed :
    ∃ computer, after asciiLowercase
        [.setApiKey .anthropic "key", .execute "Build an app" 0 0] =
          some computer ∧
      computer.router.hasKey .anthropic = true ∧
      computer.router.CountsAgree ∧
      StaysLocal asciiLowercase computer "Summarise my PRIVATE notes" 0
        0 := by
  obtain ⟨computer, reached, counts, stays⟩ :=
    private_goals_stay_local asciiLowercase_keepsAsciiKeywords
      [.setApiKey .anthropic "key", .execute "Build an app" 0 0]
  have keyed : (after asciiLowercase
      [.setApiKey .anthropic "key", .execute "Build an app" 0 0]).map
        (fun computer => computer.router.hasKey .anthropic) =
          some true := by
    decide +kernel
  rw [reached] at keyed
  refine ⟨computer, reached, Option.some.inj keyed, counts, ?_⟩
  exact stays computer.router "Summarise my PRIVATE notes" 0 0
    (by decide +kernel)

end UghiComputer

end Ughi.Computer
