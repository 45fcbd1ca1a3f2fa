import Ughi.Computer.Loop

/-!
# A goal runs to its end

One turn of the loop completes the first open step with the decision for its
prompt, and the decisions depend on the configured keys only.  So after so many
turns so many steps are completed, and the loop ends when all are.
-/

namespace Ughi.Computer

open Ughi.Lib

namespace ModelRouter

variable {toLowercase : String → String}

theorem choose_congr {router other : ModelRouter}
    (sameKeys : other.apiKeys = router.apiKeys) (category : TaskCategory) :
    other.choose category = router.choose category := by
  have sameTest : other.hasKey = router.hasKey := by
    funext provider
    rw [hasKey, hasKey]
    congr 1
    rw [sameKeys]
  cases category with
  | privateData => rfl
  | _ => simp only [choose, sameTest]

/-- Routing never panics, keeps the keys, and decides by them alone. -/
theorem exists_route (router : ModelRouter) (prompt : String) :
    ∃ next decision, router.route toLowercase prompt = some (next, decision) ∧
      next.apiKeys = router.apiKeys ∧
      ∀ other : ModelRouter, other.apiKeys = router.apiKeys →
        ∃ after, other.route toLowercase prompt = some (after, decision) := by
  by_cases detected :
      TaskCategory.detect toLowercase prompt = .privateData
  · refine ⟨_, _, route_of_privateData router detected, rfl, ?_⟩
    intro other _
    exact ⟨_, route_of_privateData other detected⟩
  · obtain ⟨⟨primary, fallback, reason, cost, latency⟩, chosen⟩ :=
      router.exists_choose detected
    have routed : ∀ other : ModelRouter, other.apiKeys = router.apiKeys →
        ∃ after, after.apiKeys = router.apiKeys ∧
          other.route toLowercase prompt = some (after,
            { primary
              fallback
              category := TaskCategory.detect toLowercase prompt
              reason
              estimatedCostUsd := cost
              estimatedLatencyMs := latency }) := by
      intro other sameKeys
      have chosenToo : ({ other with
            routesDecided := other.routesDecided + 1 } :
          ModelRouter).choose (TaskCategory.detect toLowercase prompt) =
            some (primary, fallback, reason, cost, latency) := by
        rw [← chosen]
        exact choose_congr sameKeys _
      simp only [route, if_neg detected, chosenToo]
      refine ⟨_, ?_, rfl⟩
      split
      · exact sameKeys
      · exact sameKeys
    obtain ⟨next, nextKeys, nextRouted⟩ := routed router rfl
    refine ⟨next, _, nextRouted, nextKeys, ?_⟩
    intro other sameKeys
    obtain ⟨after, _, otherRouted⟩ := routed other sameKeys
    exact ⟨after, otherRouted⟩

theorem latency_le_of_choose {router : ModelRouter}
    {category : TaskCategory} {choice : Choice}
    (chosen : router.choose category = some choice) :
    choice.2.2.2.2.toNat ≤ 5000 := by
  cases category with
  | privateData => simp [choose] at chosen
  | _ =>
      simp only [choose] at chosen
      repeat' split at chosen
      all_goals
        obtain rfl := Option.some.inj chosen
        decide

theorem latency_le {router next : ModelRouter} {prompt : String}
    {decision : RoutingDecision}
    (routed : router.route toLowercase prompt = some (next, decision)) :
    decision.estimatedLatencyMs.toNat ≤ 5000 := by
  by_cases detected :
      TaskCategory.detect toLowercase prompt = .privateData
  · rw [route_of_privateData router detected] at routed
    cases routed
    decide
  · simp only [route, if_neg detected] at routed
    split at routed
    next => cases routed
    next chosen =>
      cases routed
      exact latency_le_of_choose chosen

theorem category_of_route {router next : ModelRouter} {prompt : String}
    {decision : RoutingDecision}
    (routed : router.route toLowercase prompt = some (next, decision)) :
    decision.category = TaskCategory.detect toLowercase prompt := by
  by_cases detected :
      TaskCategory.detect toLowercase prompt = .privateData
  · rw [route_of_privateData router detected] at routed
    cases routed
    exact detected.symm
  · simp only [route, if_neg detected] at routed
    split at routed
    next => cases routed
    next =>
      cases routed
      rfl

end ModelRouter

namespace UghiComputer

variable {toLowercase : String → String} {goal : String}

/-- The step was answered as its prompt is routed under these keys. -/
def AnsweredAsRouted (toLowercase : String → String) (goal : String)
    (router : ModelRouter) (step : WorkflowStep) : Prop :=
  ∃ after decision,
    router.route toLowercase (stepPrompt goal step.name) =
        some (after, decision) ∧
      step.output = some (stepOutput step.phase step.name decision) ∧
      step.modelUsed = some decision.primary.display ∧
      step.durationMs = decision.estimatedLatencyMs

/-- What holds between the turns of the loop. -/
structure Underway (toLowercase : String → String) (goal : String)
    (keys : ModelRouter) (wfId : String)
    (plan : List (String × String × ProjectPhase)) (router : ModelRouter)
    (wf : Workflow) : Prop where
  id : wf.id = wfId
  sameKeys : router.apiKeys = keys.apiKeys
  recorded : wf.Recorded
  planned : wf.steps.map outline = plan
  answered : ∀ step ∈ wf.steps, step.status = .completed →
    AnsweredAsRouted toLowercase goal keys step
  status : wf.currentStep = wf.steps.length → 0 < wf.currentStep →
    wf.status = .completed

theorem Underway.turn {keys : ModelRouter} {wfId : String}
    {plan : List (String × String × ProjectPhase)} {router : ModelRouter}
    {wf : Workflow} {step : WorkflowStep}
    (underway : Underway toLowercase goal keys wfId plan router wf)
    (found : wf.steps[wf.currentStep]? = some step) :
    ∃ next turned,
      executeStep toLowercase goal router wf = some (next, turned) ∧
        turned.currentStep = wf.currentStep + 1 ∧
        turned.steps.length = wf.steps.length ∧
        Underway toLowercase goal keys wfId plan next turned := by
  obtain ⟨next, decision, routed, nextKeys, agree⟩ :=
    @ModelRouter.exists_route toLowercase router (stepPrompt goal step.name)
  obtain ⟨after, decided⟩ := agree keys underway.sameKeys.symm
  obtain ⟨turned, taken, turn⟩ := exists_executeStep found routed
  refine ⟨next, turned, taken, turn.current, turn.length, ?_⟩
  constructor
  case id => exact turn.id.trans underway.id
  case sameKeys => exact nextKeys.trans underway.sameKeys
  case recorded => exact turn.recorded underway.recorded
  case planned => exact (turn.map_steps fun _ => rfl).trans underway.planned
  case answered =>
    intro answered member completed
    obtain ⟨index, at_index⟩ := List.mem_iff_getElem?.mp member
    obtain ⟨old, oldFound, ⟨rfl, rfl⟩ | ⟨_, rfl⟩⟩ :=
      turn.exists_of_getElem? at_index
    · rw [found] at oldFound
      cases oldFound
      exact ⟨after, decision, decided, rfl, rfl, rfl⟩
    · exact underway.answered answered (List.mem_of_getElem? oldFound)
        completed
  case status =>
    intro last _
    exact turn.status last.ge

theorem Underway.turns {keys : ModelRouter} {wfId : String}
    {plan : List (String × String × ProjectPhase)} {turns : Nat}
    {router : ModelRouter} {wf : Workflow}
    (underway : Underway toLowercase goal keys wfId plan router wf)
    (enough : wf.currentStep + turns ≤ wf.steps.length) :
    ∃ next executed,
      executeSteps toLowercase goal turns router wf = some (next, executed) ∧
        Underway toLowercase goal keys wfId plan next executed ∧
        executed.currentStep = wf.currentStep + turns ∧
        executed.steps.length = wf.steps.length :=
  executeSteps_of_invariant
    (fun _ _ _ underway found => underway.turn found) underway enough

theorem executeSteps_ended {turns more : Nat} {router next : ModelRouter}
    {wf executed : Workflow}
    (looped : executeSteps toLowercase goal turns router wf =
      some (next, executed))
    (ended : executed.steps.length ≤ executed.currentStep) :
    executeSteps toLowercase goal (turns + more) router wf =
      some (next, executed) := by
  induction turns generalizing router wf with
  | zero =>
      cases looped
      cases more with
      | zero => rfl
      | succ more =>
          rw [Nat.zero_add, executeSteps, if_neg (Nat.not_lt.mpr ended)]
  | succ turns induction =>
      rw [executeSteps] at looped
      rw [Nat.succ_add, executeSteps]
      by_cases inside : wf.currentStep < wf.steps.length
      · rw [if_pos inside] at looped ⊢
        obtain ⟨middle, taken, rest⟩ := Option.bind_eq_some_iff.mp looped
        rw [taken, Option.bind_some]
        exact induction rest
      · rw [if_neg inside] at looped ⊢
        exact looped

/-! ## Commands -/

theorem decomposeGoal_underway (keys : ModelRouter) {router : ModelRouter}
    (sameKeys : router.apiKeys = keys.apiKeys) (wfId : String)
    (now : UInt64) (category : TaskCategory) :
    let wf := decomposeGoal (Workflow.new wfId goal now) category
    wf.currentStep = 0 ∧
      Underway toLowercase goal keys wfId (plannedSteps category) router
        wf := by
  intro wf
  obtain ⟨recorded, id, current, _, outlined⟩ :=
    @decomposeGoal_new goal wfId now category
  obtain ⟨finished, remaining, splits⟩ := recorded.splits
  refine ⟨current, ?_⟩
  constructor
  case id => exact id
  case sameKeys => exact sameKeys
  case recorded => exact recorded
  case planned => exact outlined
  case answered =>
    intro step member completed
    obtain ⟨index, found⟩ := List.mem_iff_getElem?.mp member
    have passed := (splits.completed_iff found).mp completed
    rw [current] at passed
    exact absurd passed (Nat.not_lt_zero index)
  case status =>
    intro _ some
    rw [current] at some
    exact absurd some (Nat.lt_irrefl 0)

theorem plannedSteps_length (category : TaskCategory) :
    0 < (plannedSteps category).length ∧
      (plannedSteps category).length ≤ 7 := by
  cases category with
  | _ => decide

theorem durationOf_le {steps : List WorkflowStep} {bound : Nat}
    (short : ∀ step ∈ steps, step.durationMs.toNat ≤ bound) :
    durationOf steps ≤ steps.length * bound := by
  induction steps with
  | nil => exact Nat.zero_le _
  | cons step steps induction =>
      obtain ⟨first, others⟩ := List.forall_mem_cons.mp short
      have rest := induction others
      rw [durationOf] at rest ⊢
      rw [List.map_cons, List.sum_cons, List.length_cons, Nat.succ_mul]
      omega

/-- The loop completes the steps one by one, in their order, and ends. -/
structure CompletesInOrder (toLowercase : String → String) (goal : String)
    (router : ModelRouter) (wf : Workflow) : Prop where
  inOrder : ∀ turns ≤ wf.steps.length, ∃ next executed,
    executeSteps toLowercase goal turns router wf = some (next, executed) ∧
      executed.steps.length = wf.steps.length ∧
      executed.currentStep = turns ∧
      ∀ (index : Nat) step, executed.steps[index]? = some step →
        (step.status = .completed ↔ index < turns)
  ends : ∀ more,
    executeSteps toLowercase goal (wf.steps.length + more) router wf =
      executeSteps toLowercase goal wf.steps.length router wf

theorem Underway.completesInOrder {keys router : ModelRouter}
    {wfId : String} {plan : List (String × String × ProjectPhase)}
    {wf : Workflow}
    (underway : Underway toLowercase goal keys wfId plan router wf)
    (start : wf.currentStep = 0) :
    CompletesInOrder toLowercase goal router wf := by
  constructor
  case inOrder =>
    intro turns enough
    obtain ⟨next, executed, looped, ended, current, sameLength⟩ :=
      @Underway.turns _ _ _ _ _ turns _ _ underway (by omega)
    rw [start, Nat.zero_add] at current
    obtain ⟨finished, remaining, splits⟩ := ended.recorded.splits
    refine ⟨next, executed, looped, sameLength, current, ?_⟩
    intro index step found
    rw [← current]
    exact splits.completed_iff found
  case ends =>
    intro more
    obtain ⟨next, executed, looped, _, current, sameLength⟩ :=
      @Underway.turns _ _ _ _ _ wf.steps.length _ _ underway (by omega)
    rw [looped]
    apply executeSteps_ended looped
    omega

/-- What a command leaves behind of its goal. -/
structure RanToEnd (toLowercase : String → String) (goal : String)
    (computer next : UghiComputer) (wf : Workflow)
    (result : ComputerResult) : Prop where
  workflows : next.workflows.workflows = computer.workflows.workflows ++ [wf]
  freshId : ∀ other ∈ computer.workflows.workflows, other.id ≠ wf.id
  status : wf.status = .completed
  planned : wf.steps.map outline =
    plannedSteps (TaskCategory.detect toLowercase goal)
  completed : ∀ step ∈ wf.steps, step.status = .completed
  answered : ∀ step ∈ wf.steps,
    AnsweredAsRouted toLowercase goal computer.router step
  duration : wf.totalDurationMs.toNat = durationOf wf.steps
  reportedId : result.workflowId = wf.id
  stepsCompleted : result.stepsCompleted = result.totalSteps
  totalSteps : result.totalSteps = wf.steps.length
  someSteps : 0 < result.totalSteps

theorem Underway.ranToEnd {computer : UghiComputer}
    {next router : ModelRouter} {wf : Workflow} {wfId : String}
    {routing : RoutingDecision} {totalCreated : Nat} {elapsed : UInt64}
    {totalCommands : UInt64}
    (underway : Underway toLowercase goal computer.router wfId
      (plannedSteps (TaskCategory.detect toLowercase goal)) next wf)
    (atEnd : wf.currentStep = wf.steps.length)
    (absent : ∀ other ∈ computer.workflows.workflows, other.id ≠ wfId) :
    RanToEnd toLowercase goal computer
      { router
        workflows :=
          { workflows := computer.workflows.workflows ++ [wf]
            totalCreated }
        totalCommands }
      wf (.report wfId goal routing wf.steps.length elapsed wf) := by
  obtain ⟨finished, remaining, splits⟩ := underway.recorded.splits
  have sameLength : wf.steps.length =
      (plannedSteps (TaskCategory.detect toLowercase goal)).length := by
    rw [← underway.planned, List.length_map]
  obtain ⟨some, few⟩ :=
    plannedSteps_length (TaskCategory.detect toLowercase goal)
  have completed : ∀ step ∈ wf.steps, step.status = .completed := by
    intro step member
    obtain ⟨index, inside, same⟩ := List.getElem_of_mem member
    have found : wf.steps[index]? = .some step := by
      rw [List.getElem?_eq_getElem inside, same]
    rw [splits.completed_iff found, atEnd]
    exact inside
  have answered : ∀ step ∈ wf.steps,
      AnsweredAsRouted toLowercase goal computer.router step := by
    intro step member
    exact underway.answered step member (completed step member)
  have bounded : durationOf wf.steps ≤ wf.steps.length * 5000 := by
    apply durationOf_le
    intro step member
    obtain ⟨after, decision, routed, _, _, duration⟩ := answered step member
    rw [duration]
    exact ModelRouter.latency_le routed
  constructor
  case workflows => rfl
  case freshId =>
    rw [underway.id]
    exact absent
  case status => exact underway.status atEnd (by omega)
  case planned => exact underway.planned
  case completed => exact completed
  case answered => exact answered
  case duration =>
    have fits : durationOf wf.steps < 2 ^ 64 := by omega
    rw [splits.totalDurationMs]
    exact UInt64.toNat_ofNat_of_lt' fits
  case reportedId => exact underway.id.symm
  case stepsCompleted => exact splits.completedSteps.trans atEnd
  case totalSteps => rfl
  case someSteps =>
    have positive : 0 < wf.steps.length := by omega
    exact positive

/-- In every state a computer reaches, and under any router, a command creates
one workflow, completes its steps one after the other, and leaves it completed
beside the others. -/
theorem execute_runs_to_end (toLowercase : String → String)
    (calls : List Call) :
    ∃ computer, after toLowercase calls = some computer ∧
      ∀ (router : ModelRouter) (goal : String) (now elapsed : UInt64),
        ∃ routed routing next wf result,
          router.route toLowercase goal = some (routed, routing) ∧
          CompletesInOrder toLowercase goal routed
            (decomposeGoal (.new wf.id goal now) routing.category) ∧
          execute toLowercase goal { computer with router } now elapsed =
            some (next, .ok result) ∧
          RanToEnd toLowercase goal { computer with router } next wf
            result := by
  obtain ⟨computer, reached, sound⟩ := exists_after_sound toLowercase calls
  refine ⟨computer, reached, ?_⟩
  intro router goal now elapsed
  obtain ⟨routed, routing, routes, sameKeys, _⟩ :=
    @ModelRouter.exists_route toLowercase router goal
  have category := ModelRouter.category_of_route routes
  let swapped : UghiComputer := { computer with router }
  let wfId := (swapped.workflows.create goal now).2
  let wf := decomposeGoal (.new wfId goal now) routing.category
  obtain ⟨start, underway⟩ :=
    @decomposeGoal_underway toLowercase goal router routed sameKeys wfId now
      routing.category
  obtain ⟨next, executed, looped, ended, current, sameLength⟩ :=
    @Underway.turns _ _ _ _ _ wf.steps.length _ _ underway
      (by rw [start, Nat.zero_add])
  have enough : executeSteps toLowercase goal
      (wf.steps.length - wf.currentStep) routed wf =
        some (next, executed) := by
    rw [start, Nat.sub_zero]
    exact looped
  obtain ⟨absent, _, _, done⟩ :=
    @execute_of_loop toLowercase goal swapped routed next routing executed
      now elapsed sound.numbered routes enough ended.id
  rw [start, Nat.zero_add, ← sameLength] at current
  rw [category] at ended
  refine ⟨routed, routing, _, executed, _, routes, ?_, done, ?_⟩
  · rw [ended.id]
    exact underway.completesInOrder start
  · have ran := @Underway.ranToEnd toLowercase goal swapped next next executed
      wfId routing (swapped.workflows.totalCreated + 1) elapsed
      (swapped.totalCommands + 1) ended current absent
    rw [sameLength] at ran
    exact ran

end UghiComputer

end Ughi.Computer
