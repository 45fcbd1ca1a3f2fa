import Ughi.Computer.Computer
import Ughi.Computer.Record

/-!
# The loop of a command

One turn of the loop completes one step under the decision for its prompt.
Whatever the turns keep holds at the end of the loop, and the loop ends with
every step behind the current index.  A command that ends its loop leaves one
new workflow behind the others.
-/

namespace Ughi.Computer

open Ughi.Lib

/-- The step answered under a decision. -/
def answeredStep (routing : RoutingDecision) (step : WorkflowStep) :
    WorkflowStep :=
  { step with
    status := .completed
    output := some (UghiComputer.stepOutput step.phase step.name routing)
    modelUsed := some routing.primary.display
    durationMs := routing.estimatedLatencyMs }

/-- What one turn of the loop does with the decision for its prompt. -/
structure Turn (routing : RoutingDecision) (wf next : Workflow) : Prop where
  id : next.id = wf.id
  current : next.currentStep = wf.currentStep + 1
  cost : next.totalCostUsd = wf.totalCostUsd + routing.estimatedCostUsd
  steps : next.steps = (wf.modifyCurrent (answeredStep routing)).steps
  recorded : wf.Recorded → next.Recorded
  status : next.steps.length ≤ next.currentStep → next.status = .completed

namespace Turn

variable {routing : RoutingDecision} {wf next : Workflow}

theorem length (turn : Turn routing wf next) :
    next.steps.length = wf.steps.length := by
  rw [turn.steps, Workflow.modifyCurrent, List.length_modify]

theorem map_steps (turn : Turn routing wf next) {α : Type}
    {field : WorkflowStep → α}
    (kept : ∀ step, field (answeredStep routing step) = field step) :
    next.steps.map field = wf.steps.map field := by
  rw [turn.steps]
  exact wf.map_modifyCurrent kept

theorem exists_of_getElem? (turn : Turn routing wf next) {index : Nat}
    {step : WorkflowStep} (found : next.steps[index]? = some step) :
    ∃ old, wf.steps[index]? = some old ∧
      (index = wf.currentStep ∧ step = answeredStep routing old ∨
        index ≠ wf.currentStep ∧ step = old) := by
  rw [turn.steps] at found
  exact Workflow.exists_of_getElem?_modifyCurrent found

end Turn

theorem Workflow.completeStep_progress {wf : Workflow}
    (inside : wf.currentStep < wf.steps.length) (output model : String)
    (durationMs : UInt64) (costUsd : Binary64.Double) :
    wf.progress.1.completeStep output model durationMs costUsd =
      { wf with
        steps := wf.steps.modify wf.currentStep fun step =>
          { step with
            status := .completed
            output := some output
            modelUsed := some model
            durationMs := durationMs }
        totalDurationMs := wf.totalDurationMs + durationMs
        totalCostUsd := wf.totalCostUsd + costUsd
        currentStep := wf.currentStep + 1
        status :=
          if wf.steps.length ≤ wf.currentStep + 1 then .completed
          else .running } := by
  simp only [progress, if_pos inside, completeStep, modifyCurrent,
    List.length_modify, List.modify_modify_eq, Function.comp_def]
  split
  · rfl
  · rfl

theorem turn_of_progress_completeStep {wf : Workflow} {step : WorkflowStep}
    (found : wf.steps[wf.currentStep]? = some step)
    (routing : RoutingDecision) :
    Turn routing wf
      (wf.progress.1.completeStep
        (UghiComputer.stepOutput step.phase step.name routing)
        routing.primary.display routing.estimatedLatencyMs
        routing.estimatedCostUsd) := by
  obtain ⟨inside, _⟩ := List.getElem?_eq_some_iff.mp found
  have turned := Workflow.completeStep_progress inside
    (UghiComputer.stepOutput step.phase step.name routing)
    routing.primary.display routing.estimatedLatencyMs
    routing.estimatedCostUsd
  constructor
  case id => rw [turned]
  case current => rw [turned]
  case cost => rw [turned]
  case steps =>
    rw [turned, Workflow.modifyCurrent]
    apply List.ext_getElem?
    intro index
    simp only [List.getElem?_modify]
    by_cases current : wf.currentStep = index
    · subst current
      rw [found]
      simp [answeredStep]
    · simp [current]
  case recorded =>
    intro recorded
    exact recorded.progress.completeStep _ _ _ _
  case status =>
    intro last
    rw [turned] at last ⊢
    rw [List.length_modify] at last
    exact if_pos last

namespace UghiComputer

variable {toLowercase : String → String} {goal : String}

theorem exists_executeStep {router next : ModelRouter} {wf : Workflow}
    {step : WorkflowStep} {routing : RoutingDecision}
    (current : wf.steps[wf.currentStep]? = some step)
    (routed : router.route toLowercase (stepPrompt goal step.name) =
      some (next, routing)) :
    ∃ turned, executeStep toLowercase goal router wf = some (next, turned) ∧
      Turn routing wf turned := by
  refine ⟨_, ?_, turn_of_progress_completeStep current routing⟩
  rw [executeStep, current, Option.bind_some, routed]
  rfl

/-- The invariant rule of the loop: so many turns pass so many steps. -/
theorem executeSteps_of_invariant {invariant : ModelRouter → Workflow → Prop}
    (preserved : ∀ router wf step, invariant router wf →
      wf.steps[wf.currentStep]? = some step →
        ∃ next turned,
          executeStep toLowercase goal router wf = some (next, turned) ∧
            turned.currentStep = wf.currentStep + 1 ∧
            turned.steps.length = wf.steps.length ∧ invariant next turned)
    {turns : Nat} {router : ModelRouter} {wf : Workflow}
    (initial : invariant router wf)
    (enough : wf.currentStep + turns ≤ wf.steps.length) :
    ∃ next executed,
      executeSteps toLowercase goal turns router wf = some (next, executed) ∧
        invariant next executed ∧
        executed.currentStep = wf.currentStep + turns ∧
        executed.steps.length = wf.steps.length := by
  induction turns generalizing router wf with
  | zero => exact ⟨router, wf, rfl, initial, rfl, rfl⟩
  | succ turns induction =>
      have inside : wf.currentStep < wf.steps.length := by omega
      obtain ⟨middle, turned, taken, moved, sameLength, kept⟩ :=
        preserved router wf _ initial (List.getElem?_eq_getElem inside)
      have left : turned.currentStep + turns ≤ turned.steps.length := by
        rw [moved, sameLength]
        omega
      obtain ⟨next, executed, looped, ended, current, length⟩ :=
        induction kept left
      refine ⟨next, executed, ?_, ended, ?_, length.trans sameLength⟩
      · rw [executeSteps, if_pos inside, taken, Option.bind_some]
        exact looped
      · rw [current, moved]
        omega

/-! ## Decomposition -/

/-- What is planned of a step. -/
def outline (step : WorkflowStep) : String × String × ProjectPhase :=
  (step.name, step.description, step.phase)

theorem foldl_addStep
    {add : Workflow → String × String × ProjectPhase → Workflow}
    (adds : ∀ wf name desc phase,
      add wf (name, desc, phase) = wf.addStep name desc phase)
    (planned : List (String × String × ProjectPhase))
    {wf : Workflow} (recorded : wf.Recorded) :
    (planned.foldl add wf).Recorded ∧ (planned.foldl add wf).id = wf.id ∧
      (planned.foldl add wf).currentStep = wf.currentStep ∧
      (planned.foldl add wf).totalCostUsd = wf.totalCostUsd ∧
      (planned.foldl add wf).steps.map outline =
        wf.steps.map outline ++ planned := by
  induction planned generalizing wf with
  | nil => exact ⟨recorded, rfl, rfl, rfl, (List.append_nil _).symm⟩
  | cons head planned induction =>
      obtain ⟨name, desc, phase⟩ := head
      rw [List.foldl_cons, adds]
      obtain ⟨ended, id, current, cost, outlined⟩ :=
        induction (recorded.addStep name desc phase)
      refine ⟨ended, id, current, cost, ?_⟩
      rw [outlined]
      simp [Workflow.addStep, outline]

theorem decomposeGoal_new (wfId : String) (now : UInt64)
    (category : TaskCategory) :
    let wf := decomposeGoal (Workflow.new wfId goal now) category
    wf.Recorded ∧ wf.id = wfId ∧ wf.currentStep = 0 ∧
      wf.totalCostUsd = 0 ∧
      wf.steps.map outline = plannedSteps category :=
  foldl_addStep (fun _ _ _ _ => rfl) (plannedSteps category)
    (Workflow.recorded_new wfId goal now)

/-! ## Commands -/

/-- The command once its goal is routed and its loop has ended: the new
workflow stands behind the others. -/
theorem execute_of_loop {computer : UghiComputer} {router next : ModelRouter}
    {routing : RoutingDecision} {executed : Workflow} {now elapsed : UInt64}
    (numbered : computer.workflows.Numbered)
    (routed : computer.router.route toLowercase goal =
      some (router, routing)) :
    let created := computer.workflows.create goal now
    let wf := decomposeGoal (.new created.2 goal now) routing.category
    let stored : WorkflowEngine :=
      { workflows := computer.workflows.workflows ++ [executed]
        totalCreated := computer.workflows.totalCreated + 1 }
    executeSteps toLowercase goal (wf.steps.length - wf.currentStep) router
        wf = some (next, executed) →
      executed.id = created.2 →
        (∀ other ∈ computer.workflows.workflows, other.id ≠ created.2) ∧
        stored.Numbered ∧ stored.get created.2 = some executed ∧
        execute toLowercase goal computer now elapsed =
          some (
            { router := next
              workflows := stored
              totalCommands := computer.totalCommands + 1 },
            .ok (.report created.2 goal routing wf.steps.length elapsed
              executed)) := by
  intro created wf stored looped sameId
  have found : created.1.get created.2 = some (.new created.2 goal now) :=
    WorkflowEngine.get_create numbered goal now
  have createdNumbered : created.1.Numbered :=
    WorkflowEngine.create_numbered numbered goal now
  have absent : ∀ other ∈ computer.workflows.workflows,
      other.id ≠ created.2 :=
    WorkflowEngine.id_ne_create numbered goal now
  have written : (created.1.modify created.2 fun _ => executed) = stored := by
    rw [WorkflowEngine.modify]
    congr 1
    exact modifyFirst_concat absent rfl
  have kept : ∀ stored : Workflow, stored.id = created.2 →
      executed.id = created.2 := fun _ _ => sameId
  have storedNumbered : stored.Numbered := by
    rw [← written]
    exact WorkflowEngine.modify_numbered createdNumbered kept
  have read : stored.get created.2 = some executed := by
    rw [← written, WorkflowEngine.get_modify kept, found]
    rfl
  refine ⟨absent, storedNumbered, read, ?_⟩
  simp only [execute, routed, Option.bind_some, found, looped, written, read,
    Option.map_some, created, wf]

/-! ## Runs -/

/-- What holds of every computer a run reaches. -/
structure Sound (computer : UghiComputer) : Prop where
  counts : computer.router.CountsAgree
  numbered : computer.workflows.Numbered

theorem new_sound : new.Sound :=
  { counts := ModelRouter.new_countsAgree
    numbered := WorkflowEngine.new_numbered }

theorem execute_sound {computer : UghiComputer} (sound : computer.Sound)
    (goal : String) (now elapsed : UInt64) :
    ∃ after result,
      execute toLowercase goal computer now elapsed =
        some (after, .ok result) ∧ after.Sound := by
  obtain ⟨router, routing, routed, agree⟩ :=
    @ModelRouter.route_countsAgree toLowercase _ sound.counts goal
  let wfId := (computer.workflows.create goal now).2
  let wf := decomposeGoal (.new wfId goal now) routing.category
  obtain ⟨_, sameId, start, _⟩ :=
    @decomposeGoal_new goal wfId now routing.category
  have initial : router.CountsAgree ∧ wf.id = wfId := ⟨agree, sameId⟩
  have preserved : ∀ (router : ModelRouter) (wf : Workflow) step,
      router.CountsAgree ∧ wf.id = wfId →
        wf.steps[wf.currentStep]? = some step →
          ∃ next turned,
            executeStep toLowercase goal router wf = some (next, turned) ∧
              turned.currentStep = wf.currentStep + 1 ∧
              turned.steps.length = wf.steps.length ∧
              next.CountsAgree ∧ turned.id = wfId := by
    intro router wf step both current
    obtain ⟨next, routing, routed, nextAgree⟩ :=
      @ModelRouter.route_countsAgree toLowercase _ both.1
        (stepPrompt goal step.name)
    obtain ⟨turned, taken, turn⟩ := exists_executeStep current routed
    exact ⟨next, turned, taken, turn.current, turn.length, nextAgree,
      turn.id.trans both.2⟩
  have enough : wf.currentStep + (wf.steps.length - wf.currentStep) ≤
      wf.steps.length := by
    rw [start, Nat.zero_add, Nat.sub_zero]
  obtain ⟨next, executed, looped, ⟨nextAgree, executedId⟩, _⟩ :=
    executeSteps_of_invariant preserved initial enough
  obtain ⟨_, numbered, _, done⟩ :=
    @execute_of_loop _ _ _ _ _ _ _ now elapsed sound.numbered routed looped
      executedId
  exact ⟨_, _, done, nextAgree, numbered⟩

theorem writeWorkflow_sound {computer : UghiComputer}
    (sound : computer.Sound) (workflowId : String)
    {change : Workflow → Workflow} (kept : ∀ wf, (change wf).id = wf.id) :
    (computer.writeWorkflow workflowId change).1.Sound := by
  unfold writeWorkflow
  split
  · exact sound
  · refine ⟨sound.counts, ?_⟩
    apply WorkflowEngine.modify_numbered sound.numbered
    intro wf same
    rw [kept, same]

theorem serve_sound {computer : UghiComputer} (sound : computer.Sound)
    (call : Call) :
    ∃ next, serve toLowercase computer call = some next ∧ next.Sound := by
  cases call with
  | execute goal now elapsed =>
      obtain ⟨after, result, done, afterSound⟩ :=
        @execute_sound toLowercase _ sound goal now elapsed
      exact ⟨after, by rw [serve, done]; rfl, afterSound⟩
  | resume workflowId =>
      exact ⟨_, rfl, writeWorkflow_sound sound workflowId fun _ => rfl⟩
  | pause workflowId =>
      exact ⟨_, rfl, writeWorkflow_sound sound workflowId fun _ => rfl⟩
  | kill workflowId =>
      exact ⟨_, rfl, writeWorkflow_sound sound workflowId fun _ => rfl⟩
  | setApiKey provider key =>
      exact ⟨_, rfl,
        ModelRouter.setApiKey_countsAgree sound.counts provider key,
        sound.numbered⟩
  | route prompt =>
      obtain ⟨router, decision, routed, agree⟩ :=
        @ModelRouter.route_countsAgree toLowercase _ sound.counts prompt
      exact ⟨{ computer with router }, by rw [serve, routed]; rfl, agree,
        sound.numbered⟩

theorem exists_after_sound (toLowercase : String → String)
    (calls : List Call) :
    ∃ computer, after toLowercase calls = some computer ∧
      computer.Sound := by
  have initial : ∃ computer, some new = some computer ∧ computer.Sound :=
    ⟨new, rfl, new_sound⟩
  refine @invariant_of_calls _ _ _
    (fun state => ∃ computer : UghiComputer,
      state = some computer ∧ computer.Sound)
    ?_ _ initial calls
  rintro _ call ⟨computer, rfl, sound⟩
  exact serve_sound sound call

end UghiComputer

end Ughi.Computer
