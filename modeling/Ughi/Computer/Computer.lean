import Ughi.Computer.Router
import Ughi.Computer.Workflow
import Ughi.Lib.Run

/-!
# The computer

`execute` routes a goal, decomposes it into steps by its category and routes
every step again under a longer prompt.  A computer is driven by commands and
by calls on its public router; `none` is a panic, and a run that panicked
serves no more calls.

A private goal is answered on the device.  Appending the name of a step cannot
change that, because the private keywords are asked for first.
-/

namespace Ughi.Computer

open Ughi.Lib
open Ughi.Lib.Binary64 (Double)

/-- Result of a computer command execution. -/
structure ComputerResult where
  workflowId : String
  goal : String
  status : String
  stepsCompleted : Nat
  totalSteps : Nat
  totalDurationMs : UInt64
  totalCostUsd : Double
  primaryModel : String
  category : String
deriving DecidableEq

/-- The report on an executed workflow. -/
def ComputerResult.report (wfId goal : String) (routing : RoutingDecision)
    (totalSteps : Nat) (elapsed : UInt64) (wf : Workflow) : ComputerResult :=
  { workflowId := wfId
    goal
    status := wf.status.display
    stepsCompleted := wf.completedSteps
    totalSteps
    totalDurationMs := elapsed
    totalCostUsd := wf.totalCostUsd
    primaryModel := routing.primary.display
    category := routing.category.debug }

structure UghiComputer where
  router : ModelRouter
  workflows : WorkflowEngine
  totalCommands : UInt64

namespace UghiComputer

def new : UghiComputer :=
  { router := .new
    workflows := .new
    totalCommands := 0 }

/-- Name, description and phase of the steps a category is decomposed into. -/
def plannedSteps : TaskCategory → List (String × String × ProjectPhase)
  | .coding =>
      [("Research Stack",
          "Analyze requirements and choose best technologies", .research),
        ("Architecture Design",
          "Design system architecture and data models", .planning),
        ("UI/UX Design", "Create wireframes and design system", .design),
        ("Core Implementation", "Build core features and APIs", .code),
        ("Testing", "Write tests, run CI pipeline", .test),
        ("Deployment", "Deploy to production (Vercel/Railway/Fly)", .deploy),
        ("Monitoring Setup",
          "Configure error tracking and analytics", .monitor)]
  | .creative | .research =>
      [("Research & Analysis", "Gather data, analyze trends", .research),
        ("Strategy Planning", "Create detailed plan", .planning),
        ("Content Creation", "Write/design deliverables", .design),
        ("Review & Iterate", "Quality check and refine", .test),
        ("Publish & Distribute", "Launch and distribute", .deploy)]
  | _ =>
      [("Understand", "Analyze the request in detail", .research),
        ("Plan", "Create execution plan", .planning),
        ("Execute", "Carry out the plan", .code),
        ("Verify", "Verify results and quality", .test)]

/-- Decompose a high-level goal into actionable workflow steps. -/
def decomposeGoal (wf : Workflow) (category : TaskCategory) : Workflow :=
  (plannedSteps category).foldl
    (fun wf (name, desc, phase) => wf.addStep name desc phase) wf

def stepPrompt (goal stepName : String) : String :=
  goal ++ " - " ++ stepName

def stepOutput (phase : ProjectPhase) (name : String)
    (routing : RoutingDecision) : String :=
  "[" ++ phase.display ++ "] " ++ name ++ " completed via " ++
    routing.primary.display ++ " (" ++ routing.reason ++ ")"

section Execution

variable (toLowercase : String → String) (goal : String)

/-- One turn of the loop over the steps. -/
def executeStep (router : ModelRouter) (wf : Workflow) :
    Option (ModelRouter × Workflow) :=
  wf.steps[wf.currentStep]?.bind fun step =>
    (router.route toLowercase (stepPrompt goal step.name)).map
      fun (router, routing) =>
        let wf := wf.progress.1
        (router, wf.completeStep (stepOutput step.phase step.name routing)
          routing.primary.display routing.estimatedLatencyMs
          routing.estimatedCostUsd)

/-- The loop, with at most `turns` turns. -/
def executeSteps : Nat → ModelRouter → Workflow →
    Option (ModelRouter × Workflow)
  | 0, router, wf => some (router, wf)
  | turns + 1, router, wf =>
      if wf.currentStep < wf.steps.length then
        (executeStep toLowercase goal router wf).bind fun (router, wf) =>
          executeSteps turns router wf
      else some (router, wf)

/-- Main entry point.  `elapsed` is what the stopwatch of the command reads. -/
def execute (computer : UghiComputer) (now elapsed : UInt64) :
    Option (UghiComputer × Except String ComputerResult) :=
  let totalCommands := computer.totalCommands + 1
  (computer.router.route toLowercase goal).bind fun (router, routing) =>
    let (workflows, wfId) := computer.workflows.create goal now
    (workflows.get wfId).bind fun wf =>
      let wf := decomposeGoal wf routing.category
      let totalSteps := wf.steps.length
      let turns := wf.steps.length - wf.currentStep
      (executeSteps toLowercase goal turns router wf).bind
        fun (router, executed) =>
          let workflows := workflows.modify wfId fun _ => executed
          (workflows.get wfId).map fun wf =>
            ({ router
               workflows
               totalCommands },
              .ok (.report wfId goal routing totalSteps elapsed wf))

end Execution

/-- The shared part of `resume`, `pause` and `kill`. -/
def writeWorkflow (computer : UghiComputer) (workflowId : String)
    (change : Workflow → Workflow) :
    UghiComputer × Except String Workflow :=
  match computer.workflows.get workflowId with
  | none =>
      (computer, .error ("Workflow '" ++ workflowId ++ "' not found"))
  | some wf =>
      ({ computer with
          workflows := computer.workflows.modify workflowId change },
        .ok (change wf))

end UghiComputer

/-- What `UghiComputer::resume` writes. -/
def Workflow.resume (wf : Workflow) : Workflow :=
  { wf with status := .running }

namespace UghiComputer

/-- Resume a previously checkpointed workflow. -/
def resume (computer : UghiComputer) (workflowId : String) :
    UghiComputer × Except String Workflow :=
  computer.writeWorkflow workflowId Workflow.resume

/-- Pause a running workflow. -/
def pause (computer : UghiComputer) (workflowId : String) :
    UghiComputer × Except String Unit :=
  let (computer, answer) := computer.writeWorkflow workflowId Workflow.pause
  (computer, answer.map fun _ => ())

/-- Kill a workflow. -/
def kill (computer : UghiComputer) (workflowId : String) :
    UghiComputer × Except String Unit :=
  let (computer, answer) := computer.writeWorkflow workflowId Workflow.kill
  (computer, answer.map fun _ => ())

inductive Call where
  | execute (goal : String) (now elapsed : UInt64)
  | resume (workflowId : String)
  | pause (workflowId : String)
  | kill (workflowId : String)
  | setApiKey (provider : ModelProvider) (key : String)
  | route (prompt : String)

def serve (toLowercase : String → String) (computer : UghiComputer) :
    Call → Option UghiComputer
  | .execute goal now elapsed =>
      (execute toLowercase goal computer now elapsed).map Prod.fst
  | .resume workflowId => some (computer.resume workflowId).1
  | .pause workflowId => some (computer.pause workflowId).1
  | .kill workflowId => some (computer.kill workflowId).1
  | .setApiKey provider key =>
      some { computer with router := computer.router.setApiKey provider key }
  | .route prompt =>
      (computer.router.route toLowercase prompt).map fun (router, _) =>
        { computer with router }

/-- The state after a run from a new computer. -/
def after (toLowercase : String → String) (calls : List Call) :
    Option UghiComputer :=
  runCalls (fun computer call => computer.bind (serve toLowercase · call))
    (some new) calls

end UghiComputer

end Ughi.Computer
