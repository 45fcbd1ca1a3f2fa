import Ughi.Evolution.MetaAgent

/-!
# The evolution engine

The engine learns from a finished task, first its lesson and then its pattern,
and counts it for the next cycle.
-/

namespace Ughi.Evolution

open Ughi.Lib

/-- The Self-Evolution Engine. -/
structure EvolutionEngine where
  lessons : LessonStore
  patterns : PatternTracker
  metaAgent : MetaAgent

/-- What the engine is told of a finished task. -/
structure TaskReport where
  agentId : String
  goal : String
  expertPersona : String
  skillsUsed : List String
  succeeded : Bool
  errorMsg : Option String
  executionMs : UInt64

namespace EvolutionEngine

def new : EvolutionEngine :=
  { lessons := .new
    patterns := .new
    metaAgent := .new }

/-- The first part of the name of an expert. -/
def domainOf (expertPersona : String) : String :=
  ((expertPersona.toList.splitOn '-').head?.map String.ofList).getD "general"

/-- Record a completed task (learns from both success and failure). -/
def onTaskComplete (toLowercase : String → String)
    (engine : EvolutionEngine) (task : TaskReport) (now : UInt64) :
    Option (Bool × EvolutionEngine) :=
  let domain := domainOf task.expertPersona
  (engine.lessons.autoReflect toLowercase task.agentId task.goal domain
      task.succeeded task.errorMsg now).bind fun lessons =>
    (engine.patterns.record toLowercase task.goal task.expertPersona
        task.skillsUsed task.succeeded task.executionMs now).map
      fun patterns =>
        let (trigger, metaAgent) := engine.metaAgent.onTaskComplete
        (trigger, { lessons, patterns, metaAgent })

/-- Run the evolution cycle (manually or after threshold). -/
def evolve (engine : EvolutionEngine) (order : List String) :
    Option (List Proposal × EvolutionEngine) :=
  (engine.metaAgent.evolve engine.lessons engine.patterns order).map
    fun (proposals, metaAgent) => (proposals, { engine with metaAgent })

inductive Call where
  | onTaskComplete (task : TaskReport) (now : UInt64)
  | evolve (order : List String)

def serve (toLowercase : String → String) (engine : EvolutionEngine) :
    Call → Option EvolutionEngine
  | .onTaskComplete task now =>
      (engine.onTaskComplete toLowercase task now).map Prod.snd
  | .evolve order => (engine.evolve order).map Prod.snd

/-- The engine after some calls; `none` once a call has panicked. -/
def after (toLowercase : String → String) (calls : List Call) :
    Option EvolutionEngine :=
  runCalls (fun engine call => engine.bind (serve toLowercase · call))
    (some new) calls

/-- The tasks some calls report. -/
def tasksOf (calls : List Call) : List TaskReport :=
  calls.filterMap fun
    | .onTaskComplete task _ => some task
    | .evolve _ => none

end EvolutionEngine

end Ughi.Evolution
