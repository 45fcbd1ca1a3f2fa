import Ughi.Evolution.Lessons
import Ughi.Evolution.Patterns
import Ughi.Lib.Run
import Ughi.Lib.Text
import Ughi.Lib.Vec

/-!
# The meta-evolution agent

An evolution cycle turns lessons and patterns into proposals and opens a new
version; proposals are approved, applied and rolled back by their status.  A
list that is never shortened bounds the ids and the versions far below the
range of a 64-bit number.
-/

namespace Ughi.Evolution

open Ughi.Lib
open Ughi.Lib.Binary64

inductive ProposalCategory where
  | newSkill
  | promptImprovement
  | patternReinforcement
  | expertPersonaSuggestion
  | performanceOptimization
  | errorPrevention
deriving DecidableEq, Repr

inductive ProposalStatus where
  | proposed
  | approved
  | applied
  | rejected
  | rolledBack
deriving DecidableEq, Repr

/-- A proposed improvement from the meta-agent. -/
structure Proposal where
  id : Nat
  category : ProposalCategory
  title : String
  description : String
  confidence : ℚ
  status : ProposalStatus
  source : String
deriving DecidableEq

def Proposal.withStatus (status : ProposalStatus) (p : Proposal) : Proposal :=
  { p with status }

/-- The Meta-Evolution Agent. -/
structure MetaAgent where
  proposals : List Proposal
  nextId : Nat
  tasksSinceEvolve : UInt64
  totalEvolutions : Nat
  version : String
  versionHistory : List String
deriving DecidableEq

/-- The text of a failure cause: its first 40 bytes, or a panic. -/
def causeKey (l : Lesson) : Option String :=
  if l.rootCause.utf8ByteSize > 40 then sliceTo l.rootCause 40
  else some l.rootCause

/-- The failure causes seen at least twice, most frequent first.  The order
among equals is that of a hash map. -/
def analyzeCommonFailures (order : List String) (failures : List Lesson) :
    Option (List (String × Nat)) :=
  (failures.mapM causeKey).map fun keys =>
    let causes : HashMap String Nat := keys.foldl (fun causes key =>
      causes.insert key ((causes.lookup key).getD 0 + 1)) ∅
    let counted := (HashMap.iterate order causes).map fun key =>
      (key, (causes.lookup key).getD 0)
    ((counted.filter fun cause => decide (cause.2 ≥ 2)).mergeSort
      fun a b => decide (b.2 ≤ a.2)).take 5

/-- A rate in percent, without decimals. -/
def percent (rate : ℚ) : String :=
  toString (roundEven (nearest (rate * 100)))

/-- The version an evolution cycle opens. -/
def versionText (totalEvolutions : Nat) : String :=
  "1." ++ totalEvolutions.repr ++ ".0"

namespace MetaAgent

def new : MetaAgent :=
  { proposals := []
    nextId := 1
    tasksSinceEvolve := 0
    totalEvolutions := 0
    version := "1.0.0"
    versionHistory := ["1.0.0"] }

def evolveThreshold : UInt64 := 50

/-- Record a task completion (tracks threshold for auto-evolve). -/
def onTaskComplete (agent : MetaAgent) : Bool × MetaAgent :=
  let tasks := agent.tasksSinceEvolve + 1
  (decide (tasks ≥ evolveThreshold), { agent with tasksSinceEvolve := tasks })

def propose (agent : MetaAgent) (category : ProposalCategory)
    (title description : String) (confidence : ℚ) (source : String) :
    MetaAgent :=
  { agent with
    nextId := agent.nextId + 1
    proposals := agent.proposals ++
      [{ id := agent.nextId
         category
         title
         description
         confidence
         status := .proposed
         source }] }

def proposePrevention (agent : MetaAgent) (cause : String × Nat) :
    MetaAgent :=
  agent.propose .errorPrevention
    ("Prevent recurring failure: " ++ cause.1)
    ("Seen " ++ cause.2.repr ++ " times. Add pre-check or retry logic for: " ++
      cause.1)
    (nearest (nearest (7 / 10) +
      min (nearest (nearest cause.2 * nearest (1 / 20))) (1 / 4)))
    "lesson-analysis"

def proposeReinforcement (agent : MetaAgent) (pattern : UsagePattern) :
    MetaAgent :=
  if pattern.winRate > nearest (4 / 5) then
    agent.propose .patternReinforcement
      ("Reinforce expert: " ++ pattern.expertPersona)
      ("Win rate: " ++ percent pattern.winRate ++ "% over " ++
        toString (pattern.successCount + pattern.failureCount) ++
        " runs. Boost priority for similar goals.")
      pattern.winRate
      "pattern-analysis"
  else agent

def proposeSkill (agent : MetaAgent) (patterns : PatternTracker) :
    MetaAgent :=
  if patterns.systemWinRate < nearest (7 / 10) then
    agent.propose .newSkill
      "Add error recovery skill"
      ("System win rate below 70%. " ++
        "Add dedicated error analysis + retry skill.")
      (nearest (4 / 5))
      "system-analysis"
  else agent

def proposePrompts (agent : MetaAgent) (lessons : LessonStore) : MetaAgent :=
  if lessons.failureRate > nearest (3 / 10) then
    agent.propose .promptImprovement
      "Enhance expert prompts with failure context"
      ("Failure rate: " ++ percent lessons.failureRate ++
        "%. Inject learned rules into expert system prompts.")
      (3 / 4)
      "failure-analysis"
  else agent

/-- Bump version. -/
def bumpVersion (agent : MetaAgent) : MetaAgent :=
  let totalEvolutions := agent.totalEvolutions + 1
  let newVersion := versionText totalEvolutions
  { agent with
    totalEvolutions
    tasksSinceEvolve := 0
    versionHistory := agent.versionHistory ++ [newVersion]
    version := newVersion }

/-- Get pending proposals. -/
def pendingProposals (agent : MetaAgent) : List Proposal :=
  agent.proposals.filter fun p => decide (p.status = .proposed)

/-- Analyze failure patterns. -/
def preventFailures (agent : MetaAgent) (lessons : LessonStore)
    (order : List String) : Option MetaAgent :=
  let failures := lessons.lessons.filter fun l => !l.succeeded
  if failures.isEmpty then some agent
  else
    (analyzeCommonFailures order failures).map fun commonCauses =>
      commonCauses.foldl proposePrevention agent

/-- Run the full evolution cycle; `none` stands for the panic. -/
def evolve (agent : MetaAgent) (lessons : LessonStore)
    (patterns : PatternTracker) (order : List String) :
    Option (List Proposal × MetaAgent) :=
  (agent.preventFailures lessons order).map fun agent =>
    let agent := (patterns.topPatterns 5).foldl proposeReinforcement agent
    let agent := agent.proposeSkill patterns
    let agent := agent.proposePrompts lessons
    let agent := agent.bumpVersion
    (agent.pendingProposals, agent)

/-- Approve a proposal. -/
def approve (agent : MetaAgent) (id : Nat) : Bool × MetaAgent :=
  match firstWith Proposal.id id agent.proposals with
  | some _ =>
      (true,
        { agent with
          proposals := modifyFirst Proposal.id id
            (Proposal.withStatus .approved) agent.proposals })
  | none => (false, agent)

/-- Apply an approved proposal. -/
def apply (agent : MetaAgent) (id : Nat) (userApproved : Bool) :
    Except String Bool × MetaAgent :=
  if !userApproved then
    (.error ("SECURITY: Evolution apply() requires explicit user approval. " ++
      "Set user_approved=true only after user confirms."), agent)
  else
    let key := fun p : Proposal => (p.id, p.status)
    match firstWith key (id, .approved) agent.proposals with
    | some _ =>
        (.ok true,
          { agent with
            proposals := modifyFirst key (id, .approved)
              (Proposal.withStatus .applied) agent.proposals })
    | none => (.ok false, agent)

/-- Rollback to a previous version. -/
def rollback (agent : MetaAgent) (targetVersion : String) :
    Bool × MetaAgent :=
  if targetVersion ∈ agent.versionHistory then
    (true,
      { agent with
        proposals := agent.proposals.map fun p =>
          if p.status = .applied then p.withStatus .rolledBack else p
        version := targetVersion })
  else (false, agent)

inductive Call where
  | onTaskComplete
  | evolve (lessons : LessonStore) (patterns : PatternTracker)
      (order : List String)
  | approve (id : Nat)
  | apply (id : Nat) (userApproved : Bool)
  | rollback (targetVersion : String)

/-- A cycle that panics has not changed the agent yet. -/
def serve (agent : MetaAgent) : Call → MetaAgent
  | .onTaskComplete => agent.onTaskComplete.2
  | .evolve lessons patterns order =>
      ((agent.evolve lessons patterns order).map Prod.snd).getD agent
  | .approve id => (agent.approve id).2
  | .apply id userApproved => (agent.apply id userApproved).2
  | .rollback targetVersion => (agent.rollback targetVersion).2

/-- The agent after a run. -/
def after (calls : List Call) : MetaAgent :=
  runCalls serve new calls

end MetaAgent

end Ughi.Evolution
