import Ughi.Lib.HashMap
import Ughi.Lib.Projection
import Ughi.Lib.Text
import Ughi.Lib.Word

/-!
# The self-healing manager

Crashes and recoveries of many agents arrive interleaved.  What the manager
does for one agent is what it would do if the others did not exist: `alone`
serves the calls of a single agent from the two map entries of that agent, and
the manager projects to it.  Lower-casing is left open: it is the parameter
`toLowercase`.
-/

namespace Ughi.Agents

open Ughi.Lib

/-- A crash record for an agent. -/
structure CrashRecord where
  agentId : String
  reason : String
  timestampMs : Nat
  recovered : Bool
  restartCount : Nat
deriving DecidableEq, Repr

/-- Root cause categories. -/
inductive RootCause where
  | memoryExceeded
  | timeout
  | sandboxViolation
  | internalError
  | externalDependency
  | unknown
deriving DecidableEq, Repr

/-- Classify a crash reason; the first keyword that occurs decides. -/
def RootCause.classify (toLowercase : String → String) (reason : String) :
    RootCause :=
  let r := toLowercase reason
  if contains r "memory" || contains r "oom" || contains r "budget" then
    .memoryExceeded
  else if contains r "timeout" || contains r "deadline" then .timeout
  else if contains r "sandbox" || contains r "capability" ||
      contains r "violation" then
    .sandboxViolation
  else if contains r "network" || contains r "connection" ||
      contains r "api" then
    .externalDependency
  else if contains r "panic" || contains r "internal" then .internalError
  else .unknown

/-- Healing action to apply. -/
inductive HealingAction where
  | restart
  | restartWithReducedMemory (newLimitMb : Nat)
  | restartWithLowerPriority
  | quarantine
  | notifyOperator (message : String)
deriving DecidableEq, Repr

def maxRestarts : Nat := 3

/-- The action for a root cause and a restart count. -/
def healingAction (rootCause : RootCause) (count : Nat) : HealingAction :=
  if count > maxRestarts then .quarantine
  else
    match rootCause with
    | .memoryExceeded => .restartWithReducedMemory 100
    | .timeout => .restartWithLowerPriority
    | .sandboxViolation => .quarantine
    | _ => .restart

theorem healingAction_eq_quarantine_iff (rootCause : RootCause)
    (count : Nat) :
    healingAction rootCause count = .quarantine ↔
      rootCause = .sandboxViolation ∨ maxRestarts < count := by
  by_cases exceeded : maxRestarts < count
  · simp [healingAction, exceeded]
  · cases rootCause <;> simp [healingAction, exceeded]

/-- The last record is marked as recovered. -/
def markRecovered : List CrashRecord → List CrashRecord
  | [] => []
  | [last] => [{ last with recovered := true }]
  | record :: next :: records => record :: markRecovered (next :: records)

theorem markRecovered_length (records : List CrashRecord) :
    (markRecovered records).length = records.length := by
  induction records using markRecovered.induct with
  | case1 => rfl
  | case2 last => rfl
  | case3 record next records induction =>
      rw [markRecovered, List.length_cons, List.length_cons, induction]

structure SelfHealingManager where
  crashHistory : HashMap String (List CrashRecord)
  restartCounts : HashMap String Nat
  totalCrashes : Nat
  totalRecoveries : Nat

namespace SelfHealingManager

def new : SelfHealingManager :=
  { crashHistory := ∅, restartCounts := ∅, totalCrashes := 0
    totalRecoveries := 0 }

variable (toLowercase : String → String)

/-- Record a crash and determine the healing action. -/
def onCrash (manager : SelfHealingManager) (agentId reason : String)
    (now : Nat) : HealingAction × SelfHealingManager :=
  let count :=
    wrappingAdd 32 ((manager.restartCounts.lookup agentId).getD 0) 1
  let record : CrashRecord :=
    { agentId := agentId, reason := reason, timestampMs := now
      recovered := false, restartCount := count }
  let records := (manager.crashHistory.lookup agentId).getD []
  (healingAction (.classify toLowercase reason) count,
    { manager with
      crashHistory := manager.crashHistory.insert agentId (records ++ [record])
      restartCounts := manager.restartCounts.insert agentId count
      totalCrashes := wrappingAdd 64 manager.totalCrashes 1 })

/-- Mark an agent as successfully recovered. -/
def onRecovery (manager : SelfHealingManager) (agentId : String) :
    SelfHealingManager :=
  { manager with
    crashHistory := HashMap.modify agentId markRecovered manager.crashHistory
    restartCounts := manager.restartCounts.erase agentId
    totalRecoveries := wrappingAdd 64 manager.totalRecoveries 1 }

/-- The calls a manager serves. -/
inductive Call where
  | onCrash (agentId reason : String) (now : Nat)
  | onRecovery (agentId : String)
deriving DecidableEq, Repr

namespace Call

def agentId : Call → String
  | .onCrash agentId _ _ => agentId
  | .onRecovery agentId => agentId

def isCrash : Call → Bool
  | .onCrash _ _ _ => true
  | .onRecovery _ => false

/-- The call is about the agent. -/
def isAbout (agentId : String) (call : Call) : Bool :=
  call.agentId = agentId

end Call

/-- A crash is answered by an action. -/
def serve (manager : SelfHealingManager) :
    Call → Option HealingAction × SelfHealingManager
  | .onCrash agentId reason now =>
      let (action, manager) := manager.onCrash toLowercase agentId reason now
      (some action, manager)
  | .onRecovery agentId => (none, manager.onRecovery agentId)

def afterRun (calls : List Call) : SelfHealingManager :=
  runCalls (afterCall (serve toLowercase)) new calls

/-- The crashes of an agent since its last recovery, or since the start. -/
def crashesSinceRecovery (agentId : String) (calls : List Call) : Nat :=
  let recent := calls.reverse.takeWhile fun call => call ≠ .onRecovery agentId
  recent.countP fun call => call.isCrash && call.isAbout agentId

/-! ## One agent among many -/

/-- What the maps hold for one agent. -/
structure Tracked where
  history : Option (List CrashRecord)
  restarts : Option Nat
deriving DecidableEq, Repr

/-- The entries of an agent. -/
def tracked (agentId : String) (manager : SelfHealingManager) : Tracked :=
  { history := manager.crashHistory.lookup agentId
    restarts := manager.restartCounts.lookup agentId }

/-- A manager of one agent. -/
def alone (own : Tracked) : Call → Option HealingAction × Tracked
  | .onCrash agentId reason now =>
      let count := wrappingAdd 32 (own.restarts.getD 0) 1
      let record : CrashRecord :=
        { agentId := agentId, reason := reason, timestampMs := now
          recovered := false, restartCount := count }
      (some (healingAction (.classify toLowercase reason) count),
        { history := some (own.history.getD [] ++ [record])
          restarts := some count })
  | .onRecovery _ =>
      (none, { history := own.history.map markRecovered, restarts := none })

theorem serve_tracked_other (manager : SelfHealingManager) {call : Call}
    {agentId : String} (other : agentId ≠ call.agentId) :
    tracked agentId (serve toLowercase manager call).2 =
      tracked agentId manager := by
  cases call with
  | onCrash crashed reason now =>
      have different : agentId ≠ crashed := other
      simp only [tracked, serve, onCrash, HashMap.lookup_insert_eq,
        if_neg different]
  | onRecovery recovered =>
      have different : agentId ≠ recovered := other
      simp only [tracked, serve, onRecovery, HashMap.lookup_modify,
        HashMap.lookup_erase_eq, if_neg different]

/-- The manager serves an agent as if the agent were alone. -/
theorem serve_projects (agentId : String) :
    Projects (serve toLowercase) (alone toLowercase) (tracked agentId)
      (Call.isAbout agentId) id (fun _ => True) (fun _ _ => True) where
  kept := by
    intro manager call _ _
    trivial
  answer := by
    intro manager call _ _ about
    have own : call.agentId = agentId := of_decide_eq_true about
    subst own
    cases call with
    | onCrash crashed reason now => rfl
    | onRecovery recovered => rfl
  ownView := by
    intro manager call _ _ about
    have own : call.agentId = agentId := of_decide_eq_true about
    subst own
    cases call with
    | onCrash crashed reason now =>
        simp [afterCall, serve, onCrash, alone, tracked, Call.agentId]
    | onRecovery recovered =>
        simp [afterCall, serve, onRecovery, alone, tracked, Call.agentId,
          HashMap.lookup_modify]
  otherView := by
    intro manager call _ _ about
    have other : call.agentId ≠ agentId := of_decide_eq_false about
    exact serve_tracked_other toLowercase manager other.symm

theorem answers_independent (agentId : String) {left right : List Call}
    (same : left.filter (Call.isAbout agentId) =
      right.filter (Call.isAbout agentId)) :
    answersTo (serve toLowercase) (Call.isAbout agentId) new left =
      answersTo (serve toLowercase) (Call.isAbout agentId) new right := by
  have free : ∀ calls, EachCall (afterCall (serve toLowercase))
      (fun _ _ => True) new calls := by
    intro calls
    exact eachCall_of_forall_mem (fun _ _ _ => trivial)
  have sameShare : shareOf (Call.isAbout agentId) id left =
      shareOf (Call.isAbout agentId) id right := by
    rw [shareOf, shareOf, same]
  exact ((serve_projects toLowercase agentId).agree trivial (free left)
    (free right) sameShare).1

/-! ## The counters and the history -/

/-- What the maps and the counters hold after the served calls. -/
structure Faithful (served : List Call) (manager : SelfHealingManager) :
    Prop where
  restarts : ∀ agentId, (manager.restartCounts.lookup agentId).getD 0 =
    crashesSinceRecovery agentId served % 2 ^ 32
  totalCrashes :
    manager.totalCrashes = served.countP Call.isCrash % 2 ^ 64
  recorded : HashMap.sumOf List.length manager.crashHistory =
    served.countP Call.isCrash

theorem new_faithful : Faithful [] new where
  restarts := fun _ => rfl
  totalCrashes := rfl
  recorded := rfl

section History

variable {served : List Call} {manager : SelfHealingManager}

theorem crashesSinceRecovery_onCrash (agentId crashed reason : String)
    (now : Nat) :
    crashesSinceRecovery agentId (served ++ [.onCrash crashed reason now]) =
      crashesSinceRecovery agentId served +
        if crashed = agentId then 1 else 0 := by
  by_cases own : crashed = agentId
  · simp [crashesSinceRecovery, own, Call.isCrash, Call.isAbout,
      Call.agentId]
  · simp [crashesSinceRecovery, own, Call.isAbout, Call.agentId]

theorem crashesSinceRecovery_onRecovery (agentId recovered : String) :
    crashesSinceRecovery agentId (served ++ [.onRecovery recovered]) =
      if recovered = agentId then 0
      else crashesSinceRecovery agentId served := by
  by_cases own : recovered = agentId
  · simp [crashesSinceRecovery, own]
  · simp [crashesSinceRecovery, own, Call.isCrash]

theorem Faithful.onCrash (faithful : Faithful served manager)
    (crashed reason : String) (now : Nat) :
    Faithful (served ++ [.onCrash crashed reason now])
      (manager.onCrash toLowercase crashed reason now).2 where
  restarts := by
    intro agentId
    rw [crashesSinceRecovery_onCrash]
    simp only [SelfHealingManager.onCrash, HashMap.lookup_insert_eq]
    by_cases own : agentId = crashed
    · subst own
      rw [if_pos rfl, if_pos rfl, Option.getD_some, faithful.restarts]
      exact wrappingAdd_mod 32 _ _
    · rw [if_neg own, if_neg (Ne.symm own), faithful.restarts, Nat.add_zero]
  totalCrashes := by
    simp only [SelfHealingManager.onCrash, List.countP_append,
      faithful.totalCrashes]
    exact wrappingAdd_mod 64 _ _
  recorded := by
    simp only [SelfHealingManager.onCrash, List.countP_append,
      HashMap.sumOf_length_push, faithful.recorded]
    rfl

theorem Faithful.onRecovery (faithful : Faithful served manager)
    (recovered : String) :
    Faithful (served ++ [.onRecovery recovered])
      (manager.onRecovery recovered) where
  restarts := by
    intro agentId
    rw [crashesSinceRecovery_onRecovery]
    simp only [SelfHealingManager.onRecovery, HashMap.lookup_erase_eq]
    by_cases own : agentId = recovered
    · subst own
      rw [if_pos rfl, if_pos rfl]
      rfl
    · rw [if_neg own, if_neg (Ne.symm own), faithful.restarts]
  totalCrashes := by
    simp only [SelfHealingManager.onRecovery, List.countP_append,
      faithful.totalCrashes]
    rfl
  recorded := by
    simp only [SelfHealingManager.onRecovery, List.countP_append]
    rw [HashMap.sumOf_modify List.length markRecovered_length,
      faithful.recorded]
    rfl

theorem run_faithful (toLowercase : String → String) (calls : List Call) :
    Faithful calls (afterRun toLowercase calls) := by
  have preserved : ∀ served manager call, Faithful served manager →
      Faithful (served ++ [call])
        (afterCall (serve toLowercase) manager call) := by
    intro served manager call faithful
    cases call with
    | onCrash crashed reason now =>
        exact faithful.onCrash toLowercase crashed reason now
    | onRecovery recovered => exact faithful.onRecovery recovered
  exact invariant_of_history new_faithful preserved calls

theorem crashesSinceRecovery_le (agentId : String) (calls : List Call) :
    crashesSinceRecovery agentId calls ≤ calls.countP Call.isCrash := by
  have recent : crashesSinceRecovery agentId calls ≤
      calls.reverse.countP fun call =>
        call.isCrash && call.isAbout agentId :=
    (List.takeWhile_sublist _).countP_le
  rw [List.countP_reverse] at recent
  apply Nat.le_trans recent
  apply List.countP_mono_left
  intro call _ both
  rw [Bool.and_eq_true] at both
  exact both.1

/-- The crash that makes the count exceed the maximum is answered by
quarantine, and so is a sandbox violation. -/
theorem onCrash_quarantine_iff {agentId reason : String} {now : Nat}
    (few : (served ++ [Call.onCrash agentId reason now]).countP
      Call.isCrash < 2 ^ 32) :
    ((afterRun toLowercase served).onCrash toLowercase agentId reason
          now).1 = .quarantine ↔
      RootCause.classify toLowercase reason = .sandboxViolation ∨
        maxRestarts < crashesSinceRecovery agentId
          (served ++ [.onCrash agentId reason now]) := by
  have faithful := run_faithful toLowercase served
  have counted := crashesSinceRecovery_le agentId
    (served ++ [.onCrash agentId reason now])
  rw [crashesSinceRecovery_onCrash, if_pos rfl] at counted ⊢
  have count : wrappingAdd 32
      (((afterRun toLowercase served).restartCounts.lookup agentId).getD 0)
        1 = crashesSinceRecovery agentId served + 1 := by
    rw [faithful.restarts, wrappingAdd_mod]
    exact Nat.mod_eq_of_lt (by omega)
  rw [onCrash, count]
  exact healingAction_eq_quarantine_iff _ _

end History

/-- With fewer than `2 ^ 32` crashes in a run, a crash is answered by
quarantine exactly for a sandbox violation or past the restart limit since the
last recovery of the agent, whatever happens to the others; the total is the
sum of the histories, and calls about one agent touch no other. -/
theorem escalation_exact (toLowercase : String → String) :
    (∀ served agentId reason now,
        (served ++ [Call.onCrash agentId reason now]).countP Call.isCrash <
            2 ^ 32 →
          (((afterRun toLowercase served).onCrash toLowercase agentId reason
                now).1 = .quarantine ↔
            RootCause.classify toLowercase reason = .sandboxViolation ∨
              maxRestarts < crashesSinceRecovery agentId
                (served ++ [.onCrash agentId reason now]))) ∧
      (∀ agentId left right,
        left.filter (Call.isAbout agentId) =
            right.filter (Call.isAbout agentId) →
          answersTo (serve toLowercase) (Call.isAbout agentId) new left =
            answersTo (serve toLowercase) (Call.isAbout agentId) new
              right) ∧
      (∀ served, served.countP Call.isCrash < 2 ^ 32 →
        (afterRun toLowercase served).totalCrashes =
          HashMap.sumOf List.length
            (afterRun toLowercase served).crashHistory) ∧
      ∀ manager call agentId, agentId ≠ call.agentId →
        (serve toLowercase manager call).2.crashHistory.lookup agentId =
            manager.crashHistory.lookup agentId ∧
          (serve toLowercase manager call).2.restartCounts.lookup agentId =
            manager.restartCounts.lookup agentId := by
  refine ⟨?_, ?_, ?_, ?_⟩
  · intro served agentId reason now few
    exact onCrash_quarantine_iff toLowercase few
  · intro agentId left right same
    exact answers_independent toLowercase agentId same
  · intro served few
    have faithful := run_faithful toLowercase served
    rw [faithful.totalCrashes, faithful.recorded]
    exact Nat.mod_eq_of_lt (Nat.lt_trans few (by decide))
  · intro manager call agentId other
    have same := serve_tracked_other toLowercase manager other
    exact ⟨congrArg Tracked.history same, congrArg Tracked.restarts same⟩

end SelfHealingManager

end Ughi.Agents
