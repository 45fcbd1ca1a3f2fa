import Ughi.Lib.Run
import Ughi.Lib.Vec

/-!
# Background tasks

The proactive manager keeps a daily briefing, a heartbeat and background tasks.
An idle task is due; it is marked as running when it starts and as completed or
failed when it ends, and no operation marks it as idle again.  So the enabled
tasks stay running or due throughout exactly the runs that end no task.
-/

namespace Ughi.Integrations

open Ughi.Lib

inductive BriefingSection where
  | weather
  | calendar
  | taskSummary
  | newsDigest
  | evolutionReport
  | customQuery (query : String)
deriving DecidableEq, Repr

structure DailyBriefing where
  timeHour : UInt8
  timeMinute : UInt8
  sections : List BriefingSection
  enabled : Bool
deriving DecidableEq, Repr

inductive TaskStatus where
  | idle
  | running
  | completed
  | failed
deriving DecidableEq, Repr

structure BackgroundTask where
  id : UInt64
  name : String
  cronExpr : String
  goal : String
  expertPersona : String
  enabled : Bool
  lastRunMs : UInt64
  runCount : UInt64
  status : TaskStatus
deriving DecidableEq, Repr

/-- Proactive agent manager. -/
structure ProactiveManager where
  briefing : Option DailyBriefing
  tasks : List BackgroundTask
  heartbeatIntervalMs : UInt64
  lastHeartbeatMs : UInt64
  nextId : UInt64

namespace ProactiveManager

def new : ProactiveManager :=
  { briefing := none
    tasks := []
    heartbeatIntervalMs := 60000
    lastHeartbeatMs := 0
    nextId := 1 }

/-- Configure daily briefing. -/
def setBriefing (manager : ProactiveManager) (hour minute : UInt8)
    (sections : List BriefingSection) : ProactiveManager :=
  { manager with
    briefing := some
      { timeHour := hour
        timeMinute := minute
        sections
        enabled := true } }

/-- Add a background task. -/
def addTask (manager : ProactiveManager)
    (name cronExpr goal expert : String) : UInt64 × ProactiveManager :=
  let id := manager.nextId
  (id,
    { manager with
      nextId := manager.nextId + 1
      tasks := manager.tasks ++
        [{ id
           name
           cronExpr
           goal
           expertPersona := expert
           enabled := true
           lastRunMs := 0
           runCount := 0
           status := .idle }] })

/-- Check heartbeat. -/
def checkHeartbeat (manager : ProactiveManager) (now : UInt64) :
    Bool × ProactiveManager :=
  if manager.heartbeatIntervalMs ≤ now - manager.lastHeartbeatMs then
    (true, { manager with lastHeartbeatMs := now })
  else
    (false, manager)

/-- Get tasks due for execution. -/
def dueTasks (manager : ProactiveManager) : List BackgroundTask :=
  manager.tasks.filter fun t => t.enabled && decide (t.status = .idle)

/-- Mark task as running. -/
def startTask (manager : ProactiveManager) (id : UInt64) :
    ProactiveManager :=
  { manager with
    tasks := modifyFirst BackgroundTask.id id
      (fun t => { t with status := .running }) manager.tasks }

/-- Mark task as completed. -/
def completeTask (manager : ProactiveManager) (id : UInt64)
    (succeeded : Bool) (now : UInt64) : ProactiveManager :=
  { manager with
    tasks := modifyFirst BackgroundTask.id id
      (fun t =>
        { t with
          status := if succeeded then .completed else .failed
          runCount := t.runCount + 1
          lastRunMs := now })
      manager.tasks }

/-- One operation on the manager. -/
inductive Call where
  | setBriefing (hour minute : UInt8) (sections : List BriefingSection)
  | addTask (name cronExpr goal expert : String)
  | checkHeartbeat (now : UInt64)
  | startTask (id : UInt64)
  | completeTask (id : UInt64) (succeeded : Bool) (now : UInt64)

def serve (manager : ProactiveManager) : Call → ProactiveManager
  | .setBriefing hour minute sections =>
      manager.setBriefing hour minute sections
  | .addTask name cronExpr goal expert =>
      (manager.addTask name cronExpr goal expert).2
  | .checkHeartbeat now => (manager.checkHeartbeat now).2
  | .startTask id => manager.startTask id
  | .completeTask id succeeded now => manager.completeTask id succeeded now

/-- Every enabled task is running or due. -/
def Schedulable (manager : ProactiveManager) : Prop :=
  ∀ task ∈ manager.tasks, task.enabled = true →
    task.status = .running ∨ task ∈ manager.dueTasks

/-- No operation disables a task. -/
def AllEnabled (manager : ProactiveManager) : Prop :=
  ∀ task ∈ manager.tasks, task.enabled = true

/-- The call does not end a task. -/
def EndsNone (manager : ProactiveManager) : Call → Prop
  | .completeTask id _ _ => ∀ task ∈ manager.tasks, task.id ≠ id
  | _ => True

theorem tasks_checkHeartbeat (manager : ProactiveManager) (now : UInt64) :
    (manager.checkHeartbeat now).2.tasks = manager.tasks := by
  rw [checkHeartbeat]
  split
  · rfl
  · rfl

theorem mem_dueTasks_iff {manager : ProactiveManager}
    {task : BackgroundTask} :
    task ∈ manager.dueTasks ↔
      task ∈ manager.tasks ∧ task.enabled = true ∧ task.status = .idle := by
  simp [dueTasks]

theorem schedulable_iff {manager : ProactiveManager}
    (enabled : manager.AllEnabled) :
    manager.Schedulable ↔
      ∀ task ∈ manager.tasks,
        task.status = .running ∨ task.status = .idle := by
  refine forall₂_congr ?_
  intro task member
  simp [mem_dueTasks_iff, member, enabled task member]

theorem mem_tasks_serve {manager : ProactiveManager} {call : Call}
    {task : BackgroundTask} (member : task ∈ (manager.serve call).tasks) :
    task ∈ manager.tasks ∨
      (task.enabled = true ∧ task.status = .idle) ∨
      (∃ old ∈ manager.tasks, task.enabled = old.enabled) ∧
        (manager.EndsNone call → task.status = .running) := by
  cases call with
  | setBriefing hour minute sections => exact Or.inl member
  | addTask name cronExpr goal expert =>
      rcases List.mem_append.mp member with earlier | last
      · exact Or.inl earlier
      · rw [List.mem_singleton.mp last]
        exact Or.inr (Or.inl ⟨rfl, rfl⟩)
  | checkHeartbeat now =>
      rw [serve, tasks_checkHeartbeat] at member
      exact Or.inl member
  | startTask id =>
      rcases mem_modifyFirst member with unchanged | ⟨old, found, rfl⟩
      · exact Or.inl unchanged
      · exact Or.inr (Or.inr
          ⟨⟨old, mem_of_firstWith found, rfl⟩, fun _ => rfl⟩)
  | completeTask id succeeded now =>
      rcases mem_modifyFirst member with unchanged | ⟨old, found, rfl⟩
      · exact Or.inl unchanged
      · refine Or.inr (Or.inr ⟨⟨old, mem_of_firstWith found, rfl⟩, ?_⟩)
        intro endsNone
        exact absurd (key_of_firstWith found)
          (endsNone old (mem_of_firstWith found))

theorem AllEnabled.serve {manager : ProactiveManager}
    (enabled : manager.AllEnabled) (call : Call) :
    (manager.serve call).AllEnabled := by
  intro task member
  rcases mem_tasks_serve member with
    unchanged | ⟨new, _⟩ | ⟨⟨old, oldMember, same⟩, _⟩
  · exact enabled task unchanged
  · exact new
  · rw [same]
    exact enabled old oldMember

theorem not_schedulable_completeTask {manager : ProactiveManager}
    (enabled : manager.AllEnabled) {id : UInt64} {task : BackgroundTask}
    (member : task ∈ manager.tasks) (same : task.id = id) (succeeded : Bool)
    (now : UInt64) :
    ¬ (manager.completeTask id succeeded now).Schedulable := by
  cases found : firstWith BackgroundTask.id id manager.tasks with
  | none => exact absurd same (firstWith_eq_none_iff.mp found task member)
  | some first =>
      intro schedulable
      have stillEnabled := enabled.serve (.completeTask id succeeded now)
      have live := (schedulable_iff stillEnabled).mp schedulable _
        (mem_modifyFirst_of_firstWith found)
      cases succeeded with
      | true => rcases live with running | idle <;> contradiction
      | false => rcases live with running | idle <;> contradiction

/-- In every run the enabled tasks stay running or due throughout exactly when
no call ends a task. -/
theorem schedulable_throughout_iff (calls : List Call) :
    Throughout serve Schedulable new calls ↔
      EachCall serve EndsNone new calls := by
  refine @throughout_iff_eachCall _ _ serve (fun _ => True) EndsNone
    AllEnabled Schedulable
    (fun _ call _ enabled => AllEnabled.serve enabled call) ?_ _ _
    (fun _ _ => trivial) ?_ ?_
  · intro manager call _ enabled schedulable
    constructor
    · intro later
      cases call with
      | completeTask id succeeded now =>
          intro task member same
          exact not_schedulable_completeTask enabled member same succeeded
            now later
      | _ => trivial
    · intro endsNone
      apply (schedulable_iff (enabled.serve call)).mpr
      intro task member
      rcases mem_tasks_serve member with
        unchanged | ⟨_, idle⟩ | ⟨_, running⟩
      · exact (schedulable_iff enabled).mp schedulable task unchanged
      · exact Or.inr idle
      · exact Or.inl (running endsNone)
  · intro task member
    cases member
  · intro task member
    cases member

/-- A task that was added, started and completed is enabled and neither running
nor due. -/
theorem completed_task_dropped :
    ¬ Throughout serve Schedulable new
      [.addTask "market_research" "0 9 * * *" "Research market trends"
          "researcher",
        .startTask 1, .completeTask 1 true 0] := by
  intro holds
  have final := holds.last
  revert final
  unfold Schedulable
  decide

theorem busy_modifyFirst {tasks : List BackgroundTask} {id other : UInt64}
    {change : BackgroundTask → BackgroundTask}
    (sameId : ∀ task, (change task).id = task.id)
    (notIdle : ∀ task, (change task).status ≠ .idle)
    (busy : ∃ task, firstWith BackgroundTask.id id tasks = some task ∧
      task.status ≠ .idle) :
    ∃ task,
      firstWith BackgroundTask.id id
          (modifyFirst BackgroundTask.id other change tasks) = some task ∧
        task.status ≠ .idle := by
  obtain ⟨task, found, busy⟩ := busy
  rw [firstWith_modifyFirst fun task _ same => (sameId task).trans same]
  split
  next same =>
    rw [← same, found]
    exact ⟨change task, rfl, notIdle task⟩
  next different => exact ⟨task, found, busy⟩

/-- A task that is not idle is never due again. -/
theorem never_due_again {manager : ProactiveManager} {id : UInt64}
    (busy : ∃ task, firstWith BackgroundTask.id id manager.tasks = some task ∧
      task.status ≠ .idle)
    (calls : List Call) :
    ∃ task, firstWith BackgroundTask.id id
        (runCalls serve manager calls).tasks = some task ∧
      task.status ≠ .idle := by
  refine @invariant_of_calls _ _ serve (fun manager => ∃ task,
    firstWith BackgroundTask.id id manager.tasks = some task ∧
      task.status ≠ .idle) ?_ _ busy calls
  intro manager call busy
  cases call with
  | setBriefing hour minute sections => exact busy
  | addTask name cronExpr goal expert =>
      obtain ⟨task, found, notIdle⟩ := busy
      refine ⟨task, ?_, notIdle⟩
      rw [serve, addTask, firstWith_append, found, Option.some_or]
  | checkHeartbeat now =>
      rw [serve, tasks_checkHeartbeat]
      exact busy
  | startTask other =>
      rw [serve, startTask]
      refine busy_modifyFirst ?_ ?_ busy
      · intro task
        rfl
      · intro task idle
        cases idle
  | completeTask other succeeded now =>
      rw [serve, completeTask]
      refine busy_modifyFirst ?_ ?_ busy
      · intro task
        rfl
      · intro task idle
        cases succeeded with
        | true => cases idle
        | false => cases idle

end ProactiveManager

end Ughi.Integrations
