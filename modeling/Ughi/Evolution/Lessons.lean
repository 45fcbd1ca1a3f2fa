import Ughi.Lib.Binary64
import Ughi.Lib.Text

/-!
# Lessons and their failure rate

What tasks have taught.  A rate is a double, that is, a rational number that is
rounded after each operation.

A finished task is reflected on in four texts, which quote the goal and the
error up to a number of bytes; `none` is the panic of a slice that would cut a
character.
-/

namespace Ughi.Evolution

open Ughi.Lib
open Ughi.Lib.Binary64

/-- A lesson learned from a task (success or failure). -/
structure Lesson where
  id : Nat
  agentId : String
  goal : String
  domain : String
  succeeded : Bool
  whatHappened : String
  rootCause : String
  improvement : String
  rule : String
  timestampMs : UInt64
  timesApplied : UInt64
deriving DecidableEq, Repr

/-- Lesson store. -/
structure LessonStore where
  lessons : List Lesson
  nextId : Nat
deriving DecidableEq, Repr

def LessonStore.new : LessonStore :=
  { lessons := []
    nextId := 1 }

/-- Get failure rate. -/
def LessonStore.failureRate (store : LessonStore) : ℚ :=
  if store.lessons.isEmpty then 0
  else
    let failures := (store.lessons.filter fun l => !l.succeeded).length
    nearest (nearest failures / nearest store.lessons.length)

/-- Record a 4-step reflection from a completed task. -/
def LessonStore.record (store : LessonStore) (agentId goal domain : String)
    (succeeded : Bool) (whatHappened rootCause improvement rule : String)
    (now : UInt64) : LessonStore :=
  { lessons := store.lessons ++
      [{ id := store.nextId
         agentId
         goal
         domain
         succeeded
         whatHappened
         rootCause
         improvement
         rule
         timestampMs := now
         timesApplied := 0 }]
    nextId := store.nextId + 1 }

def truncate (s : String) (max : Nat) : Option String :=
  elide s max

section Reflection

variable (toLowercase : String → String)

def classifyRootCause (err : String) : Option String :=
  let e := toLowercase err
  if contains e "memory" || contains e "oom" then
    some "Memory budget exceeded – reduce working set"
  else if contains e "timeout" then
    some "Operation timed out – break into smaller steps"
  else if contains e "sandbox" || contains e "capability" then
    some "Sandbox violation – need additional capabilities"
  else if contains e "not found" || contains e "missing" then
    some "Missing resource – ensure prerequisites exist"
  else (truncate err 60).map ("Unclassified error: " ++ ·)

def suggestImprovement (err : String) : String :=
  let e := toLowercase err
  if contains e "memory" then "Use streaming, reduce batch size"
  else if contains e "timeout" then
    "Add checkpoints, increase timeout, parallelize"
  else if contains e "sandbox" then
    "Request explicit capability tokens before execution"
  else "Add error handling, retry with backoff"

/-- Auto-reflect on a task result (generates 4-step reflection). -/
def LessonStore.autoReflect (store : LessonStore)
    (agentId goal domain : String) (succeeded : Bool)
    (errorMsg : Option String) (now : UInt64) : Option LessonStore :=
  if succeeded then
    (truncate goal 50).map fun goalText =>
      store.record agentId goal domain succeeded
        ("Task '" ++ goalText ++ "' completed successfully")
        "Agent followed correct workflow with expert persona"
        "Reinforce this pattern for similar goals"
        ("For '" ++ domain ++ "' goals, current approach works well") now
  else
    let err := errorMsg.getD "unknown error"
    (truncate goal 40).bind fun goalText =>
      (classifyRootCause toLowercase err).bind fun why =>
        (truncate err 30).map fun errText =>
          store.record agentId goal domain succeeded
            ("Task '" ++ goalText ++ "' failed: " ++ err)
            why
            (suggestImprovement toLowercase err)
            ("Avoid: " ++ errText ++ " | Fix: " ++
              suggestImprovement toLowercase err) now

/-- Whether the error names a cause. -/
def isClassified (err : String) : Bool :=
  ["memory", "oom", "timeout", "sandbox", "capability", "not found",
    "missing"].any fun word => contains (toLowercase err) word

variable {toLowercase}

theorem classifyRootCause_cases (err : String) :
    (isClassified toLowercase err = true ∧
        ∃ cause ∈ ["Memory budget exceeded – reduce working set",
            "Operation timed out – break into smaller steps",
            "Sandbox violation – need additional capabilities",
            "Missing resource – ensure prerequisites exist"],
          classifyRootCause toLowercase err = some cause) ∨
      (isClassified toLowercase err = false ∧
        classifyRootCause toLowercase err =
          (truncate err 60).map ("Unclassified error: " ++ ·)) := by
  let names := fun word => contains (toLowercase err) word
  have grouped : isClassified toLowercase err =
      ((names "memory" || names "oom") || (names "timeout" ||
        ((names "sandbox" || names "capability") ||
          (names "not found" || names "missing")))) := by
    simp [isClassified, names, Bool.or_assoc]
  rw [grouped, classifyRootCause]
  split
  next named =>
    left
    refine ⟨?_, _, by simp, rfl⟩
    simp only [names, named, Bool.true_or]
  next unnamed =>
    rw [Bool.not_eq_true] at unnamed
    simp only [names, unnamed, Bool.false_or]
    split
    next named =>
      left
      refine ⟨?_, _, by simp, rfl⟩
      simp only [named, Bool.true_or]
    next unnamed =>
      rw [Bool.not_eq_true] at unnamed
      simp only [unnamed, Bool.false_or]
      split
      next named =>
        left
        refine ⟨?_, _, by simp, rfl⟩
        simp only [named, Bool.true_or]
      next unnamed =>
        rw [Bool.not_eq_true] at unnamed
        simp only [unnamed, Bool.false_or]
        split
        next named =>
          left
          exact ⟨named, _, by simp, rfl⟩
        next unnamed =>
          right
          exact ⟨(Bool.not_eq_true _).mp unnamed, rfl⟩

theorem classifyRootCause_isSome_iff {err : String} :
    (classifyRootCause toLowercase err).isSome = true ↔
      (isClassified toLowercase err = false → Elidable err 60) := by
  rcases @classifyRootCause_cases toLowercase err with
    ⟨classified, cause, _, found⟩ | ⟨unclassified, found⟩
  · rw [found, classified]
    simp
  · rw [found, unclassified, Option.isSome_map, truncate, elide_isSome_iff]
    simp

theorem autoReflect_isSome_iff {store : LessonStore}
    {agentId goal domain : String} {succeeded : Bool}
    {errorMsg : Option String} {now : UInt64} :
    (store.autoReflect toLowercase agentId goal domain succeeded errorMsg
        now).isSome = true ↔
      if succeeded then Elidable goal 50
      else
        let err := errorMsg.getD "unknown error"
        Elidable goal 40 ∧ Elidable err 30 ∧
          (isClassified toLowercase err = false → Elidable err 60) := by
  rw [LessonStore.autoReflect]
  cases succeeded with
  | true =>
      rw [if_pos rfl, if_pos rfl, Option.isSome_map, truncate,
        elide_isSome_iff]
  | false =>
      rw [if_neg Bool.false_ne_true, if_neg Bool.false_ne_true]
      dsimp only
      rw [← classifyRootCause_isSome_iff, ← elide_isSome_iff,
        ← elide_isSome_iff, truncate, truncate]
      cases elide goal 40 with
      | none => simp
      | some goalText =>
          cases classifyRootCause toLowercase
              (errorMsg.getD "unknown error") with
          | none => simp
          | some why => simp

end Reflection

end Ughi.Evolution
