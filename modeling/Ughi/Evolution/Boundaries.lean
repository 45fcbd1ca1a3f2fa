import Ughi.Evolution.Engine
import Ughi.Evolution.PatternStore

/-!
# Which texts the evolution engine can quote

A finished task is learned from when its quotations cut no character, and a
cycle runs when no cause of a failure is cut.  The cause of a failure quotes
the error behind a fixed text, so the cycle cuts the errors themselves.
-/

namespace Ughi.Evolution

open Ughi.Lib

theorem UsagePattern.update_isSome_iff {pattern : UsagePattern}
    {succeeded : Bool} {executionMs now : UInt64} :
    (pattern.update succeeded executionMs now).isSome = true ↔
      pattern.successCount + pattern.failureCount + 1 ≠ 0 := by
  cases succeeded with
  | true =>
      have total : pattern.successCount + 1 + pattern.failureCount =
          pattern.successCount + pattern.failureCount + 1 := by
        rw [UInt64.add_assoc, UInt64.add_comm 1, ← UInt64.add_assoc]
      rw [← total]
      by_cases zero : pattern.successCount + 1 + pattern.failureCount = 0
      · have failed : pattern.update true executionMs now = none :=
          if_pos zero
        simp [failed, zero]
      · have counted : pattern.update true executionMs now = some _ :=
          if_neg zero
        simp [counted, zero]
  | false =>
      rw [UInt64.add_assoc]
      by_cases zero : pattern.successCount + (pattern.failureCount + 1) = 0
      · have failed : pattern.update false executionMs now = none :=
          if_pos zero
        simp [failed, zero]
      · have counted : pattern.update false executionMs now = some _ :=
          if_neg zero
        simp [counted, zero]

/-- The pattern a goal counts for can be counted once more. -/
def PatternTracker.HasRoom (toLowercase : String → String)
    (tracker : PatternTracker) (goal expert : String) : Prop :=
  ∀ index pattern,
    tracker.findMatching (extractKeywords toLowercase goal) expert =
        some (index, pattern) →
      pattern.successCount + pattern.failureCount + 1 ≠ 0

theorem PatternTracker.record_isSome_iff {toLowercase : String → String}
    {tracker : PatternTracker} {goal expertPersona : String}
    {skillsUsed : List String} {succeeded : Bool}
    {executionMs now : UInt64} :
    (tracker.record toLowercase goal expertPersona skillsUsed succeeded
        executionMs now).isSome = true ↔
      tracker.HasRoom toLowercase goal expertPersona := by
  rw [record, HasRoom]
  cases found : tracker.findMatching (extractKeywords toLowercase goal)
      expertPersona with
  | none => simp
  | some matching =>
      obtain ⟨index, pattern⟩ := matching
      dsimp only
      rw [Option.isSome_map, UsagePattern.update_isSome_iff]
      constructor
      · intro room index other same
        cases same
        exact room
      · intro room
        exact room index pattern rfl

theorem causeKey_isSome_iff {l : Lesson} :
    (causeKey l).isSome = true ↔ ¬ Straddled l.rootCause 40 := by
  rw [causeKey, isSome_guarded_iff, sliceTo_isSome_iff, not_straddled_iff]

theorem MetaAgent.evolve_isSome_iff {agent : MetaAgent}
    {lessons : LessonStore} {patterns : PatternTracker}
    {order : List String} :
    (agent.evolve lessons patterns order).isSome = true ↔
      ∀ lesson ∈ lessons.lessons, lesson.succeeded = false →
        ¬ Straddled lesson.rootCause 40 := by
  have failing : (agent.evolve lessons patterns order).isSome = true ↔
      ∀ lesson ∈ lessons.lessons.filter fun l => !l.succeeded,
        ¬ Straddled lesson.rootCause 40 := by
    rw [evolve, Option.isSome_map, preventFailures]
    split
    next none =>
      rw [List.isEmpty_iff.mp none]
      simp
    next =>
      rw [Option.isSome_map, analyzeCommonFailures, Option.isSome_map,
        isSome_mapM_iff]
      simp only [causeKey_isSome_iff]
  rw [failing]
  simp [and_imp]

/-- The error a failed task is reported with. -/
def TaskReport.error (task : TaskReport) : String :=
  task.errorMsg.getD "unknown error"

/-- What the reflection on the task quotes is cut between characters. -/
def TaskReport.Quotable (toLowercase : String → String)
    (task : TaskReport) : Prop :=
  if task.succeeded then Elidable task.goal 50
  else
    Elidable task.goal 40 ∧ Elidable task.error 30 ∧
      (isClassified toLowercase task.error = false →
        Elidable task.error 60)

/-- The task failed with an error that is quoted as its cause. -/
def TaskReport.Unclassified (toLowercase : String → String)
    (task : TaskReport) : Prop :=
  task.succeeded = false ∧ isClassified toLowercase task.error = false

/-- The causes of the failures a store has lessons of. -/
def LessonStore.failedCauses (store : LessonStore) : List String :=
  (store.lessons.filter fun l => !l.succeeded).map Lesson.rootCause

theorem classified_causes_clear :
    ∀ cause ∈ ["Memory budget exceeded – reduce working set",
        "Operation timed out – break into smaller steps",
        "Sandbox violation – need additional capabilities",
        "Missing resource – ensure prerequisites exist"],
      ¬ Straddled cause 40 := by
  have sliced : ∀ cause ∈ ["Memory budget exceeded – reduce working set",
      "Operation timed out – break into smaller steps",
      "Sandbox violation – need additional capabilities",
      "Missing resource – ensure prerequisites exist"],
      (sliceTo cause 40).isSome = true := by
    decide +kernel
  intro cause member
  rw [not_straddled_iff, ← sliceTo_isSome_iff]
  intro _
  exact sliced cause member

/-- Only an unclassified error is cut as a cause, at its own twentieth
byte. -/
theorem straddled_classifyRootCause_iff {toLowercase : String → String}
    {err cause : String}
    (classified : classifyRootCause toLowercase err = some cause) :
    Straddled cause 40 ↔
      isClassified toLowercase err = false ∧ Straddled err 20 := by
  rcases @classifyRootCause_cases toLowercase err with
    ⟨known, fixed, member, found⟩ | ⟨unknown, found⟩
  · rw [found] at classified
    cases classified
    simp [known, classified_causes_clear cause member]
  · rw [found] at classified
    obtain ⟨text, elided, rfl⟩ := Option.map_eq_some_iff.mp classified
    have label : "Unclassified error: ".utf8ByteSize = 20 := rfl
    have shifted := @straddled_append_add "Unclassified error: " text 20
    rw [label] at shifted
    rw [shifted, elide_early elided (by decide)]
    simp [unknown]

namespace EvolutionEngine

variable {toLowercase : String → String}

theorem onTaskComplete_isSome_iff {engine : EvolutionEngine}
    {task : TaskReport} {now : UInt64} :
    (engine.onTaskComplete toLowercase task now).isSome = true ↔
      task.Quotable toLowercase ∧
        engine.patterns.HasRoom toLowercase task.goal
          task.expertPersona := by
  have reflected : (engine.lessons.autoReflect toLowercase task.agentId
      task.goal (domainOf task.expertPersona) task.succeeded task.errorMsg
        now).isSome = true ↔ task.Quotable toLowercase :=
    autoReflect_isSome_iff
  have recorded : (engine.patterns.record toLowercase task.goal
      task.expertPersona task.skillsUsed task.succeeded task.executionMs
        now).isSome = true ↔
      engine.patterns.HasRoom toLowercase task.goal task.expertPersona :=
    PatternTracker.record_isSome_iff
  rw [← reflected, ← recorded, onTaskComplete]
  cases engine.lessons.autoReflect toLowercase task.agentId task.goal
      (domainOf task.expertPersona) task.succeeded task.errorMsg now with
  | none => simp
  | some lessons => simp

theorem evolve_isSome_iff {engine : EvolutionEngine}
    {order : List String} :
    (engine.evolve order).isSome = true ↔
      ∀ lesson ∈ engine.lessons.lessons, lesson.succeeded = false →
        ¬ Straddled lesson.rootCause 40 := by
  rw [evolve, Option.isSome_map, MetaAgent.evolve_isSome_iff]

theorem failedCauses_autoReflect {store next : LessonStore}
    {agentId goal domain : String} {succeeded : Bool}
    {errorMsg : Option String} {now : UInt64}
    (reflected : store.autoReflect toLowercase agentId goal domain succeeded
      errorMsg now = some next) :
    next.failedCauses.map some =
      store.failedCauses.map some ++
        if succeeded then []
        else
          [classifyRootCause toLowercase
            (errorMsg.getD "unknown error")] := by
  rw [LessonStore.autoReflect] at reflected
  cases succeeded with
  | true =>
      rw [if_pos rfl] at reflected
      obtain ⟨goalText, _, rfl⟩ := Option.map_eq_some_iff.mp reflected
      simp [LessonStore.failedCauses, LessonStore.record]
  | false =>
      rw [if_neg Bool.false_ne_true] at reflected
      obtain ⟨goalText, _, rest⟩ := Option.bind_eq_some_iff.mp reflected
      obtain ⟨why, classified, last⟩ := Option.bind_eq_some_iff.mp rest
      obtain ⟨errText, _, rfl⟩ := Option.map_eq_some_iff.mp last
      rw [if_neg Bool.false_ne_true, classified]
      simp [LessonStore.failedCauses, LessonStore.record]

/-- The causes of the failures among some tasks. -/
def causesOf (toLowercase : String → String) (tasks : List TaskReport) :
    List (Option String) :=
  (tasks.filter fun task => !task.succeeded).map fun task =>
    classifyRootCause toLowercase task.error

theorem serve_cases {engine next : EvolutionEngine} {call : Call}
    (served : engine.serve toLowercase call = some next) :
    (∃ task now, call = .onTaskComplete task now ∧
        engine.lessons.autoReflect toLowercase task.agentId task.goal
          (domainOf task.expertPersona) task.succeeded task.errorMsg now =
            some next.lessons ∧
        engine.patterns.record toLowercase task.goal task.expertPersona
          task.skillsUsed task.succeeded task.executionMs now =
            some next.patterns) ∨
      ∃ order, call = .evolve order ∧ next.lessons = engine.lessons ∧
        next.patterns = engine.patterns := by
  cases call with
  | evolve order =>
      obtain ⟨⟨proposals, later⟩, evolved, rfl⟩ :=
        Option.map_eq_some_iff.mp served
      obtain ⟨⟨_, metaAgent⟩, _, same⟩ := Option.map_eq_some_iff.mp evolved
      cases same
      exact Or.inr ⟨order, rfl, rfl, rfl⟩
  | onTaskComplete task now =>
      obtain ⟨⟨trigger, later⟩, completed, rfl⟩ :=
        Option.map_eq_some_iff.mp served
      obtain ⟨lessons, reflected, rest⟩ :=
        Option.bind_eq_some_iff.mp completed
      obtain ⟨patterns, recorded, same⟩ := Option.map_eq_some_iff.mp rest
      cases same
      exact Or.inl ⟨task, now, rfl, reflected, recorded⟩

/-- The failures are filed in their order, and every task is counted. -/
structure LearnedFrom (toLowercase : String → String)
    (tasks : List TaskReport) (engine : EvolutionEngine) : Prop where
  causes : engine.lessons.failedCauses.map some =
    causesOf toLowercase tasks
  patterns : engine.patterns.Consistent tasks.length

theorem LearnedFrom.serve {tasks : List TaskReport}
    {engine next : EvolutionEngine} {call : Call}
    (learned : LearnedFrom toLowercase tasks engine)
    (served : engine.serve toLowercase call = some next) :
    LearnedFrom toLowercase (tasks ++ tasksOf [call]) next := by
  rcases serve_cases served with
    ⟨task, now, rfl, reflected, recorded⟩ |
      ⟨order, rfl, sameLessons, samePatterns⟩
  · have added := failedCauses_autoReflect reflected
    rw [learned.causes] at added
    constructor
    case causes =>
      rw [added]
      cases outcome : task.succeeded with
      | true => simp [causesOf, tasksOf, outcome]
      | false => simp [causesOf, tasksOf, outcome, TaskReport.error]
    case patterns =>
      rw [List.length_append]
      rcases @PatternTracker.Consistent.record toLowercase _ _
          learned.patterns task.goal task.expertPersona task.skillsUsed
          task.succeeded task.executionMs now with
        ⟨_, failed⟩ | ⟨patterns, found, consistent⟩
      · rw [failed] at recorded
        cases recorded
      · rw [found] at recorded
        cases recorded
        exact consistent
  · have none : tasksOf [Call.evolve order] = [] := rfl
    rw [none, List.append_nil]
    constructor
    case causes =>
      rw [sameLessons]
      exact learned.causes
    case patterns =>
      rw [samePatterns]
      exact learned.patterns

theorem learnedFrom_after {calls : List Call} {engine : EvolutionEngine}
    (reached : after toLowercase calls = some engine) :
    LearnedFrom toLowercase (tasksOf calls) engine := by
  have invariant := @invariant_of_history _ _
    (fun engine call =>
      Option.bind engine (serve toLowercase · call))
    (fun served state => ∀ engine : EvolutionEngine, state = some engine →
      LearnedFrom toLowercase (tasksOf served) engine)
    (some new) ?_ ?_ calls
  · exact invariant engine reached
  · intro engine start
    cases start
    exact ⟨rfl, PatternTracker.new_consistent⟩
  · intro served state call kept next reachedNext
    obtain ⟨before, rfl, servedCall⟩ :=
      Option.bind_eq_some_iff.mp reachedNext
    have split : tasksOf (served ++ [call]) =
        tasksOf served ++ tasksOf [call] :=
      List.filterMap_append
    rw [split]
    exact (kept before rfl).serve servedCall

/-- After a history of tasks a cycle runs unless an error that it quotes as a
cause would be cut. -/
theorem evolve_after_isSome_iff {calls : List Call}
    {engine : EvolutionEngine}
    (reached : after toLowercase calls = some engine)
    (order : List String) :
    (engine.evolve order).isSome = true ↔
      ∀ task ∈ tasksOf calls, task.Unclassified toLowercase →
        ¬ Straddled task.error 20 := by
  have causes := (learnedFrom_after reached).causes
  rw [evolve_isSome_iff]
  constructor
  · intro clear task member ⟨failed, unclassified⟩ straddled
    have listed : classifyRootCause toLowercase task.error ∈
        causesOf toLowercase (tasksOf calls) :=
      List.mem_map_of_mem (List.mem_filter.mpr ⟨member, by simp [failed]⟩)
    rw [← causes] at listed
    obtain ⟨cause, filed, classified⟩ := List.mem_map.mp listed
    obtain ⟨lesson, kept, rfl⟩ := List.mem_map.mp filed
    obtain ⟨lessonMember, lessonFailed⟩ := List.mem_filter.mp kept
    apply clear lesson lessonMember (by simpa using lessonFailed)
    exact (straddled_classifyRootCause_iff classified.symm).mpr
      ⟨unclassified, straddled⟩
  · intro clear lesson member failed straddled
    have filed : lesson.rootCause ∈ engine.lessons.failedCauses :=
      List.mem_map_of_mem (List.mem_filter.mpr ⟨member, by simp [failed]⟩)
    have listed : some lesson.rootCause ∈
        causesOf toLowercase (tasksOf calls) := by
      rw [← causes]
      exact List.mem_map_of_mem filed
    obtain ⟨task, kept, classified⟩ := List.mem_map.mp listed
    obtain ⟨taskMember, taskFailed⟩ := List.mem_filter.mp kept
    obtain ⟨unclassified, cut⟩ :=
      (straddled_classifyRootCause_iff classified).mp straddled
    exact clear task taskMember ⟨by simpa using taskFailed, unclassified⟩ cut

theorem hasRoom_after {calls : List Call} {engine : EvolutionEngine}
    (reached : after toLowercase calls = some engine)
    (few : calls.length + 1 < 2 ^ 64) (goal expert : String) :
    engine.patterns.HasRoom toLowercase goal expert := by
  have patterns := (learnedFrom_after reached).patterns
  have tasks : (tasksOf calls).length ≤ calls.length :=
    List.length_filterMap_le _ _
  have recorded := @PatternTracker.record_isSome_iff toLowercase
    engine.patterns goal expert [] true 0 0
  rw [← recorded]
  rcases @PatternTracker.Consistent.record toLowercase _ _ patterns goal
      expert [] true 0 0 with ⟨full, _⟩ | ⟨next, done, _⟩
  · omega
  · rw [done]
    rfl

/-- The texts a call cuts after others, the quotations of a task or the causes
of the earlier failures, are not cut within a character. -/
def CallUncut (toLowercase : String → String) (served : List Call) :
    Call → Prop
  | .onTaskComplete task _ => task.Quotable toLowercase
  | .evolve _ =>
      ∀ task ∈ tasksOf served, task.Unclassified toLowercase →
        ¬ Straddled task.error 20

theorem serve_after_isSome_iff {calls : List Call}
    {engine : EvolutionEngine}
    (reached : after toLowercase calls = some engine)
    (few : calls.length + 1 < 2 ^ 64) (call : Call) :
    (engine.serve toLowercase call).isSome = true ↔
      CallUncut toLowercase calls call := by
  cases call with
  | onTaskComplete task now =>
      rw [serve, Option.isSome_map, onTaskComplete_isSome_iff]
      have room := hasRoom_after reached few task.goal task.expertPersona
      simp [room, CallUncut]
  | evolve order =>
      rw [serve, Option.isSome_map]
      exact evolve_after_isSome_iff reached order

theorem after_isSome_iff {calls : List Call}
    (few : calls.length < 2 ^ 64) :
    (after toLowercase calls).isSome = true ↔
      ∀ served call, served ++ [call] <+: calls →
        CallUncut toLowercase served call := by
  induction calls using List.reverseRecOn with
  | nil => simp [after]
  | append_singleton calls call induction =>
      rw [List.length_append, List.length_singleton] at few
      have earlier := induction (by omega)
      have stepped : after toLowercase (calls ++ [call]) =
          (after toLowercase calls).bind (serve toLowercase · call) :=
        runCalls_append _ _ _ _
      constructor
      · intro returned served last isPrefix
        rw [stepped] at returned
        cases reached : after toLowercase calls with
        | none =>
            rw [reached] at returned
            cases returned
        | some engine =>
            rw [reached, Option.bind_some,
              serve_after_isSome_iff reached few] at returned
            rcases List.prefix_concat_iff.mp isPrefix with whole | inside
            · obtain ⟨rfl, same⟩ := List.append_inj' whole rfl
              cases same
              exact returned
            · rw [reached] at earlier
              exact earlier.mp rfl served last inside
      · intro uncut
        have before : ∀ served last, served ++ [last] <+: calls →
            CallUncut toLowercase served last := by
          intro served last inside
          exact uncut served last
            (inside.trans (List.prefix_append calls [call]))
        obtain ⟨engine, reached⟩ :=
          Option.isSome_iff_exists.mp (earlier.mpr before)
        rw [stepped, reached, Option.bind_some,
          serve_after_isSome_iff reached few]
        exact uncut calls call (List.prefix_refl _)

end EvolutionEngine

end Ughi.Evolution
