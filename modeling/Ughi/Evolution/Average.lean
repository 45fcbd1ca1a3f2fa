import Mathlib.Logic.Function.Basic
import Ughi.Evolution.PatternStore
import Ughi.Lib.RunningMean

/-!
# The average execution time of a pattern

Every pattern is watched together with the execution times recorded into it.
Its average is the running mean of these times with truncating division.  So
it is their mean, rounded down once, throughout exactly the runs in which no
execution makes the remainder of their sum by their number fall.
-/

namespace Ughi.Evolution

open Ughi.Lib

namespace UsagePattern

/-- One more execution fits: the counts and their sum, and the numerator of
the new average. -/
def Fits (pattern : UsagePattern) (executionMs : UInt64) : Prop :=
  pattern.runs + 1 < 2 ^ 64 ∧
    pattern.avgExecutionMs.toNat * pattern.runs + executionMs.toNat < 2 ^ 64

theorem avg_of_update {pattern updated : UsagePattern} {succeeded : Bool}
    {executionMs now : UInt64}
    (done : pattern.update succeeded executionMs now = some updated) :
    updated.avgExecutionMs =
      (pattern.avgExecutionMs *
          (updated.successCount + updated.failureCount - 1) + executionMs) /
        (updated.successCount + updated.failureCount) := by
  cases succeeded with
  | true =>
      simp only [update, if_pos] at done
      split at done
      next => cases done
      next =>
        cases done
        rfl
  | false =>
      simp only [update, Bool.false_eq_true, if_false] at done
      split at done
      next => cases done
      next =>
        cases done
        rfl

/-- Without overflow the average is updated as a running mean. -/
theorem exists_update {pattern : UsagePattern} {executionMs : UInt64}
    (fits : pattern.Fits executionMs) (succeeded : Bool) (now : UInt64) :
    ∃ updated, pattern.update succeeded executionMs now = some updated ∧
      updated.identity = pattern.identity ∧
      updated.runs = pattern.runs + 1 ∧
      updated.runs < 2 ^ 64 ∧
      updated.avgExecutionMs.toNat =
        nextMean pattern.avgExecutionMs.toNat pattern.runs
          executionMs.toNat := by
  obtain ⟨room, numerator⟩ := fits
  have bounded : pattern.runs < 2 ^ 64 := Nat.lt_of_succ_lt room
  rcases update_cases bounded succeeded executionMs now with
    ⟨full, _⟩ | ⟨updated, done, same, counted, fitting⟩
  · omega
  · refine ⟨updated, done, same, counted, fitting, ?_⟩
    have total : (updated.successCount + updated.failureCount).toNat =
        pattern.runs + 1 := by
      rw [UInt64.toNat_add, ← counted]
      exact Nat.mod_eq_of_lt fitting
    have positive : 1 ≤ updated.successCount + updated.failureCount := by
      rw [UInt64.le_iff_toNat_le, total]
      exact Nat.succ_pos pattern.runs
    have earlier :
        (updated.successCount + updated.failureCount - 1).toNat =
          pattern.runs := by
      rw [UInt64.toNat_sub_of_le _ _ positive, total]
      rfl
    have product : (pattern.avgExecutionMs *
        (updated.successCount + updated.failureCount - 1)).toNat =
          pattern.avgExecutionMs.toNat * pattern.runs := by
      rw [UInt64.toNat_mul, earlier]
      exact Nat.mod_eq_of_lt (Nat.lt_of_le_of_lt (Nat.le_add_right _ _)
        numerator)
    rw [avg_of_update done, UInt64.toNat_div, UInt64.toNat_add, product,
      total, Nat.mod_eq_of_lt numerator, nextMean]

end UsagePattern

namespace PatternTracker

/-- The number of the pattern a call is recorded into. -/
def target (toLowercase : String → String) (tracker : PatternTracker)
    (call : Call) : Nat :=
  match tracker.findMatching (extractKeywords toLowercase call.goal)
      call.expertPersona with
  | some (_, pattern) => pattern.id
  | none => tracker.nextId

/-- A tracker, and the execution times recorded into each of its patterns. -/
structure Watched where
  tracker : PatternTracker
  executions : Nat → List UInt64

namespace Watched

def new : Watched :=
  { tracker := PatternTracker.new
    executions := fun _ => [] }

def serve (toLowercase : String → String) (watched : Watched) (call : Call) :
    Option Watched :=
  (watched.tracker.serve toLowercase call).map fun tracker =>
    let id := watched.tracker.target toLowercase call
    { tracker
      executions := Function.update watched.executions id
        (watched.executions id ++ [call.executionMs]) }

/-- One call on a tracker that has not panicked. -/
def step (toLowercase : String → String) (state : Option Watched)
    (call : Call) : Option Watched :=
  state.bind (serve toLowercase · call)

/-- The number of executions of a pattern. -/
def count (watched : Watched) (id : Nat) : Nat :=
  (watched.executions id).length

/-- The sum of the execution times of a pattern. -/
def total (watched : Watched) (id : Nat) : Nat :=
  ((watched.executions id).map UInt64.toNat).sum

/-- Every average is the mean of the executions, rounded down. -/
def Averaged (watched : Watched) : Prop :=
  ∀ pattern ∈ watched.tracker.patterns,
    pattern.avgExecutionMs.toNat =
      watched.total pattern.id / watched.count pattern.id

/-- No overflow where the call is counted for an earlier pattern. -/
def Fits (toLowercase : String → String) (watched : Watched) (call : Call) :
    Prop :=
  ∀ index pattern,
    watched.tracker.findMatching (extractKeywords toLowercase call.goal)
        call.expertPersona = some (index, pattern) →
      pattern.Fits call.executionMs

/-- The call does not make the remainder of the sum by the number of executions
of its pattern fall. -/
def RemainderKept (toLowercase : String → String) (watched : Watched)
    (call : Call) : Prop :=
  let id := watched.tracker.target toLowercase call
  watched.total id % watched.count id ≤
    (watched.total id + call.executionMs.toNat) % (watched.count id + 1)

/-- The executions follow the patterns of a consistent tracker. -/
structure Followed (watched : Watched) : Prop where
  consistent : ∃ calls, watched.tracker.Consistent calls
  counted : ∀ pattern ∈ watched.tracker.patterns,
    watched.count pattern.id = pattern.runs
  unused : ∀ id, watched.tracker.nextId ≤ id → watched.executions id = []

theorem map_tracker_run (toLowercase : String → String) (calls : List Call) :
    (runCalls (step toLowercase) (some new) calls).map tracker =
      recorded toLowercase calls := by
  have follows : ∀ (state : Option Watched) (call : Call),
      (step toLowercase state call).map tracker =
        (state.map tracker).bind (PatternTracker.serve toLowercase · call) := by
    intro state call
    cases state with
    | none => rfl
    | some watched =>
        change ((watched.tracker.serve toLowercase call).map _).map tracker =
          watched.tracker.serve toLowercase call
        rw [Option.map_map]
        exact Option.map_id'
  exact @view_runCalls _ _ _ _ (step toLowercase) (Option.map tracker)
    follows (some new) calls

/-- What a call does: one pattern, updated or new, counts one more execution,
and the others stay. -/
structure Recorded (watched : Watched) (executionMs : UInt64)
    (next : Watched) (changed : UsagePattern) : Prop where
  executions : next.executions =
    Function.update watched.executions changed.id
      (watched.executions changed.id ++ [executionMs])
  patterns : ∀ property : UsagePattern → Prop,
    (∀ pattern ∈ next.tracker.patterns, property pattern) ↔
      property changed ∧ ∀ other ∈ watched.tracker.patterns,
        other.id ≠ changed.id → property other
  runs : changed.runs = watched.count changed.id + 1
  mean :
    (watched.executions changed.id = [] ∧
        changed.avgExecutionMs = executionMs) ∨
      ∃ pattern ∈ watched.tracker.patterns, pattern.id = changed.id ∧
        changed.avgExecutionMs.toNat =
          nextMean pattern.avgExecutionMs.toNat (watched.count changed.id)
            executionMs.toNat
  nextId : watched.tracker.nextId ≤ next.tracker.nextId
  below : changed.id < next.tracker.nextId

section Recorded

variable {watched next : Watched} {executionMs : UInt64}
  {changed : UsagePattern}

theorem Recorded.count_changed
    (recorded : watched.Recorded executionMs next changed) :
    next.count changed.id = watched.count changed.id + 1 := by
  rw [count, recorded.executions, Function.update_self, List.length_append,
    List.length_singleton, count]

theorem Recorded.total_changed
    (recorded : watched.Recorded executionMs next changed) :
    next.total changed.id =
      watched.total changed.id + executionMs.toNat := by
  simp [total, recorded.executions]

theorem Recorded.executions_other
    (recorded : watched.Recorded executionMs next changed) {id : Nat}
    (different : id ≠ changed.id) :
    next.executions id = watched.executions id := by
  rw [recorded.executions, Function.update_of_ne different]

theorem Recorded.mean_of_averaged
    (recorded : watched.Recorded executionMs next changed)
    (averaged : watched.Averaged) :
    changed.avgExecutionMs.toNat =
      nextMean (watched.total changed.id / watched.count changed.id)
        (watched.count changed.id) executionMs.toNat := by
  rcases recorded.mean with
    ⟨noExecutions, first⟩ | ⟨pattern, member, sameId, mean⟩
  · rw [first, count, noExecutions, List.length_nil, nextMean, Nat.mul_zero,
      Nat.zero_add, Nat.div_one]
  · rw [mean, averaged pattern member, sameId]

/-- The averages stay means exactly when the remainder does not fall. -/
theorem Recorded.averaged_iff
    (recorded : watched.Recorded executionMs next changed)
    (averaged : watched.Averaged) :
    next.Averaged ↔
      watched.total changed.id % watched.count changed.id ≤
        (watched.total changed.id + executionMs.toNat) %
          (watched.count changed.id + 1) := by
  rw [← nextMean_eq_iff, ← recorded.mean_of_averaged averaged,
    ← recorded.count_changed, ← recorded.total_changed, Averaged,
    recorded.patterns]
  constructor
  · intro both
    exact both.1
  · intro kept
    refine ⟨kept, ?_⟩
    intro other member different
    rw [total, count, recorded.executions_other different]
    exact averaged other member

end Recorded

theorem Followed.recorded_update {watched next : Watched}
    (followed : watched.Followed) {executionMs : UInt64} {index : Nat}
    {pattern updated : UsagePattern}
    (placed : watched.tracker.patterns[index]? = some pattern)
    (same : updated.identity = pattern.identity)
    (counted : updated.runs = pattern.runs + 1)
    (mean : updated.avgExecutionMs.toNat =
      nextMean pattern.avgExecutionMs.toNat pattern.runs executionMs.toNat)
    (patterns : next.tracker.patterns =
      watched.tracker.patterns.set index updated)
    (nextId : next.tracker.nextId = watched.tracker.nextId)
    (executions : next.executions =
      Function.update watched.executions pattern.id
        (watched.executions pattern.id ++ [executionMs])) :
    watched.Recorded executionMs next updated := by
  obtain ⟨calls, consistent⟩ := followed.consistent
  have member := List.mem_of_getElem? placed
  have sameId : updated.id = pattern.id := congrArg Prod.fst same
  constructor
  case executions => rw [executions, sameId]
  case patterns =>
    intro property
    rw [patterns, sameId]
    exact forall_mem_set_iff consistent.distinct placed updated
  case runs => rw [sameId, counted, followed.counted pattern member]
  case mean =>
    refine Or.inr ⟨pattern, member, sameId.symm, ?_⟩
    rw [sameId, mean, followed.counted pattern member]
  case nextId => exact Nat.le_of_eq nextId.symm
  case below =>
    rw [sameId, nextId]
    exact consistent.below pattern member

theorem Followed.recorded_add {watched next : Watched}
    (followed : watched.Followed) {executionMs : UInt64}
    {added : UsagePattern} (isNext : added.id = watched.tracker.nextId)
    (one : added.runs = 1) (first : added.avgExecutionMs = executionMs)
    (patterns : next.tracker.patterns = watched.tracker.patterns ++ [added])
    (nextId : next.tracker.nextId = watched.tracker.nextId + 1)
    (executions : next.executions =
      Function.update watched.executions watched.tracker.nextId
        (watched.executions watched.tracker.nextId ++ [executionMs])) :
    watched.Recorded executionMs next added := by
  obtain ⟨calls, consistent⟩ := followed.consistent
  have fresh := followed.unused added.id (Nat.le_of_eq isNext.symm)
  constructor
  case executions => rw [executions, isNext]
  case patterns =>
    intro property
    rw [patterns, List.forall_mem_append, List.forall_mem_singleton,
      and_comm, isNext]
    have others : ∀ other ∈ watched.tracker.patterns,
        other.id ≠ watched.tracker.nextId := by
      intro other member
      exact Nat.ne_of_lt (consistent.below other member)
    refine and_congr_right fun _ => forall₂_congr ?_
    intro other member
    constructor
    · intro holds _
      exact holds
    · intro holds
      exact holds (others other member)
  case runs => rw [one, count, fresh, List.length_nil]
  case mean => exact Or.inl ⟨fresh, first⟩
  case nextId =>
    rw [nextId]
    exact Nat.le_succ _
  case below =>
    rw [isNext, nextId]
    exact Nat.lt_succ_self _

theorem Followed.exists_recorded {toLowercase : String → String}
    {watched : Watched} (followed : watched.Followed) {call : Call}
    (fits : watched.Fits toLowercase call) :
    ∃ next changed, watched.serve toLowercase call = some next ∧
      changed.id = watched.tracker.target toLowercase call ∧
      watched.Recorded call.executionMs next changed := by
  cases found : watched.tracker.findMatching
      (extractKeywords toLowercase call.goal) call.expertPersona with
  | some place =>
      obtain ⟨index, pattern⟩ := place
      obtain ⟨updated, done, same, counted, _, mean⟩ :=
        UsagePattern.exists_update (fits index pattern found) call.succeeded
          call.now
      have isTarget : watched.tracker.target toLowercase call =
          pattern.id := by
        rw [target, found]
      refine ⟨_, updated, by
        simp only [serve, PatternTracker.serve, record, found, done, isTarget,
          Option.map_some]
        rfl, ?_, ?_⟩
      · rw [isTarget]
        exact congrArg Prod.fst same
      · exact followed.recorded_update (mem_of_findMatching found) same
          counted mean rfl rfl rfl
  | none =>
      have isTarget : watched.tracker.target toLowercase call =
          watched.tracker.nextId := by
        rw [target, found]
      let added : UsagePattern :=
        { id := watched.tracker.nextId
          goalKeywords := extractKeywords toLowercase call.goal
          expertPersona := call.expertPersona
          skillsUsed := call.skillsUsed
          successCount := if call.succeeded then 1 else 0
          failureCount := if call.succeeded then 0 else 1
          avgExecutionMs := call.executionMs
          lastUsedMs := call.now }
      have one : added.runs = 1 := by
        simp only [added, UsagePattern.runs]
        cases call.succeeded with
        | true => rfl
        | false => rfl
      refine ⟨_, added, by
        rw [serve, PatternTracker.serve, record, found, isTarget]
        rfl, isTarget.symm, ?_⟩
      exact followed.recorded_add rfl one rfl rfl rfl rfl

theorem Followed.next {toLowercase : String → String}
    {watched next : Watched} (followed : watched.Followed) {call : Call}
    (served : watched.serve toLowercase call = some next)
    {changed : UsagePattern}
    (recorded : watched.Recorded call.executionMs next changed) :
    next.Followed := by
  constructor
  case consistent =>
    obtain ⟨calls, consistent⟩ := followed.consistent
    obtain ⟨tracker, stored, rfl⟩ := Option.map_eq_some_iff.mp served
    rcases consistent.record call.goal call.expertPersona call.skillsUsed
      call.succeeded call.executionMs call.now with
      ⟨_, failed⟩ | ⟨later, done, kept⟩
    · cases failed.symm.trans stored
    · cases done.symm.trans stored
      exact ⟨calls + 1, kept⟩
  case counted =>
    rw [recorded.patterns]
    refine ⟨recorded.count_changed.trans recorded.runs.symm, ?_⟩
    intro other member different
    rw [count, recorded.executions_other different]
    exact followed.counted other member
  case unused =>
    intro id above
    have later := Nat.lt_of_lt_of_le recorded.below above
    rw [recorded.executions_other (Nat.ne_of_gt later)]
    exact followed.unused id (Nat.le_trans recorded.nextId above)

/-- Every average is short of the mean by what the divisions drop at most. -/
def Drifting (watched : Watched) : Prop :=
  ∀ pattern ∈ watched.tracker.patterns,
    Drifted pattern.avgExecutionMs.toNat (watched.count pattern.id)
      (watched.total pattern.id)

theorem Recorded.drifting {watched next : Watched} {executionMs : UInt64}
    {changed : UsagePattern}
    (recorded : watched.Recorded executionMs next changed)
    (drifting : watched.Drifting) : next.Drifting := by
  rw [Drifting, recorded.patterns]
  constructor
  · rw [recorded.count_changed, recorded.total_changed]
    rcases recorded.mean with
      ⟨noExecutions, first⟩ | ⟨pattern, member, sameId, mean⟩
    · rw [first, count, total, noExecutions, List.length_nil, List.map_nil,
        List.sum_nil, Nat.zero_add, Nat.zero_add]
      exact drifted_one executionMs.toNat
    · rw [mean, ← sameId]
      exact (drifting pattern member).next executionMs.toNat
  · intro other member different
    rw [total, count, recorded.executions_other different]
    exact drifting other member

/-- The tracker has not panicked, and has the property. -/
def Holds (property : Watched → Prop) (state : Option Watched) : Prop :=
  ∃ watched, state = some watched ∧ property watched

/-- No call of a run overflows. -/
def RunFits (toLowercase : String → String) (calls : List Call) : Prop :=
  EachCall (step toLowercase)
    (fun state call =>
      ∀ watched, state = some watched → watched.Fits toLowercase call)
    (some new) calls

theorem new_followed : new.Followed where
  consistent := ⟨0, new_consistent⟩
  counted := by
    intro pattern member
    cases member
  unused := by
    intro id _
    rfl

theorem Followed.holds_step {toLowercase : String → String}
    {state : Option Watched} {call : Call}
    (fits : ∀ watched, state = some watched →
      watched.Fits toLowercase call)
    (followed : Holds Followed state) :
    Holds Followed (step toLowercase state call) := by
  obtain ⟨watched, rfl, followed⟩ := followed
  obtain ⟨next, changed, served, _, recorded⟩ :=
    followed.exists_recorded (fits watched rfl)
  exact ⟨next, served, followed.next served recorded⟩

theorem new_averaged : new.Averaged := by
  intro pattern member
  cases member

theorem new_drifting : new.Drifting := by
  intro pattern member
  cases member

/-- After a run without overflow no average is above the mean of its
executions, and none is further below it than half the number of these. -/
theorem average_near_mean {toLowercase : String → String}
    {calls : List Call} (fits : RunFits toLowercase calls) :
    ∃ watched, runCalls (step toLowercase) (some new) calls = some watched ∧
      ∀ pattern ∈ watched.tracker.patterns,
        let mean := watched.total pattern.id / watched.count pattern.id
        pattern.avgExecutionMs.toNat ≤ mean ∧
          2 * mean ≤ 2 * pattern.avgExecutionMs.toNat +
            (watched.count pattern.id - 1) := by
  have run : Holds (fun watched => watched.Followed ∧ watched.Drifting)
      (runCalls (step toLowercase) (some new) calls) := by
    refine invariant_of_eachCall ?_ ⟨new, rfl, new_followed, new_drifting⟩
      fits
    rintro state call ⟨watched, rfl, followed, drifting⟩ fits
    obtain ⟨next, changed, served, _, recorded⟩ :=
      followed.exists_recorded (fits watched rfl)
    exact ⟨next, served, followed.next served recorded,
      recorded.drifting drifting⟩
  obtain ⟨watched, reached, _, drifting⟩ := run
  refine ⟨watched, reached, ?_⟩
  intro pattern member
  exact (drifting pattern member).div_le

/-- Throughout a run without overflow every average is the mean of the
executions recorded into its pattern, rounded down, exactly when no call makes
the remainder of their sum by their number fall. -/
theorem averaged_throughout_iff {toLowercase : String → String}
    {calls : List Call} (fits : RunFits toLowercase calls) :
    Throughout (step toLowercase) (Holds Averaged) (some new) calls ↔
      EachCall (step toLowercase)
        (fun state call =>
          Holds (fun watched => watched.RemainderKept toLowercase call) state)
        (some new) calls := by
  refine throughout_iff_eachCall_within
    (fun state call => Followed.holds_step) ?_ fits
    ⟨new, rfl, new_followed⟩ ⟨new, rfl, new_averaged⟩
  rintro state call fits ⟨watched, rfl, followed⟩ ⟨_, same, averaged⟩
  cases same
  obtain ⟨next, changed, served, isTarget, recorded⟩ :=
    followed.exists_recorded (fits watched rfl)
  have stepped : step toLowercase (some watched) call = some next := served
  have exact_here := recorded.averaged_iff averaged
  rw [isTarget] at exact_here
  rw [stepped]
  constructor
  · rintro ⟨_, same, nextAveraged⟩
    cases same
    exact ⟨watched, rfl, exact_here.mp nextAveraged⟩
  · rintro ⟨_, same, kept⟩
    cases same
    exact ⟨next, rfl, exact_here.mpr kept⟩

/-- A successful execution of one goal that took so long. -/
def research (executionMs : UInt64) : Call :=
  { goal := "research"
    expertPersona := "researcher"
    skillsUsed := []
    succeeded := true
    executionMs
    now := 0 }

theorem fits_of_found {watched : Watched} {call : Call} {index : Nat}
    {pattern : UsagePattern}
    (found : watched.tracker.findMatching (extractKeywords id call.goal)
      call.expertPersona = some (index, pattern))
    (fits : pattern.Fits call.executionMs) :
    ∀ other, some watched = some other → other.Fits id call := by
  rintro _ ⟨rfl⟩ place same otherFound
  cases found.symm.trans otherFound
  exact fits

theorem fits_new (call : Call) :
    ∀ other, some new = some other → other.Fits id call := by
  rintro _ ⟨rfl⟩ index pattern found
  cases found

theorem averaged_throughout_of_even :
    Throughout (step id) (Holds Averaged) (some new)
      ([2, 4, 6].map research) := by
  have fits : RunFits id ([2, 4, 6].map research) :=
    ⟨fits_new _, fits_of_found rfl ⟨by decide, by decide⟩,
      fits_of_found rfl ⟨by decide, by decide⟩, trivial⟩
  apply (averaged_throughout_iff fits).mpr
  refine ⟨⟨_, rfl, ?_⟩, ⟨_, rfl, ?_⟩, ⟨_, rfl, ?_⟩, trivial⟩
  · exact Nat.le_refl 0
  · exact Nat.le_refl 0
  · exact Nat.le_refl 0

/-- Executions of 1, 2 and 3 milliseconds have the mean 2 and the average 1. -/
theorem average_of_research :
    RunFits id ([1, 2, 3].map research) ∧
      ¬ Holds Averaged
        (runCalls (step id) (some new) ([1, 2, 3].map research)) := by
  constructor
  · exact ⟨fits_new _, fits_of_found rfl ⟨by decide, by decide⟩,
      fits_of_found rfl ⟨by decide, by decide⟩, trivial⟩
  · rintro ⟨watched, reached, averaged⟩
    cases reached
    have wrong := averaged _ (List.mem_singleton_self _)
    revert wrong
    decide

end Watched

end PatternTracker

end Ughi.Evolution
