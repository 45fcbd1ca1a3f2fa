import Ughi.Evolution.Patterns
import Ughi.Lib.Run
import Ughi.Lib.Vec

/-!
# The pattern store is consistent

Counting an execution leaves a pattern's number, expert and keywords alone, and
a pattern is only made for keywords that no earlier pattern of its expert has.
The index follows the patterns, and every call is counted once.
-/

namespace Ughi.Evolution

open Ughi.Lib

namespace UsagePattern

/-- The executions counted so far. -/
def runs (pattern : UsagePattern) : Nat :=
  pattern.successCount.toNat + pattern.failureCount.toNat

/-- What an execution does not change. -/
def identity (pattern : UsagePattern) : Nat × String × List String :=
  (pattern.id, pattern.expertPersona, pattern.goalKeywords)

/-- The keywords of patterns of one expert do not overlap. -/
def Apart (earlier later : UsagePattern) : Prop :=
  earlier.expertPersona = later.expertPersona →
    ∀ keyword ∈ later.goalKeywords, keyword ∉ earlier.goalKeywords

theorem isMatch_eq_false_iff {pattern : UsagePattern}
    {keywords : List String} {expert : String} :
    pattern.isMatch keywords expert = false ↔
      (pattern.expertPersona = expert →
        ∀ keyword ∈ keywords, keyword ∉ pattern.goalKeywords) := by
  simp [isMatch]

theorem succ_add_cases {count other : UInt64}
    (bounded : count.toNat + other.toNat < 2 ^ 64) :
    (count + 1 + other = 0 ∧ count.toNat + other.toNat + 1 = 2 ^ 64) ∨
      (count + 1 + other ≠ 0 ∧
        (count + 1).toNat = count.toNat + 1 ∧
        count.toNat + other.toNat + 1 < 2 ^ 64) := by
  have asNumbers : count + 1 + other = 0 ↔
      ((count.toNat + 1) % 2 ^ 64 + other.toNat) % 2 ^ 64 = 0 := by
    rw [← UInt64.toNat_inj, UInt64.toNat_add, UInt64.toNat_add]
    rfl
  have next : (count + 1).toNat = (count.toNat + 1) % 2 ^ 64 :=
    UInt64.toNat_add count 1
  rw [ne_eq, asNumbers, next]
  omega

theorem update_cases {pattern : UsagePattern}
    (bounded : pattern.runs < 2 ^ 64) (succeeded : Bool)
    (executionMs now : UInt64) :
    (pattern.runs + 1 = 2 ^ 64 ∧
        pattern.update succeeded executionMs now = none) ∨
      ∃ updated, pattern.update succeeded executionMs now = some updated ∧
        updated.identity = pattern.identity ∧
        updated.runs = pattern.runs + 1 ∧ updated.runs < 2 ^ 64 := by
  cases succeeded with
  | true =>
      rcases succ_add_cases bounded with
        ⟨zero, full⟩ | ⟨positive, counted, room⟩
      · exact Or.inl ⟨full, if_pos zero⟩
      · right
        refine ⟨_, if_neg positive, rfl, ?_⟩
        simp only [runs, if_pos, counted]
        omega
  | false =>
      rw [runs, Nat.add_comm] at bounded
      rcases succ_add_cases bounded with
        ⟨zero, full⟩ | ⟨positive, counted, room⟩
      · rw [UInt64.add_comm] at zero
        rw [Nat.add_comm pattern.failureCount.toNat] at full
        exact Or.inl ⟨full, if_pos zero⟩
      · right
        rw [UInt64.add_comm] at positive
        refine ⟨_, if_neg positive, rfl, ?_⟩
        simp only [runs, Bool.false_eq_true, if_false, counted]
        omega

end UsagePattern

namespace PatternTracker

theorem mem_of_findMatching {tracker : PatternTracker}
    {keywords : List String} {expert : String} {index : Nat}
    {pattern : UsagePattern}
    (found : tracker.findMatching keywords expert = some (index, pattern)) :
    tracker.patterns[index]? = some pattern := by
  obtain ⟨place, _, placed⟩ := Option.bind_eq_some_iff.mp found
  obtain ⟨other, at_place, same⟩ := Option.map_eq_some_iff.mp placed
  cases same
  exact at_place

theorem isMatch_of_findMatching_eq_none {tracker : PatternTracker}
    {keywords : List String} {expert : String}
    (missing : tracker.findMatching keywords expert = none) :
    ∀ pattern ∈ tracker.patterns,
      pattern.isMatch keywords expert = false := by
  rw [findMatching] at missing
  cases sought : tracker.patterns.findIdx? fun p =>
      p.isMatch keywords expert with
  | none => exact List.findIdx?_eq_none_iff.mp sought
  | some index =>
      have inside :=
        (List.findIdx?_eq_some_iff_getElem.mp sought).fst
      rw [sought, Option.bind_some, List.getElem?_eq_getElem inside] at missing
      cases missing

/-- Numbers, index and patterns agree, and so many executions are counted. -/
structure Consistent (calls : Nat) (tracker : PatternTracker) : Prop where
  counted : (tracker.patterns.map UsagePattern.runs).sum = calls
  bounded : ∀ pattern ∈ tracker.patterns, pattern.runs < 2 ^ 64
  below : ∀ pattern ∈ tracker.patterns, pattern.id < tracker.nextId
  distinct : (tracker.patterns.map UsagePattern.id).Nodup
  indexed : ∀ keyword id,
    id ∈ HashMap.listed tracker.keywordIndex keyword ↔
      ∃ pattern ∈ tracker.patterns,
        pattern.id = id ∧ keyword ∈ pattern.goalKeywords
  apart : tracker.patterns.Pairwise UsagePattern.Apart

theorem new_consistent : new.Consistent 0 where
  counted := rfl
  bounded := by simp [new]
  below := by simp [new]
  distinct := List.nodup_nil
  indexed := by simp [new]
  apart := List.Pairwise.nil

/-- What of the store only depends on the identities of its patterns. -/
theorem Consistent.of_identities {calls later : Nat}
    {tracker : PatternTracker} (consistent : tracker.Consistent calls)
    {patterns : List UsagePattern}
    (identities : patterns.map UsagePattern.identity =
      tracker.patterns.map UsagePattern.identity)
    (counted : (patterns.map UsagePattern.runs).sum = later)
    (bounded : ∀ pattern ∈ patterns, pattern.runs < 2 ^ 64) :
    Consistent later { tracker with patterns } := by
  let apart := fun earlier later : Nat × String × List String =>
    earlier.2.1 = later.2.1 →
      ∀ keyword ∈ later.2.2, keyword ∉ earlier.2.2
  have exists_iff : ∀ property : Nat × String × List String → Prop,
      (∃ pattern ∈ patterns, property pattern.identity) ↔
        ∃ pattern ∈ tracker.patterns, property pattern.identity := by
    intro property
    have mapped : ∀ items : List UsagePattern,
        (∃ pattern ∈ items, property pattern.identity) ↔
          ∃ identity ∈ items.map UsagePattern.identity,
            property identity := by
      simp
    rw [mapped, mapped, identities]
  constructor
  case counted => exact counted
  case bounded => exact bounded
  case below =>
    intro pattern member
    obtain ⟨old, oldMember, same⟩ :=
      (exists_iff fun identity => identity = pattern.identity).mp
        ⟨pattern, member, rfl⟩
    have sameId : old.id = pattern.id := congrArg Prod.fst same
    rw [← sameId]
    exact consistent.below old oldMember
  case distinct =>
    have ids := congrArg (List.map Prod.fst) identities
    rw [List.map_map, List.map_map] at ids
    have sameIds : patterns.map UsagePattern.id =
        tracker.patterns.map UsagePattern.id := ids
    dsimp only
    rw [sameIds]
    exact consistent.distinct
  case indexed =>
    intro keyword id
    rw [consistent.indexed keyword id]
    have agree := exists_iff fun identity =>
      identity.1 = id ∧ keyword ∈ identity.2.2
    exact agree.symm
  case apart =>
    have stated : (tracker.patterns.map UsagePattern.identity).Pairwise
        apart := by
      rw [List.pairwise_map]
      exact consistent.apart
    rw [← identities, List.pairwise_map] at stated
    exact stated

theorem Consistent.set {calls : Nat} {tracker : PatternTracker}
    (consistent : tracker.Consistent calls) {index : Nat}
    {pattern updated : UsagePattern}
    (found : tracker.patterns[index]? = some pattern)
    (same : updated.identity = pattern.identity)
    (counted : updated.runs = pattern.runs + 1)
    (bounded : updated.runs < 2 ^ 64) :
    Consistent (calls + 1)
      { tracker with patterns := tracker.patterns.set index updated } := by
  obtain ⟨before, after, split, setSplit⟩ := exists_split_set found updated
  apply consistent.of_identities
  · rw [setSplit, split]
    simp [same]
  · have total := consistent.counted
    rw [split] at total
    rw [setSplit]
    simp only [List.map_append, List.map_cons, List.sum_append,
      List.sum_cons] at total ⊢
    omega
  · intro other member
    rcases List.mem_or_eq_of_mem_set member with unchanged | rfl
    · exact consistent.bounded other unchanged
    · exact bounded

theorem Consistent.add {calls : Nat} {tracker : PatternTracker}
    (consistent : tracker.Consistent calls) {added : UsagePattern}
    (isNext : added.id = tracker.nextId) (counted : added.runs = 1)
    (unmatched : ∀ pattern ∈ tracker.patterns,
      pattern.isMatch added.goalKeywords added.expertPersona = false) :
    Consistent (calls + 1)
      { patterns := tracker.patterns ++ [added]
        keywordIndex := HashMap.pushAll tracker.keywordIndex
          added.goalKeywords added.id
        nextId := tracker.nextId + 1 } := by
  constructor
  case counted =>
    rw [List.map_append, List.sum_append, consistent.counted]
    simp [counted]
  case bounded =>
    intro pattern member
    rcases List.mem_append.mp member with earlier | last
    · exact consistent.bounded pattern earlier
    · rw [List.mem_singleton.mp last, counted]
      decide
  case below =>
    intro pattern member
    dsimp only
    rcases List.mem_append.mp member with earlier | last
    · have before := consistent.below pattern earlier
      omega
    · rw [List.mem_singleton.mp last, isNext]
      exact Nat.lt_succ_self _
  case distinct =>
    have isNew : added.id ∉ tracker.patterns.map UsagePattern.id := by
      intro member
      obtain ⟨pattern, earlier, same⟩ := List.mem_map.mp member
      have before := consistent.below pattern earlier
      omega
    rw [List.map_append, List.map_singleton]
    exact List.nodup_append.mpr
      ⟨consistent.distinct, List.nodup_singleton _, by
        rintro id member _ last rfl
        exact isNew (List.mem_singleton.mp last ▸ member)⟩
  case indexed =>
    intro keyword id
    rw [HashMap.mem_listed_pushAll, consistent.indexed keyword id]
    simp only [List.mem_append, List.mem_singleton, or_and_right,
      exists_or, exists_eq_left]
    have added_iff : keyword ∈ added.goalKeywords ∧ id = added.id ↔
        added.id = id ∧ keyword ∈ added.goalKeywords := by
      rw [and_comm, eq_comm]
    exact or_congr_right added_iff
  case apart =>
    apply List.pairwise_append.mpr
    refine ⟨consistent.apart, List.pairwise_singleton _ _, ?_⟩
    intro pattern earlier last member
    rw [List.mem_singleton.mp member]
    exact UsagePattern.isMatch_eq_false_iff.mp (unmatched pattern earlier)

/-- Recording keeps the store consistent, and fails only when the counts of a
pattern are used up. -/
theorem Consistent.record {toLowercase : String → String} {calls : Nat}
    {tracker : PatternTracker} (consistent : tracker.Consistent calls)
    (goal expertPersona : String) (skillsUsed : List String)
    (succeeded : Bool) (executionMs now : UInt64) :
    (2 ^ 64 ≤ calls + 1 ∧
        tracker.record toLowercase goal expertPersona skillsUsed succeeded
          executionMs now = none) ∨
      ∃ next, tracker.record toLowercase goal expertPersona skillsUsed
          succeeded executionMs now = some next ∧
        next.Consistent (calls + 1) := by
  cases found : tracker.findMatching (extractKeywords toLowercase goal)
      expertPersona with
  | none =>
      right
      simp only [PatternTracker.record, found]
      refine ⟨_, rfl, ?_⟩
      refine @Consistent.add calls tracker consistent _ rfl ?_
        (isMatch_of_findMatching_eq_none found)
      cases succeeded with
      | true => rfl
      | false => rfl
  | some matching =>
      obtain ⟨index, pattern⟩ := matching
      have placed := mem_of_findMatching found
      have member := List.mem_of_getElem? placed
      have bounded := consistent.bounded pattern member
      simp only [PatternTracker.record, found]
      rcases pattern.update_cases bounded succeeded executionMs now with
        ⟨full, failed⟩ | ⟨updated, counted, same, oneMore, room⟩
      · left
        have part := List.single_le_sum (fun runs _ => Nat.zero_le runs)
          pattern.runs (List.mem_map_of_mem member)
        rw [consistent.counted] at part
        refine ⟨by omega, ?_⟩
        rw [failed]
        rfl
      · right
        refine ⟨_, by rw [counted]; rfl, ?_⟩
        exact consistent.set placed same oneMore room

/-- One call of `record`. -/
structure Call where
  goal : String
  expertPersona : String
  skillsUsed : List String
  succeeded : Bool
  executionMs : UInt64
  now : UInt64

def serve (toLowercase : String → String) (tracker : PatternTracker)
    (call : Call) : Option PatternTracker :=
  tracker.record toLowercase call.goal call.expertPersona call.skillsUsed
    call.succeeded call.executionMs call.now

/-- The tracker after some calls; `none` once a call has panicked. -/
def recorded (toLowercase : String → String) (calls : List Call) :
    Option PatternTracker :=
  runCalls (fun tracker call => tracker.bind (serve toLowercase · call))
    (some new) calls

/-- After every sequence of calls that return the store is consistent, and all
calls return while their number fits into 64 bits. -/
theorem recorded_consistent (toLowercase : String → String)
    (calls : List Call) :
    (∀ tracker, recorded toLowercase calls = some tracker →
        tracker.Consistent calls.length) ∧
      (calls.length < 2 ^ 64 →
        (recorded toLowercase calls).isSome = true) := by
  refine @invariant_of_history _ _ _
    (fun served state =>
      (∀ tracker : PatternTracker, state = some tracker →
          tracker.Consistent served.length) ∧
        (served.length < 2 ^ 64 → state.isSome = true))
    _ ?_ ?_ calls
  · refine ⟨?_, fun _ => rfl⟩
    intro tracker same
    cases same
    exact new_consistent
  · rintro served state call ⟨consistent, returns⟩
    rw [List.length_append, List.length_singleton]
    cases state with
    | none =>
        constructor
        · intro tracker same
          cases same
        · intro few
          exact returns (by omega)
    | some tracker =>
        rw [Option.bind_some, serve]
        rcases @Consistent.record toLowercase _ _ (consistent tracker rfl)
          call.goal call.expertPersona call.skillsUsed call.succeeded
          call.executionMs call.now with
          ⟨many, failed⟩ | ⟨next, done, nextConsistent⟩
        · rw [failed]
          constructor
          · intro tracker same
            cases same
          · intro few
            omega
        · rw [done]
          refine ⟨?_, fun _ => rfl⟩
          intro later same
          cases same
          exact nextConsistent

end PatternTracker

end Ughi.Evolution
