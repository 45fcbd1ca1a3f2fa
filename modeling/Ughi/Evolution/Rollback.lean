import Ughi.Evolution.Consent

/-!
# What a rollback takes back

A version is opened by the evolution cycle whose number it carries, and the
proposals of that cycle come with it.  A rollback to a version should take back
what later cycles proposed, and leave the rest.  The code takes back every
applied proposal, so it is right exactly when all of them are of later cycles.
-/

namespace Ughi.Evolution

open Ughi.Lib
open Ughi.Lib.Binary64

namespace MetaAgent

/-- The number of cycles when the proposal is first there. -/
def creationCycle (id : Nat) : MetaAgent → List Call → Nat
  | agent, [] => agent.totalEvolutions
  | agent, call :: calls =>
      let next := agent.serve call
      if id ∈ next.proposals.map Proposal.id then next.totalEvolutions
      else creationCycle id next calls

/-- The cycle of a run that created the proposal. -/
def cycleOf (calls : List Call) (id : Nat) : Nat :=
  creationCycle id new calls

/-- The status a rollback to the version of a cycle should leave. -/
def statusBackTo (number : Nat) (calls : List Call) (p : Proposal) :
    ProposalStatus :=
  if p.status = .applied ∧ number < cycleOf calls p.id then .rolledBack
  else p.status

/-- After a run, a rollback to a version takes back the applied proposals of
later cycles and no others. -/
structure RollsBackSelectively (calls : List Call) (number : Nat) : Prop where
  answer : ((after calls).rollback (versionText number)).1 = true
  statuses : ∀ p ∈ (after calls).proposals,
    ((after calls).rollback (versionText number)).2.statusOf p.id =
      some (statusBackTo number calls p)

/-! ## Cycles -/

theorem totalEvolutions_le_serve (agent : MetaAgent) (call : Call) :
    agent.totalEvolutions ≤ (agent.serve call).totalEvolutions := by
  rcases serve_cases agent call with rewrites | ⟨proposed, proposes, same⟩
  · exact rewrites.totalEvolutions.ge
  · rw [same, bumpVersion, proposes.totalEvolutions]
    exact Nat.le_succ _

theorem totalEvolutions_le_runCalls (agent : MetaAgent)
    (calls : List Call) :
    agent.totalEvolutions ≤ (runCalls serve agent calls).totalEvolutions := by
  induction calls generalizing agent with
  | nil => exact le_rfl
  | cons call calls induction =>
      exact (totalEvolutions_le_serve agent call).trans
        (induction (agent.serve call))

theorem creationCycle_range {agent : MetaAgent} {id : Nat}
    (absent : id ∉ agent.proposals.map Proposal.id) {calls : List Call}
    (created : id ∈ (runCalls serve agent calls).proposals.map Proposal.id) :
    agent.totalEvolutions < creationCycle id agent calls ∧
      creationCycle id agent calls ≤
        (runCalls serve agent calls).totalEvolutions := by
  induction calls generalizing agent with
  | nil => exact absurd created absent
  | cons call calls induction =>
      rw [runCalls_cons] at created ⊢
      rw [creationCycle]
      by_cases now : id ∈ (agent.serve call).proposals.map Proposal.id
      · have opened : (agent.serve call).totalEvolutions =
            agent.totalEvolutions + 1 := by
          rcases serve_cases agent call with
            rewrites | ⟨proposed, proposes, same⟩
          · rw [rewrites.ids] at now
            exact absurd now absent
          · rw [same, bumpVersion, proposes.totalEvolutions]
        rw [if_pos now]
        exact ⟨by omega, totalEvolutions_le_runCalls _ calls⟩
      · rw [if_neg now]
        obtain ⟨later, within⟩ := induction now created
        exact ⟨(totalEvolutions_le_serve agent call).trans_lt later, within⟩

theorem cycleOf_range (calls : List Call) {p : Proposal}
    (member : p ∈ (after calls).proposals) :
    0 < cycleOf calls p.id ∧
      cycleOf calls p.id ≤ (after calls).totalEvolutions :=
  creationCycle_range List.not_mem_nil (List.mem_map_of_mem member)

/-! ## Rollbacks -/

theorem statusOf_rollback {version : String} (numbered : Numbered agent)
    (listed : version ∈ agent.versionHistory) {p : Proposal}
    (member : p ∈ agent.proposals) :
    (agent.rollback version).2.statusOf p.id =
      some (if p.status = .applied then .rolledBack else p.status) := by
  let swept := fun p : Proposal =>
    if p.status = .applied then p.withStatus .rolledBack else p
  have sweptId : (swept p).id = p.id := by
    dsimp only [swept]
    split <;> rfl
  have sweptStatus : (swept p).status =
      if p.status = .applied then .rolledBack else p.status := by
    dsimp only [swept]
    split <;> rfl
  have rewritten := rollback_rewrites agent version
  have distinct : ((agent.rollback version).2.proposals.map
      Proposal.id).Nodup := by
    rw [rewritten.ids]
    exact numbered.distinct
  have inside : swept p ∈ (agent.rollback version).2.proposals := by
    rw [rollback, if_pos listed]
    exact List.mem_map_of_mem member
  have found : firstWith Proposal.id p.id
      (agent.rollback version).2.proposals = some (swept p) :=
    (firstWith_eq_some_iff distinct).mpr ⟨inside, sweptId⟩
  rw [statusOf, found, ← sweptStatus]
  rfl

theorem after_numbered (calls : List Call) : Numbered (after calls) :=
  (after_consented calls).numbered

/-- What the code leaves is what it should leave where no applied proposal is
of the version or before. -/
theorem rollsBackSelectively_of_late {calls : List Call} {number : Nat}
    (listed : versionText number ∈ (after calls).versionHistory)
    (late : ∀ p ∈ (after calls).proposals, p.status = .applied →
      number < cycleOf calls p.id) :
    RollsBackSelectively calls number := by
  constructor
  case answer => rw [rollback, if_pos listed]
  case statuses =>
    intro p member
    rw [statusOf_rollback (after_numbered calls) listed member, statusBackTo]
    by_cases applied : p.status = .applied
    · rw [if_pos applied, if_pos ⟨applied, late p member applied⟩]
    · have other :
          ¬ (p.status = .applied ∧ number < cycleOf calls p.id) := by
        rintro ⟨isApplied, _⟩
        exact applied isApplied
      rw [if_neg applied, if_neg other]

theorem late_of_rollsBackSelectively {calls : List Call} {number : Nat}
    (listed : versionText number ∈ (after calls).versionHistory)
    (selective : RollsBackSelectively calls number) {p : Proposal}
    (member : p ∈ (after calls).proposals) (applied : p.status = .applied) :
    number < cycleOf calls p.id := by
  have expected := selective.statuses p member
  rw [statusOf_rollback (after_numbered calls) listed member, Option.some_inj,
    statusBackTo, if_pos applied] at expected
  by_contra early
  have kept : ¬ (p.status = .applied ∧ number < cycleOf calls p.id) := by
    rintro ⟨_, late⟩
    exact early late
  rw [if_neg kept, applied] at expected
  cases expected

/-- A rollback to a version of the history is selective exactly when every
applied proposal was created by a later cycle. -/
theorem rollsBackSelectively_iff (calls : List Call) {number : Nat}
    (listed : versionText number ∈ (after calls).versionHistory) :
    RollsBackSelectively calls number ↔
      ∀ p ∈ (after calls).proposals, p.status = .applied →
        number < cycleOf calls p.id := by
  constructor
  · intro selective p member applied
    exact late_of_rollsBackSelectively listed selective member applied
  · intro late
    exact rollsBackSelectively_of_late listed late

/-- Every proposal is later than the first version. -/
theorem rollsBackSelectively_first (calls : List Call) :
    RollsBackSelectively calls 0 := by
  have listed : versionText 0 ∈ (after calls).versionHistory := by
    rw [(after_versioned calls).history]
    apply List.mem_map_of_mem
    exact List.mem_range.mpr (Nat.succ_pos _)
  apply rollsBackSelectively_of_late listed
  intro p member _
  exact (cycleOf_range calls member).1

/-- One failed task. -/
def losingTracker : PatternTracker :=
  { patterns :=
      [{ id := 1
         goalKeywords := ["deploy"]
         expertPersona := "devops"
         skillsUsed := []
         successCount := 0
         failureCount := 1
         avgExecutionMs := 100
         lastUsedMs := 0 }]
    keywordIndex := (∅ : HashMap String (List Nat)).insert "deploy" [1]
    nextId := 2 }

/-- The first cycle proposes a skill, which is approved and applied; the second
proposes nothing. -/
def appliedRun : List Call :=
  [.evolve .new losingTracker [], .approve 1, .apply 1 true,
    .evolve .new .new []]

/-- Without lessons and with no pattern used twice, a cycle can only propose a
skill. -/
theorem evolve_withoutLessons (agent : MetaAgent) {patterns : PatternTracker}
    (few : patterns.topPatterns 5 = []) :
    agent.evolve .new patterns [] =
      some ((agent.proposeSkill patterns).bumpVersion.pendingProposals,
        (agent.proposeSkill patterns).bumpVersion) := by
  have nonneg : ((0 : ℤ) : ℚ) ≤ nearest (3 / 10) := by
    apply le_nearest
    · rw [abs_of_pos (by norm_num)]
      norm_num
    · norm_num
  have noRate : ¬ LessonStore.new.failureRate > nearest (3 / 10) := by
    rw [Int.cast_zero] at nonneg
    exact not_lt.mpr nonneg
  have prevented : agent.preventFailures .new [] = some agent := rfl
  rw [evolve, prevented, Option.map_some, few]
  simp only [List.foldl_nil]
  rw [proposePrompts, if_neg noRate]

theorem proposeSkill_losingTracker (agent : MetaAgent) :
    ∃ title description confidence source,
      agent.proposeSkill losingTracker =
        agent.propose .newSkill title description confidence source := by
  have lost : losingTracker.systemWinRate = nearest (nearest 0 / nearest 1) :=
    rfl
  have zero : nearest 0 = 0 := by
    simpa using @nearest_intCast 0 (by simp)
  have low : losingTracker.systemWinRate < nearest (7 / 10) := by
    rw [lost, zero, zero_div, zero]
    apply nearest_pos (by norm_num)
    have tiny : (2 : ℚ) ^ (-1022 : ℤ) ≤ 2 ^ (-1 : ℤ) :=
      zpow_le_zpow_right₀ (by norm_num) (by norm_num)
    apply tiny.trans
    norm_num
  rw [proposeSkill, if_pos low]
  exact ⟨_, _, _, _, rfl⟩

theorem proposeSkill_new (agent : MetaAgent) :
    agent.proposeSkill .new = agent := by
  have atMost : nearest (7 / 10) ≤ ((1 : ℤ) : ℚ) := by
    apply nearest_le
    · rw [abs_of_pos (by norm_num)]
      norm_num
    · norm_num
  have high : ¬ PatternTracker.new.systemWinRate < nearest (7 / 10) := by
    rw [Int.cast_one] at atMost
    exact not_lt.mpr atMost
  rw [proposeSkill, if_neg high]

theorem after_appliedRun :
    ∃ p, p.id = 1 ∧ p.status = .applied ∧
      (after appliedRun).proposals = [p] ∧ cycleOf appliedRun 1 = 1 ∧
      (after appliedRun).totalEvolutions = 2 := by
  obtain ⟨title, description, confidence, source, skill⟩ :=
    proposeSkill_losingTracker new
  have few : losingTracker.topPatterns 5 = [] := by
    have once : losingTracker.patterns.filter (fun p =>
        decide (p.successCount + p.failureCount ≥ 2)) = [] := rfl
    rw [PatternTracker.topPatterns, once, List.mergeSort_nil]
    rfl
  have none : PatternTracker.new.topPatterns 5 = [] := by
    rw [PatternTracker.topPatterns, PatternTracker.new, List.filter_nil,
      List.mergeSort_nil]
    rfl
  have first : new.serve (.evolve .new losingTracker []) =
      (new.propose .newSkill title description confidence
        source).bumpVersion := by
    rw [serve, evolve_withoutLessons new few, skill]
    rfl
  have second : ∀ agent : MetaAgent,
      agent.serve (.evolve .new .new []) = agent.bumpVersion := by
    intro agent
    rw [serve, evolve_withoutLessons agent none, proposeSkill_new]
    rfl
  refine ⟨
    { id := 1
      category := .newSkill
      title
      description
      confidence
      status := .applied
      source }, rfl, rfl, ?_, ?_, ?_⟩
  · rw [after, appliedRun, runCalls_cons, first, runCalls_cons, runCalls_cons,
      runCalls_cons, second]
    rfl
  · rw [cycleOf, appliedRun, creationCycle, first]
    rfl
  · rw [after, appliedRun, runCalls_cons, first, runCalls_cons, runCalls_cons,
      runCalls_cons, second]
    rfl

theorem listed_appliedRun {number : Nat} (opened : number ≤ 2) :
    versionText number ∈ (after appliedRun).versionHistory := by
  obtain ⟨_, _, _, _, _, cycles⟩ := after_appliedRun
  rw [(after_versioned appliedRun).history, cycles]
  apply List.mem_map_of_mem
  exact List.mem_range.mpr (Nat.lt_succ_of_le opened)

/-- Going back to version 1.1.0 takes back what was applied under it. -/
theorem rollback_sweeps_older_proposals :
    ¬ ∀ calls number, versionText number ∈ (after calls).versionHistory →
      RollsBackSelectively calls number := by
  intro claim
  obtain ⟨p, id, applied, only, cycle, _⟩ := after_appliedRun
  have member : p ∈ (after appliedRun).proposals := by
    rw [only]
    exact List.mem_singleton_self p
  have listed : versionText 1 ∈ (after appliedRun).versionHistory :=
    listed_appliedRun (by decide)
  have late := late_of_rollsBackSelectively listed (claim _ _ listed) member
    applied
  rw [id, cycle] at late
  exact absurd late (by decide)

theorem rollsBackSelectively_appliedRun :
    RollsBackSelectively appliedRun 0 ∧
      ¬ RollsBackSelectively appliedRun 1 := by
  obtain ⟨p, id, applied, only, cycle, _⟩ := after_appliedRun
  constructor
  · apply (rollsBackSelectively_iff appliedRun
      (listed_appliedRun (by decide))).mpr
    intro other member _
    exact (cycleOf_range appliedRun member).1
  · intro selective
    have late := (rollsBackSelectively_iff appliedRun
      (listed_appliedRun (by decide))).mp selective p
    rw [only, id, cycle] at late
    exact absurd (late (List.mem_singleton_self p) applied) (by decide)

end MetaAgent

end Ughi.Evolution
