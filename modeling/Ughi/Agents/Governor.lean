import Ughi.Lib.HashMap
import Ughi.Lib.Run
import Ughi.Lib.Word

/-!
# The resource governor

Active agents are counted against a limit, hibernated ones are kept as states
under their identifiers.  The governor itself forgets how a state came into
its map, so a run is recorded together with the answers its calls got, and
`lastHibernated` reads the expected state off that log.
-/

namespace Ughi.Agents

open Ughi.Lib

/-- Agent state for hibernation. -/
structure HibernatedState where
  agentId : String
  goal : String
  expertPersonaId : String
  priority : Nat
  transitionCount : Nat
  memoryKeys : List String
  capabilities : List String
  hibernatedAtMs : Nat
  totalActiveMs : Nat
deriving DecidableEq, Repr

/-- Active and hibernated agent counts. -/
structure ResourceGovernor where
  maxConcurrent : Nat
  activeCount : Nat
  totalCreated : Nat
  hibernated : HashMap String HibernatedState
  totalHibernations : Nat
  totalResumes : Nat

namespace ResourceGovernor

def new : ResourceGovernor :=
  { maxConcurrent := 64, activeCount := 0, totalCreated := 0, hibernated := ∅
    totalHibernations := 0, totalResumes := 0 }

def withLimit (maxConcurrent : Nat) : ResourceGovernor :=
  { new with maxConcurrent := maxConcurrent }

def canSpawn (governor : ResourceGovernor) : Bool :=
  governor.activeCount < governor.maxConcurrent

def registerActive (governor : ResourceGovernor) : Bool × ResourceGovernor :=
  if governor.activeCount ≥ governor.maxConcurrent then
    (false, governor)
  else
    (true,
      { governor with
        activeCount := governor.activeCount + 1
        totalCreated := wrappingAdd 64 governor.totalCreated 1 })

def hibernate (governor : ResourceGovernor) (state : HibernatedState) :
    ResourceGovernor :=
  { governor with
    hibernated := governor.hibernated.insert state.agentId state
    activeCount := governor.activeCount - 1
    totalHibernations := wrappingAdd 64 governor.totalHibernations 1 }

/-- The state leaves the map before the capacity check, and returns to it when
the check fails. -/
def resume (governor : ResourceGovernor) (agentId : String) :
    Option HibernatedState × ResourceGovernor :=
  match governor.hibernated.lookup agentId with
  | none => (none, governor)
  | some state =>
      let hibernated := governor.hibernated.erase agentId
      if governor.activeCount ≥ governor.maxConcurrent then
        (none,
          { governor with hibernated := hibernated.insert agentId state })
      else
        (some state,
          { governor with
            hibernated := hibernated
            activeCount := governor.activeCount + 1
            totalResumes := wrappingAdd 64 governor.totalResumes 1 })

def removeActive (governor : ResourceGovernor) : ResourceGovernor :=
  { governor with activeCount := governor.activeCount - 1 }

def active (governor : ResourceGovernor) : Nat :=
  governor.activeCount

/-- Every field of two governors is the same; the map is compared by what it
maps, not by its iteration order. -/
structure SameFields (before after : ResourceGovernor) : Prop where
  maxConcurrent : after.maxConcurrent = before.maxConcurrent
  activeCount : after.activeCount = before.activeCount
  totalCreated : after.totalCreated = before.totalCreated
  hibernated : ∀ id, after.hibernated.lookup id = before.hibernated.lookup id
  totalHibernations : after.totalHibernations = before.totalHibernations
  totalResumes : after.totalResumes = before.totalResumes

theorem SameFields.refl (governor : ResourceGovernor) :
    SameFields governor governor :=
  ⟨rfl, rfl, rfl, fun _ => rfl, rfl, rfl⟩

section Operations

variable (governor : ResourceGovernor)

theorem registerActive_cases :
    (governor.maxConcurrent ≤ governor.activeCount ∧
        governor.registerActive = (false, governor)) ∨
      (governor.activeCount < governor.maxConcurrent ∧
        governor.registerActive =
          (true,
            { governor with
              activeCount := governor.activeCount + 1
              totalCreated := wrappingAdd 64 governor.totalCreated 1 })) := by
  unfold registerActive
  split
  next full =>
    exact .inl ⟨full, rfl⟩
  next room =>
    exact .inr ⟨Nat.lt_of_not_le room, rfl⟩

/-- A resume that returns nothing leaves every field as it was; one that
returns a state takes it out of the map and one free slot. -/
theorem resume_cases (agentId : String) :
    ((governor.hibernated.lookup agentId = none ∨
          governor.maxConcurrent ≤ governor.activeCount) ∧
        ∃ after, governor.resume agentId = (none, after) ∧
          SameFields governor after) ∨
      ∃ state, governor.hibernated.lookup agentId = some state ∧
        governor.activeCount < governor.maxConcurrent ∧
        governor.resume agentId =
          (some state,
            { governor with
              hibernated := governor.hibernated.erase agentId
              activeCount := governor.activeCount + 1
              totalResumes := wrappingAdd 64 governor.totalResumes 1 }) := by
  unfold resume
  split
  next missing =>
    exact .inl ⟨.inl missing, governor, rfl, SameFields.refl governor⟩
  next state found =>
    simp only
    split
    next full =>
      refine .inl ⟨.inr full, _, rfl, ⟨rfl, rfl, rfl, ?_, rfl, rfl⟩⟩
      intro id
      rw [HashMap.lookup_insert_eq, HashMap.lookup_erase_eq]
      split
      next same =>
        rw [same, found]
      · rfl
    next room =>
      exact .inr ⟨state, found, Nat.lt_of_not_le room, rfl⟩

end Operations

/-- The calls a governor serves. -/
inductive Call where
  | registerActive
  | hibernate (state : HibernatedState)
  | resume (agentId : String)
  | removeActive
deriving DecidableEq, Repr

/-- What a call returns. -/
inductive Answer where
  | registered (accepted : Bool)
  | resumed (state : Option HibernatedState)
  | done
deriving DecidableEq, Repr

def serve (governor : ResourceGovernor) : Call → Answer × ResourceGovernor
  | .registerActive =>
      (.registered governor.registerActive.1, governor.registerActive.2)
  | .hibernate state => (.done, governor.hibernate state)
  | .resume agentId =>
      (.resumed (governor.resume agentId).1, (governor.resume agentId).2)
  | .removeActive => (.done, governor.removeActive)

/-- A governor with the log of its calls and their answers, latest first. -/
structure Recorded where
  governor : ResourceGovernor
  log : List (Call × Answer)

def Recorded.start (maxConcurrent : Nat) : Recorded :=
  { governor := withLimit maxConcurrent, log := [] }

def Recorded.serve (recorded : Recorded) (call : Call) : Recorded :=
  let (answer, governor) := recorded.governor.serve call
  { governor := governor, log := (call, answer) :: recorded.log }

/-- The state passed to the last `hibernate` of an agent since its last
successful `resume`, read off a log. -/
def lastHibernated (agentId : String) :
    List (Call × Answer) → Option HibernatedState
  | [] => none
  | (.hibernate state, _) :: earlier =>
      if state.agentId = agentId then some state
      else lastHibernated agentId earlier
  | (.resume other, .resumed (some _)) :: earlier =>
      if other = agentId then none else lastHibernated agentId earlier
  | _ :: earlier => lastHibernated agentId earlier

/-- The map holds what the log says, and the limit is respected. -/
structure Recorded.Sound (maxConcurrent : Nat) (recorded : Recorded) :
    Prop where
  limit : recorded.governor.maxConcurrent = maxConcurrent
  bounded : recorded.governor.activeCount ≤ maxConcurrent
  remembers : ∀ id,
    recorded.governor.hibernated.lookup id = lastHibernated id recorded.log

namespace Recorded

variable {maxConcurrent : Nat} {recorded : Recorded}

theorem start_sound (maxConcurrent : Nat) :
    (start maxConcurrent).Sound maxConcurrent where
  limit := rfl
  bounded := Nat.zero_le _
  remembers := fun _ => rfl

theorem registerActive_sound (sound : recorded.Sound maxConcurrent) :
    (recorded.serve .registerActive).Sound maxConcurrent := by
  have limit := sound.limit
  rcases recorded.governor.registerActive_cases with
    ⟨_, refused⟩ | ⟨room, accepted⟩
  · simp only [serve, ResourceGovernor.serve, refused]
    exact ⟨limit, sound.bounded, sound.remembers⟩
  · simp only [serve, ResourceGovernor.serve, accepted]
    refine ⟨limit, ?_, sound.remembers⟩
    dsimp only
    omega

theorem hibernate_sound (sound : recorded.Sound maxConcurrent)
    (state : HibernatedState) :
    (recorded.serve (.hibernate state)).Sound maxConcurrent where
  limit := sound.limit
  bounded := Nat.le_trans (Nat.sub_le _ _) sound.bounded
  remembers := by
    intro id
    simp only [serve, ResourceGovernor.serve, hibernate, lastHibernated,
      HashMap.lookup_insert_eq, sound.remembers id]
    simp only [eq_comm]

theorem resume_sound (sound : recorded.Sound maxConcurrent)
    (agentId : String) :
    (recorded.serve (.resume agentId)).Sound maxConcurrent := by
  have limit := sound.limit
  rcases recorded.governor.resume_cases agentId with
    ⟨_, after, nothing, same⟩ | ⟨state, _, room, resumed⟩
  · simp only [serve, ResourceGovernor.serve, nothing]
    refine ⟨same.maxConcurrent.trans limit, ?_, ?_⟩
    · rw [same.activeCount]
      exact sound.bounded
    · intro id
      rw [same.hibernated id, sound.remembers id]
      rfl
  · simp only [serve, ResourceGovernor.serve, resumed]
    refine ⟨limit, ?_, ?_⟩
    · dsimp only
      omega
    · intro id
      simp only [lastHibernated, HashMap.lookup_erase_eq,
        sound.remembers id]
      simp only [eq_comm]

theorem removeActive_sound (sound : recorded.Sound maxConcurrent) :
    (recorded.serve .removeActive).Sound maxConcurrent where
  limit := sound.limit
  bounded := Nat.le_trans (Nat.sub_le _ _) sound.bounded
  remembers := sound.remembers

theorem serve_sound (sound : recorded.Sound maxConcurrent) (call : Call) :
    (recorded.serve call).Sound maxConcurrent := by
  cases call with
  | registerActive => exact registerActive_sound sound
  | hibernate state => exact hibernate_sound sound state
  | resume agentId => exact resume_sound sound agentId
  | removeActive => exact removeActive_sound sound

theorem run_sound (maxConcurrent : Nat) (calls : List Call) :
    (runCalls serve (start maxConcurrent) calls).Sound maxConcurrent := by
  have kept : ∀ recorded call, Sound maxConcurrent recorded →
      Sound maxConcurrent (serve recorded call) := by
    intro recorded call sound
    exact serve_sound sound call
  exact invariant_of_calls kept (start_sound maxConcurrent) calls

/-- A sound governor resumes exactly what its log says is hibernated, while
there is a free slot. -/
theorem Sound.resume_eq_some_iff (sound : recorded.Sound maxConcurrent)
    (agentId : String) (state : HibernatedState) :
    (recorded.governor.resume agentId).1 = some state ↔
      lastHibernated agentId recorded.log = some state ∧
        recorded.governor.active < maxConcurrent := by
  rw [← sound.remembers agentId, ← sound.limit, active]
  rcases recorded.governor.resume_cases agentId with
    ⟨blocked, after, nothing, _⟩ | ⟨found, lookup, room, resumed⟩
  · rw [nothing]
    constructor
    · intro some
      cases some
    · intro available
      rcases blocked with missing | full
      · rw [missing] at available
        cases available.1
      · exact absurd available.2 (Nat.not_lt.mpr full)
  · rw [resumed, lookup]
    constructor
    · intro same
      exact ⟨same, room⟩
    · intro available
      exact available.1

end Recorded

theorem resume_none_sameFields (governor : ResourceGovernor)
    {agentId : String} (nothing : (governor.resume agentId).1 = none) :
    SameFields governor (governor.resume agentId).2 := by
  rcases governor.resume_cases agentId with
    ⟨_, after, result, same⟩ | ⟨state, _, _, resumed⟩
  · rw [result]
    exact same
  · rw [resumed] at nothing
    cases nothing

theorem registerActive_false_sameFields (governor : ResourceGovernor)
    (refused : governor.registerActive.1 = false) :
    SameFields governor governor.registerActive.2 := by
  rcases governor.registerActive_cases with ⟨_, result⟩ | ⟨_, accepted⟩
  · rw [result]
    exact SameFields.refl governor
  · rw [accepted] at refused
    cases refused

/-- After every run the limit holds, a resume answers as the log of the run
demands, and a resume or registration that gives nothing changes nothing. -/
theorem governor_safe (maxConcurrent : Nat) (calls : List Call) :
    let reached := runCalls Recorded.serve (.start maxConcurrent) calls
    reached.governor.active ≤ maxConcurrent ∧
      (∀ agentId state,
        (reached.governor.resume agentId).1 = some state ↔
          lastHibernated agentId reached.log = some state ∧
            reached.governor.active < maxConcurrent) ∧
      (∀ agentId, (reached.governor.resume agentId).1 = none →
        SameFields reached.governor (reached.governor.resume agentId).2) ∧
      (reached.governor.registerActive.1 = false →
        SameFields reached.governor reached.governor.registerActive.2) := by
  have sound := Recorded.run_sound maxConcurrent calls
  refine ⟨sound.bounded, ?_, ?_, ?_⟩
  · intro agentId state
    exact sound.resume_eq_some_iff agentId state
  · intro agentId nothing
    exact resume_none_sameFields _ nothing
  · intro refused
    exact registerActive_false_sameFields _ refused

end ResourceGovernor

end Ughi.Agents
