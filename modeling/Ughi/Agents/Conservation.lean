import Ughi.Agents.Governor

/-!
# Conservation in the resource governor

A ledger counts what really happened: registrations that were accepted,
removals that freed a slot, hibernations and resumes.  The books balance as
long as a hibernation gives back the slot of an active agent and adds an agent
to the map; `hibernate` checks neither.
-/

namespace Ughi.Agents

open Ughi.Lib

namespace ResourceGovernor

/-- A governor with the counts of what its calls brought about. -/
structure Ledger where
  governor : ResourceGovernor
  created : Nat
  removals : Nat
  hibernations : Nat
  resumes : Nat

namespace Ledger

def start (maxConcurrent : Nat) : Ledger :=
  { governor := withLimit maxConcurrent, created := 0, removals := 0
    hibernations := 0, resumes := 0 }

/-- Serve a call and count its effect. -/
def serve (ledger : Ledger) (call : Call) : Ledger :=
  let (answer, governor) := ledger.governor.serve call
  match call, answer with
  | .registerActive, .registered true =>
      { ledger with governor := governor, created := ledger.created + 1 }
  | .hibernate _, _ =>
      { ledger with
        governor := governor
        hibernations := ledger.hibernations + 1 }
  | .resume _, .resumed (some _) =>
      { ledger with governor := governor, resumes := ledger.resumes + 1 }
  | .removeActive, _ =>
      { ledger with
        governor := governor
        removals := ledger.removals +
          if 0 < ledger.governor.active then 1 else 0 }
  | _, _ => { ledger with governor := governor }

/-- The counters of the governor are the counts of the ledger, as machine
words; every hibernation is either resumed or a hibernated agent, and every
created agent is active, hibernated or removed. -/
structure Conserved (ledger : Ledger) : Prop where
  totalCreated : ledger.governor.totalCreated = ledger.created % 2 ^ 64
  totalHibernations :
    ledger.governor.totalHibernations = ledger.hibernations % 2 ^ 64
  totalResumes : ledger.governor.totalResumes = ledger.resumes % 2 ^ 64
  hibernated : ledger.hibernations =
    ledger.resumes + HashMap.size ledger.governor.hibernated
  created : ledger.created =
    ledger.governor.active + HashMap.size ledger.governor.hibernated +
      ledger.removals

/-- A hibernation finds an active agent, and no hibernated one of that
identifier. -/
def HibernatesActive (ledger : Ledger) : Call → Prop
  | .hibernate state =>
      0 < ledger.governor.active ∧
        state.agentId ∉ ledger.governor.hibernated
  | _ => True

theorem start_conserved (maxConcurrent : Nat) :
    (start maxConcurrent).Conserved where
  totalCreated := rfl
  totalHibernations := rfl
  totalResumes := rfl
  hibernated := rfl
  created := rfl

section Steps

variable {ledger : Ledger}

theorem SameFields.size_hibernated {before after : ResourceGovernor}
    (same : SameFields before after) :
    HashMap.size after.hibernated = HashMap.size before.hibernated := by
  apply HashMap.size_congr
  intro id
  rw [HashMap.mem_iff_exists_lookup, HashMap.mem_iff_exists_lookup,
    same.hibernated id]

theorem Conserved.sameFields (conserved : ledger.Conserved)
    {after : ResourceGovernor} (same : SameFields ledger.governor after) :
    ({ ledger with governor := after } : Ledger).Conserved where
  totalCreated := by
    rw [← conserved.totalCreated]
    exact same.totalCreated
  totalHibernations := by
    rw [← conserved.totalHibernations]
    exact same.totalHibernations
  totalResumes := by
    rw [← conserved.totalResumes]
    exact same.totalResumes
  hibernated := by
    rw [SameFields.size_hibernated same]
    exact conserved.hibernated
  created := by
    rw [SameFields.size_hibernated same, active, same.activeCount]
    exact conserved.created

theorem registerActive_conserved (conserved : ledger.Conserved) :
    (ledger.serve .registerActive).Conserved := by
  rcases ledger.governor.registerActive_cases with
    ⟨_, refused⟩ | ⟨_, accepted⟩
  · simp only [serve, ResourceGovernor.serve, refused]
    exact conserved
  · simp only [serve, ResourceGovernor.serve, accepted]
    constructor
    · rw [conserved.totalCreated]
      exact wrappingAdd_mod 64 _ _
    · exact conserved.totalHibernations
    · exact conserved.totalResumes
    · exact conserved.hibernated
    · have balance := conserved.created
      simp only [active] at balance ⊢
      omega

theorem resume_conserved (conserved : ledger.Conserved) (agentId : String) :
    (ledger.serve (.resume agentId)).Conserved := by
  rcases ledger.governor.resume_cases agentId with
    ⟨_, after, nothing, same⟩ | ⟨state, found, _, resumed⟩
  · simp only [serve, ResourceGovernor.serve, nothing]
    exact conserved.sameFields same
  · have shrunk := HashMap.size_erase_of_mem (HashMap.mem_of_lookup found)
    have hibernated := conserved.hibernated
    have balance := conserved.created
    simp only [serve, ResourceGovernor.serve, resumed]
    constructor
    · exact conserved.totalCreated
    · exact conserved.totalHibernations
    · rw [conserved.totalResumes]
      exact wrappingAdd_mod 64 _ _
    · dsimp only
      omega
    · simp only [active] at balance ⊢
      omega

theorem removeActive_conserved (conserved : ledger.Conserved) :
    (ledger.serve .removeActive).Conserved := by
  simp only [serve, ResourceGovernor.serve]
  constructor
  · exact conserved.totalCreated
  · exact conserved.totalHibernations
  · exact conserved.totalResumes
  · exact conserved.hibernated
  · have balance := conserved.created
    by_cases occupied : 0 < ledger.governor.active
    · rw [if_pos occupied]
      simp only [active, removeActive] at balance occupied ⊢
      omega
    · rw [if_neg occupied]
      simp only [active, removeActive] at balance occupied ⊢
      omega

/-- A hibernation balances exactly when it frees the slot of an active agent
and adds an agent to the map. -/
theorem hibernate_conserved_iff (conserved : ledger.Conserved)
    (state : HibernatedState) :
    (ledger.serve (.hibernate state)).Conserved ↔
      ledger.HibernatesActive (.hibernate state) := by
  have hibernated := conserved.hibernated
  have balance := conserved.created
  simp only [active] at balance
  by_cases present : state.agentId ∈ ledger.governor.hibernated
  · have unchanged : HashMap.size (ledger.governor.hibernated.insert
          state.agentId state) =
        HashMap.size ledger.governor.hibernated :=
      HashMap.size_insert_of_mem present
    constructor
    · intro next
      have counted : ledger.hibernations + 1 = ledger.resumes +
          HashMap.size (ledger.governor.hibernated.insert
            state.agentId state) := next.hibernated
      omega
    · intro admissible
      exact absurd present admissible.2
  · have grown : HashMap.size (ledger.governor.hibernated.insert
          state.agentId state) =
        HashMap.size ledger.governor.hibernated + 1 :=
      HashMap.size_insert_of_notMem present
    constructor
    · intro next
      refine ⟨?_, present⟩
      have counted : ledger.created = ledger.governor.activeCount - 1 +
          HashMap.size (ledger.governor.hibernated.insert
            state.agentId state) + ledger.removals := next.created
      rw [active]
      omega
    · intro admissible
      have occupied : 0 < ledger.governor.activeCount := admissible.1
      simp only [serve, ResourceGovernor.serve, hibernate]
      constructor
      · exact conserved.totalCreated
      · rw [conserved.totalHibernations]
        exact wrappingAdd_mod 64 _ _
      · exact conserved.totalResumes
      · dsimp only
        omega
      · simp only [active]
        omega

theorem serve_conserved_iff (conserved : ledger.Conserved) (call : Call) :
    (ledger.serve call).Conserved ↔ ledger.HibernatesActive call := by
  cases call with
  | registerActive =>
      exact iff_of_true (registerActive_conserved conserved) trivial
  | hibernate state => exact hibernate_conserved_iff conserved state
  | resume agentId =>
      exact iff_of_true (resume_conserved conserved agentId) trivial
  | removeActive =>
      exact iff_of_true (removeActive_conserved conserved) trivial

end Steps

/-- The books balance throughout a run exactly when every hibernation of it
finds an active agent that is not hibernated yet. -/
theorem conserved_throughout_iff (maxConcurrent : Nat) (calls : List Call) :
    Throughout serve Conserved (start maxConcurrent) calls ↔
      EachCall serve HibernatesActive (start maxConcurrent) calls := by
  have kept : ∀ (ledger : Ledger) (call : Call), True → True → True :=
    fun _ _ _ _ => trivial
  have exactStep : ∀ (ledger : Ledger) (call : Call), True → True →
      ledger.Conserved →
        ((ledger.serve call).Conserved ↔ ledger.HibernatesActive call) := by
    intro ledger call _ _ conserved
    exact serve_conserved_iff conserved call
  exact throughout_iff_eachCall kept exactStep (fun _ _ => trivial) trivial
    (start_conserved maxConcurrent)

/-- Two active agents, and one hibernated twice: both slots are free, and one
of the two agents is gone. -/
theorem repeated_hibernation_loses_agent :
    ¬ ∀ (maxConcurrent : Nat) (calls : List Call),
      (runCalls serve (start maxConcurrent) calls).Conserved := by
  intro claimed
  let state : HibernatedState :=
    { agentId := "a1", goal := "goal", expertPersonaId := "general-genius"
      priority := 2, transitionCount := 0, memoryKeys := []
      capabilities := [], hibernatedAtMs := 0, totalActiveMs := 0 }
  have conserved := claimed 2
    [.registerActive, .registerActive, .hibernate state, .hibernate state]
  have balance := conserved.created
  exact absurd balance (by decide)

end Ledger

end ResourceGovernor

end Ughi.Agents
