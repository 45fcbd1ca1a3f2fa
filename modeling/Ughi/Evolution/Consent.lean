import Ughi.Evolution.MetaAgent

/-!
# The consent gate

A proposal is applied only after it was approved and then applied on behalf of
the user, and a rollback makes both necessary again.  What one call can do to
the status of a proposal is said once; the run follows by induction on its
calls.
-/

namespace Ughi.Evolution

open Ughi.Lib

namespace MetaAgent

variable {agent later : MetaAgent} {id : Nat}

/-- Proposals are numbered from one. -/
structure Numbered (agent : MetaAgent) : Prop where
  ids : agent.proposals.map Proposal.id =
    List.range' 1 agent.proposals.length
  next : agent.nextId = agent.proposals.length + 1

theorem Numbered.distinct (numbered : Numbered agent) :
    (agent.proposals.map Proposal.id).Nodup := by
  rw [numbered.ids]
  exact List.nodup_range'

/-! ## Evolution -/

/-- The agent has made proposals and nothing else. -/
structure Proposes (agent later : MetaAgent) : Prop where
  numbered : Numbered agent → Numbered later
  proposals : ∃ new, later.proposals = agent.proposals ++ new ∧
    ∀ p ∈ new, p.status = .proposed
  totalEvolutions : later.totalEvolutions = agent.totalEvolutions
  versionHistory : later.versionHistory = agent.versionHistory

theorem Proposes.refl (agent : MetaAgent) : Proposes agent agent :=
  { numbered := fun numbered => numbered
    proposals := ⟨[], (List.append_nil _).symm,
      fun _ member => (List.not_mem_nil member).elim⟩
    totalEvolutions := rfl
    versionHistory := rfl }

theorem Proposes.trans {last : MetaAgent} (first : Proposes agent later)
    (second : Proposes later last) : Proposes agent last := by
  obtain ⟨new, added, newProposed⟩ := first.proposals
  obtain ⟨newer, addedLater, newerProposed⟩ := second.proposals
  refine
    { numbered := fun numbered => second.numbered (first.numbered numbered)
      proposals := ⟨new ++ newer, ?_, ?_⟩
      totalEvolutions := second.totalEvolutions.trans first.totalEvolutions
      versionHistory := second.versionHistory.trans first.versionHistory }
  · rw [addedLater, added, List.append_assoc]
  · intro p member
    rcases List.mem_append.mp member with early | late
    · exact newProposed p early
    · exact newerProposed p late

theorem propose_proposes (agent : MetaAgent) (category : ProposalCategory)
    (title description : String) (confidence : ℚ) (source : String) :
    Proposes agent
      (agent.propose category title description confidence source) := by
  refine
    { numbered := ?_
      proposals := ⟨_, rfl, ?_⟩
      totalEvolutions := rfl
      versionHistory := rfl }
  · rintro ⟨ids, next⟩
    refine ⟨?_, ?_⟩
    · rw [propose, List.map_append, ids, List.length_append,
        List.length_singleton, List.range'_1_concat, List.map_singleton, next,
        Nat.add_comm]
    · rw [propose, List.length_append, List.length_singleton, next]
  · intro p member
    rw [List.mem_singleton.mp member]

theorem foldl_proposes {α : Type} {act : MetaAgent → α → MetaAgent}
    (each : ∀ agent item, Proposes agent (act agent item))
    (items : List α) (agent : MetaAgent) :
    Proposes agent (items.foldl act agent) := by
  induction items generalizing agent with
  | nil => exact .refl agent
  | cons item items induction =>
      exact (each agent item).trans (induction (act agent item))

theorem proposeReinforcement_proposes (agent : MetaAgent)
    (pattern : UsagePattern) :
    Proposes agent (agent.proposeReinforcement pattern) := by
  rw [proposeReinforcement]
  split
  · apply propose_proposes
  · exact .refl agent

theorem proposeSkill_proposes (agent : MetaAgent)
    (patterns : PatternTracker) :
    Proposes agent (agent.proposeSkill patterns) := by
  rw [proposeSkill]
  split
  · apply propose_proposes
  · exact .refl agent

theorem proposePrompts_proposes (agent : MetaAgent) (lessons : LessonStore) :
    Proposes agent (agent.proposePrompts lessons) := by
  rw [proposePrompts]
  split
  · apply propose_proposes
  · exact .refl agent

theorem preventFailures_proposes {lessons : LessonStore}
    {order : List String}
    (prevented : agent.preventFailures lessons order = some later) :
    Proposes agent later := by
  rw [preventFailures] at prevented
  split at prevented
  next none =>
    cases prevented
    exact .refl agent
  next some =>
    obtain ⟨causes, _, rfl⟩ := Option.map_eq_some_iff.mp prevented
    apply foldl_proposes
    intro agent cause
    apply propose_proposes

theorem evolve_eq {lessons : LessonStore} {patterns : PatternTracker}
    {order : List String} {pending : List Proposal}
    (evolved : agent.evolve lessons patterns order = some (pending, later)) :
    ∃ proposed, Proposes agent proposed ∧ later = proposed.bumpVersion := by
  obtain ⟨prevented, found, same⟩ := Option.map_eq_some_iff.mp evolved
  cases same
  refine ⟨_, ?_, rfl⟩
  have prevention := preventFailures_proposes found
  have reinforcement := foldl_proposes proposeReinforcement_proposes
    (patterns.topPatterns 5) prevented
  have skill := proposeSkill_proposes
    ((patterns.topPatterns 5).foldl proposeReinforcement prevented) patterns
  exact ((prevention.trans reinforcement).trans skill).trans
    (proposePrompts_proposes _ lessons)

/-- The agent has written statuses or gone back to a version. -/
structure Rewrites (agent later : MetaAgent) : Prop where
  ids : later.proposals.map Proposal.id = agent.proposals.map Proposal.id
  nextId : later.nextId = agent.nextId
  totalEvolutions : later.totalEvolutions = agent.totalEvolutions
  versionHistory : later.versionHistory = agent.versionHistory
  version : later.version = agent.version ∨
    later.version ∈ agent.versionHistory

theorem Rewrites.refl (agent : MetaAgent) : Rewrites agent agent :=
  { ids := rfl
    nextId := rfl
    totalEvolutions := rfl
    versionHistory := rfl
    version := .inl rfl }

theorem Rewrites.ofProposals (agent : MetaAgent) {proposals : List Proposal}
    (ids : proposals.map Proposal.id = agent.proposals.map Proposal.id) :
    Rewrites agent { agent with proposals } :=
  { Rewrites.refl agent with ids }

theorem approve_rewrites (agent : MetaAgent) (id : Nat) :
    Rewrites agent (agent.approve id).2 := by
  rw [approve]
  split
  · exact .ofProposals agent (map_modifyFirst_of_kept fun _ => rfl)
  · exact .refl agent

theorem apply_rewrites (agent : MetaAgent) (id : Nat)
    (userApproved : Bool) : Rewrites agent (agent.apply id userApproved).2 := by
  rw [apply]
  split
  · exact .refl agent
  · dsimp only
    split
    · exact .ofProposals agent (map_modifyFirst_of_kept fun _ => rfl)
    · exact .refl agent

theorem rollback_rewrites (agent : MetaAgent) (targetVersion : String) :
    Rewrites agent (agent.rollback targetVersion).2 := by
  rw [rollback]
  split
  next listed =>
    refine { Rewrites.refl agent with
      ids := ?_
      version := .inr listed }
    rw [List.map_map]
    apply List.map_congr_left
    intro p _
    dsimp only [Function.comp]
    split
    · rfl
    · rfl
  next unlisted => exact .refl agent

theorem serve_cases (agent : MetaAgent) (call : Call) :
    Rewrites agent (agent.serve call) ∨
      ∃ proposed, Proposes agent proposed ∧
        agent.serve call = proposed.bumpVersion := by
  cases call with
  | onTaskComplete => exact .inl { Rewrites.refl agent with }
  | evolve lessons patterns order =>
      rw [serve]
      cases evolved : agent.evolve lessons patterns order with
      | none => exact .inl (.refl agent)
      | some result => exact .inr (evolve_eq evolved)
  | approve id => exact .inl (approve_rewrites agent id)
  | apply id userApproved => exact .inl (apply_rewrites agent id userApproved)
  | rollback targetVersion =>
      exact .inl (rollback_rewrites agent targetVersion)

theorem Numbered.serve (numbered : Numbered agent) (call : Call) :
    Numbered (agent.serve call) := by
  rcases serve_cases agent call with rewrites | ⟨proposed, proposes, same⟩
  · have length : (agent.serve call).proposals.length =
        agent.proposals.length := by
      rw [← List.length_map Proposal.id, rewrites.ids, List.length_map]
    refine ⟨?_, ?_⟩
    · rw [rewrites.ids, numbered.ids, length]
    · rw [rewrites.nextId, numbered.next, length]
  · rw [same]
    obtain ⟨ids, next⟩ := proposes.numbered numbered
    exact ⟨ids, next⟩

/-! ## One call -/

/-- Where a proposal found after a call comes from. -/
inductive Origin (agent : MetaAgent) (call : Call) (p : Proposal) : Prop where
  | kept (member : p ∈ agent.proposals)
  | proposed (isProposed : p.status = .proposed)
  | approved (isApprove : call = .approve p.id)
      (isApproved : p.status = .approved)
      (created : p.id ∈ agent.proposals.map Proposal.id)
  | applied (isApply : call = .apply p.id true)
      (isApplied : p.status = .applied) (old : Proposal)
      (member : old ∈ agent.proposals) (sameId : old.id = p.id)
      (wasApproved : old.status = .approved)
  | rolledBack (isRolledBack : p.status = .rolledBack)

theorem origin_of_mem_evolve {lessons : LessonStore}
    {patterns : PatternTracker} {order : List String}
    {pending : List Proposal} {call : Call} {p : Proposal}
    (evolved : agent.evolve lessons patterns order = some (pending, later))
    (member : p ∈ later.proposals) : Origin agent call p := by
  obtain ⟨proposed, proposes, rfl⟩ := evolve_eq evolved
  obtain ⟨new, added, newProposed⟩ := proposes.proposals
  rw [bumpVersion, added] at member
  rcases List.mem_append.mp member with old | fresh
  · exact .kept old
  · exact .proposed (newProposed p fresh)

theorem origin_of_mem_approve {wanted : Nat} {p : Proposal}
    (member : p ∈ (agent.approve wanted).2.proposals) :
    Origin agent (.approve wanted) p := by
  rw [approve] at member
  cases found : firstWith Proposal.id wanted agent.proposals with
  | none =>
      rw [found] at member
      exact .kept member
  | some first =>
      rw [found] at member
      rcases mem_modifyFirst member with old | ⟨changed, first, rfl⟩
      · exact .kept old
      · have inside := mem_of_firstWith first
        have named : changed.id = wanted := key_of_firstWith first
        subst named
        exact .approved rfl rfl (List.mem_map.mpr ⟨changed, inside, rfl⟩)

theorem origin_of_mem_apply {wanted : Nat} {userApproved : Bool}
    {p : Proposal}
    (member : p ∈ (agent.apply wanted userApproved).2.proposals) :
    Origin agent (.apply wanted userApproved) p := by
  rw [apply] at member
  cases userApproved with
  | false => exact .kept member
  | true =>
      dsimp only at member
      cases found : firstWith (fun p : Proposal => (p.id, p.status))
          (wanted, .approved) agent.proposals with
      | none =>
          rw [found] at member
          exact .kept member
      | some first =>
          rw [found] at member
          rcases mem_modifyFirst member with old | ⟨changed, first, rfl⟩
          · exact .kept old
          · have inside := mem_of_firstWith first
            have key := key_of_firstWith first
            obtain ⟨named, wasApproved⟩ := Prod.mk.inj key
            subst named
            exact .applied rfl rfl changed inside rfl wasApproved

theorem origin_of_mem_rollback {targetVersion : String} {p : Proposal}
    (member : p ∈ (agent.rollback targetVersion).2.proposals) :
    Origin agent (.rollback targetVersion) p := by
  rw [rollback] at member
  split at member
  · obtain ⟨old, inside, rfl⟩ := List.mem_map.mp member
    split
    · exact .rolledBack rfl
    · exact .kept inside
  · exact .kept member

theorem origin_of_mem_serve {call : Call} {p : Proposal}
    (member : p ∈ (agent.serve call).proposals) : Origin agent call p := by
  cases call with
  | onTaskComplete => exact .kept member
  | evolve lessons patterns order =>
      rw [serve] at member
      cases evolved : agent.evolve lessons patterns order with
      | none =>
          rw [evolved] at member
          exact .kept member
      | some result =>
          rw [evolved] at member
          exact origin_of_mem_evolve evolved member
  | approve wanted => exact origin_of_mem_approve member
  | apply wanted userApproved => exact origin_of_mem_apply member
  | rollback targetVersion => exact origin_of_mem_rollback member

/-! ## Runs -/

/-- The status of the proposal with an id. -/
def statusOf (agent : MetaAgent) (id : Nat) : Option ProposalStatus :=
  (firstWith Proposal.id id agent.proposals).map Proposal.status

/-- The call does not move the proposal to `RolledBack`. -/
def KeepsFromRollback (id : Nat) (agent : MetaAgent) (call : Call) : Prop :=
  agent.statusOf id ≠ some .rolledBack →
    (agent.serve call).statusOf id ≠ some .rolledBack

/-- The run goes on from `before` with the proposal there, and without moving
it to `RolledBack`. -/
structure OnFrom (id : Nat) (before rest : List Call) : Prop where
  created : id ∈ (after before).proposals.map Proposal.id
  notRolledBack : EachCall serve (KeepsFromRollback id) (after before) rest

/-- Since its creation and its last rollback the proposal was approved. -/
def ApprovedIn (calls : List Call) (id : Nat) : Prop :=
  ∃ before rest, calls = before ++ .approve id :: rest ∧
    OnFrom id before (.approve id :: rest)

/-- Since its creation and its last rollback the proposal was approved and then
applied on behalf of the user. -/
def AppliedIn (calls : List Call) (id : Nat) : Prop :=
  ∃ before between rest,
    calls = before ++ .approve id :: (between ++ .apply id true :: rest) ∧
      OnFrom id before (.approve id :: (between ++ .apply id true :: rest))

theorem statusOf_of_mem (numbered : Numbered agent) {p : Proposal}
    (member : p ∈ agent.proposals) :
    agent.statusOf p.id = some p.status := by
  have found : firstWith Proposal.id p.id agent.proposals = some p :=
    (firstWith_eq_some_iff numbered.distinct).mpr ⟨member, rfl⟩
  rw [statusOf, found]
  rfl

theorem OnFrom.snoc {before rest : List Call} {call : Call}
    (onFrom : OnFrom id before rest)
    (kept : KeepsFromRollback id (after (before ++ rest)) call) :
    OnFrom id before (rest ++ [call]) := by
  refine ⟨onFrom.created, ?_⟩
  rw [eachCall_append]
  refine ⟨onFrom.notRolledBack, ?_, trivial⟩
  rw [after, runCalls_append] at kept
  exact kept

theorem ApprovedIn.snoc {calls : List Call} {call : Call}
    (approved : ApprovedIn calls id)
    (kept : KeepsFromRollback id (after calls) call) :
    ApprovedIn (calls ++ [call]) id := by
  obtain ⟨before, rest, rfl, onFrom⟩ := approved
  refine ⟨before, rest ++ [call], ?_, onFrom.snoc kept⟩
  rw [List.append_assoc]
  rfl

theorem AppliedIn.snoc {calls : List Call} {call : Call}
    (applied : AppliedIn calls id)
    (kept : KeepsFromRollback id (after calls) call) :
    AppliedIn (calls ++ [call]) id := by
  obtain ⟨before, between, rest, rfl, onFrom⟩ := applied
  have longer := onFrom.snoc kept
  rw [List.cons_append, List.append_assoc, List.cons_append] at longer
  refine ⟨before, between, rest ++ [call], ?_, longer⟩
  rw [List.append_assoc, List.cons_append, List.append_assoc,
    List.cons_append]

theorem ApprovedIn.apply {calls : List Call} (approved : ApprovedIn calls id)
    (kept : KeepsFromRollback id (after calls) (.apply id true)) :
    AppliedIn (calls ++ [.apply id true]) id := by
  obtain ⟨before, rest, rfl, onFrom⟩ := approved
  refine ⟨before, rest, [], ?_, onFrom.snoc kept⟩
  rw [List.append_assoc]
  rfl

/-- What the run so far says about the proposals. -/
structure Consented (served : List Call) (agent : MetaAgent) : Prop where
  reached : agent = after served
  numbered : Numbered agent
  approved : ∀ p ∈ agent.proposals, p.status = .approved →
    ApprovedIn served p.id
  applied : ∀ p ∈ agent.proposals, p.status = .applied →
    AppliedIn served p.id

theorem Consented.serve {served : List Call}
    (consented : Consented served agent) (call : Call) :
    Consented (served ++ [call]) (agent.serve call) := by
  obtain ⟨reached, numbered, approved, applied⟩ := consented
  have numberedLater := numbered.serve call
  -- a proposal that is not rolled back afterwards has not been moved there
  have unmoved : ∀ p ∈ (agent.serve call).proposals,
      p.status ≠ .rolledBack → KeepsFromRollback p.id (after served) call := by
    intro p member other _ moved
    rw [← reached, statusOf_of_mem numberedLater member] at moved
    exact other (Option.some.inj moved)
  refine ⟨?_, numberedLater, ?_, ?_⟩
  · rw [after, runCalls_append, ← after, ← reached]
    rfl
  · intro p member isApproved
    have kept := unmoved p member (by
      rw [isApproved]
      nofun)
    cases origin_of_mem_serve member with
    | kept old => exact (approved p old isApproved).snoc kept
    | proposed isProposed =>
        rw [isApproved] at isProposed
        cases isProposed
    | approved isApprove _ created =>
        subst isApprove
        rw [reached] at created
        exact ⟨served, [], rfl, created, kept, trivial⟩
    | applied _ isApplied =>
        rw [isApproved] at isApplied
        cases isApplied
    | rolledBack isRolledBack =>
        rw [isApproved] at isRolledBack
        cases isRolledBack
  · intro p member isApplied
    have kept := unmoved p member (by
      rw [isApplied]
      nofun)
    cases origin_of_mem_serve member with
    | kept old => exact (applied p old isApplied).snoc kept
    | proposed isProposed =>
        rw [isApplied] at isProposed
        cases isProposed
    | approved _ isApproved =>
        rw [isApplied] at isApproved
        cases isApproved
    | applied isApply _ old inside sameId wasApproved =>
        subst isApply
        have earlier := approved old inside wasApproved
        rw [sameId] at earlier
        exact earlier.apply kept
    | rolledBack isRolledBack =>
        rw [isApplied] at isRolledBack
        cases isRolledBack

theorem after_consented (calls : List Call) :
    Consented calls (after calls) := by
  refine @invariant_of_history _ _ serve Consented new ?_ ?_ calls
  · refine ⟨(runCalls_nil serve new).symm, ⟨rfl, rfl⟩, ?_, ?_⟩
    · intro p member
      exact (List.not_mem_nil member).elim
    · intro p member
      exact (List.not_mem_nil member).elim
  · intro served agent call consented
    exact consented.serve call

/-! ## Versions -/

theorem versionText_injective : Function.Injective versionText := by
  intro first second same
  rw [versionText, versionText, String.append_left_inj,
    String.append_right_inj] at same
  rw [Nat.repr_eq_ofList_toDigits, Nat.repr_eq_ofList_toDigits,
    String.ofList_inj] at same
  rw [← @Nat.ofDigitChars_ten_toDigits first, same,
    Nat.ofDigitChars_ten_toDigits]

/-- The history lists the versions of all cycles, and the version is one of
them. -/
structure Versioned (agent : MetaAgent) : Prop where
  history : agent.versionHistory =
    (List.range (agent.totalEvolutions + 1)).map versionText
  current : agent.version ∈ agent.versionHistory

theorem new_versioned : Versioned new :=
  { history := rfl
    current := List.mem_singleton_self _ }

theorem Versioned.distinct (versioned : Versioned agent) :
    agent.versionHistory.Nodup := by
  rw [versioned.history]
  exact List.nodup_range.map versionText_injective

theorem Versioned.serve (versioned : Versioned agent) (call : Call) :
    Versioned (agent.serve call) := by
  obtain ⟨history, current⟩ := versioned
  rcases serve_cases agent call with rewrites | ⟨proposed, proposes, same⟩
  · refine ⟨?_, ?_⟩
    · rw [rewrites.versionHistory, rewrites.totalEvolutions, history]
    · rw [rewrites.versionHistory]
      rcases rewrites.version with unchanged | listed
      · rw [unchanged]
        exact current
      · exact listed
  · rw [same]
    refine ⟨?_, List.mem_append_right _ (List.mem_singleton_self _)⟩
    rw [bumpVersion]
    dsimp only
    rw [List.range_succ, List.map_append, proposes.versionHistory, history,
      proposes.totalEvolutions, List.map_singleton]

theorem after_versioned (calls : List Call) : Versioned (after calls) := by
  have preserved : ∀ agent call, Versioned agent →
      Versioned (serve agent call) := by
    intro agent call versioned
    exact versioned.serve call
  exact invariant_of_calls preserved new_versioned calls

/-- In every run the applied proposals were approved and applied on behalf of
the user since their creation and their last rollback; without the user nothing
is applied; and ids and versions are distinct. -/
theorem consent_gate (calls : List Call) :
    let agent := after calls
    (∀ p ∈ agent.proposals, p.status = .applied → AppliedIn calls p.id) ∧
      (∀ id, ∃ message, agent.apply id false = (.error message, agent)) ∧
      (agent.proposals.map Proposal.id).Nodup ∧
      agent.version ∈ agent.versionHistory ∧ agent.versionHistory.Nodup := by
  have consented := after_consented calls
  have versioned := after_versioned calls
  exact ⟨consented.applied, fun id => ⟨_, rfl⟩, consented.numbered.distinct,
    versioned.current, versioned.distinct⟩

end MetaAgent

end Ughi.Evolution
