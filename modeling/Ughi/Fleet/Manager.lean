import Ughi.Lib.Run
import Ughi.Lib.Vec

/-!
# Fleet management

A fleet manager numbers the instances it registers and clones.  A local
instance gets the port 8080 and one more for every number before its own, in
words of 16 bits, so ports are distinct and do not overflow throughout exactly
the runs that register no local instance after 57456 others.
-/

namespace Ughi.Fleet

open Ughi.Lib

inductive InstanceStatus where
  | running
  | stopped
  | cloning
  | error
deriving DecidableEq, Repr

structure FleetInstance where
  id : Nat
  name : String
  host : String
  port : UInt16
  status : InstanceStatus
  agentsActive : UInt32
  agentsTotal : UInt64
  memoryMb : UInt32
  uptimeMs : UInt64
  version : String
deriving DecidableEq, Repr

/-- The port of a local instance; the number is cut to 16 bits first. -/
def localPort (id : Nat) : UInt16 :=
  8080 + (UInt16.ofNat id - 1)

/-- Neither the cast of the number nor the arithmetic of its port overflows. -/
def PortFits (id : Nat) : Prop :=
  id < 2 ^ 16 ∧ 1 ≤ (UInt16.ofNat id).toNat ∧
    8080 + (UInt16.ofNat id - 1).toNat < 2 ^ 16

/-- Fleet manager.  `nextId` counts the instances pushed to the vector, so it
does not reach the end of its word. -/
structure FleetManager where
  instances : List FleetInstance
  nextId : Nat

namespace FleetManager

def new : FleetManager :=
  { instances := []
    nextId := 1 }

/-- Register local instance. -/
def registerLocal (fleet : FleetManager) (version : String) :
    Nat × FleetManager :=
  let id := fleet.nextId
  (id,
    { nextId := fleet.nextId + 1
      instances := fleet.instances ++
        [{ id
           name := "local-" ++ toString id
           host := "127.0.0.1"
           port := localPort id
           status := .running
           agentsActive := 0
           agentsTotal := 0
           memoryMb := 180
           uptimeMs := 0
           version }] })

/-- Clone to a new instance (remote or local). -/
def cloneInstance (fleet : FleetManager) (sourceId : Nat)
    (targetHost : String) (targetPort : UInt16) : Option Nat × FleetManager :=
  match firstWith FleetInstance.id sourceId fleet.instances with
  | none => (none, fleet)
  | some source =>
      let id := fleet.nextId
      (some id,
        { nextId := fleet.nextId + 1
          instances := fleet.instances ++
            [{ id
               name := "clone-" ++ toString id
               host := targetHost
               port := targetPort
               status := .running
               agentsActive := 0
               agentsTotal := 0
               memoryMb := 180
               uptimeMs := 0
               version := source.version }] })

/-- Update instance metrics. -/
def updateMetrics (fleet : FleetManager) (id : Nat) (active : UInt32)
    (total : UInt64) (memoryMb : UInt32) : FleetManager :=
  { fleet with
    instances := modifyFirst FleetInstance.id id
      (fun inst =>
        { inst with
          agentsActive := active
          agentsTotal := total
          memoryMb })
      fleet.instances }

/-- Stop an instance. -/
def stop (fleet : FleetManager) (id : Nat) : Bool × FleetManager :=
  ((firstWith FleetInstance.id id fleet.instances).isSome,
    { fleet with
      instances := modifyFirst FleetInstance.id id
        (fun inst => { inst with status := .stopped }) fleet.instances })

/-- One operation on the fleet. -/
inductive Call where
  | registerLocal (version : String)
  | cloneInstance (sourceId : Nat) (targetHost : String)
      (targetPort : UInt16)
  | updateMetrics (id : Nat) (active : UInt32) (total : UInt64)
      (memoryMb : UInt32)
  | stop (id : Nat)

def serve (fleet : FleetManager) : Call → FleetManager
  | .registerLocal version => (fleet.registerLocal version).2
  | .cloneInstance sourceId targetHost targetPort =>
      (fleet.cloneInstance sourceId targetHost targetPort).2
  | .updateMetrics id active total memoryMb =>
      fleet.updateMetrics id active total memoryMb
  | .stop id => (fleet.stop id).2

end FleetManager

theorem toNat_ofNat_sub_one {id : Nat} (positive : 1 ≤ id)
    (short : id < 2 ^ 16) : (UInt16.ofNat id - 1).toNat = id - 1 := by
  have cast : (UInt16.ofNat id).toNat = id :=
    UInt16.toNat_ofNat_of_lt' short
  have atLeast : 1 ≤ UInt16.ofNat id := by
    rw [UInt16.le_iff_toNat_le, cast]
    exact positive
  rw [UInt16.toNat_sub_of_le _ _ atLeast, cast]
  rfl

theorem portFits_iff {id : Nat} (positive : 1 ≤ id) :
    PortFits id ↔ id ≤ 57456 := by
  rw [PortFits]
  constructor
  · rintro ⟨short, _, sum⟩
    rw [toNat_ofNat_sub_one positive short] at sum
    omega
  · intro atMost
    have short : id < 2 ^ 16 := by omega
    have cast : (UInt16.ofNat id).toNat = id :=
      UInt16.toNat_ofNat_of_lt' short
    rw [toNat_ofNat_sub_one positive short, cast]
    omega

theorem toNat_localPort {id : Nat} (positive : 1 ≤ id)
    (atMost : id ≤ 57456) : (localPort id).toNat = 8080 + (id - 1) := by
  have short : id < 2 ^ 16 := by omega
  have base : (8080 : UInt16).toNat = 8080 := rfl
  rw [localPort, UInt16.toNat_add, toNat_ofNat_sub_one positive short, base]
  exact Nat.mod_eq_of_lt (by omega)

theorem localPort_injective {first second : Nat} (positive : 1 ≤ first)
    (atMost : first ≤ 57456) (otherPositive : 1 ≤ second)
    (otherAtMost : second ≤ 57456)
    (same : localPort first = localPort second) : first = second := by
  have numbers := congrArg UInt16.toNat same
  rw [toNat_localPort positive atMost,
    toNat_localPort otherPositive otherAtMost] at numbers
  omega

/-- The ports repeat after as many numbers as there are ports. -/
theorem localPort_add (id : Nat) :
    localPort (id + 2 ^ 16) = localPort id := by
  have cast : UInt16.ofNat (id + 2 ^ 16) = UInt16.ofNat id := by
    rw [← UInt16.toNat_inj, UInt16.toNat_ofNat', UInt16.toNat_ofNat']
    exact Nat.add_mod_right id (2 ^ 16)
  rw [localPort, localPort, cast]

namespace FleetManager

/-- A fleet with the numbers of the instances it registered as local. -/
structure Tracked where
  fleet : FleetManager
  locals : List Nat

namespace Tracked

def new : Tracked :=
  { fleet := FleetManager.new
    locals := [] }

def serve (tracked : Tracked) (call : Call) : Tracked :=
  { fleet := tracked.fleet.serve call
    locals :=
      match call with
      | .registerLocal version =>
          tracked.locals ++ [(tracked.fleet.registerLocal version).1]
      | _ => tracked.locals }

/-- Any two instances registered as local have different ports. -/
def PortsDiffer (tracked : Tracked) : Prop :=
  ∀ first ∈ tracked.fleet.instances, ∀ second ∈ tracked.fleet.instances,
    first.id ∈ tracked.locals → second.id ∈ tracked.locals →
      first.id ≠ second.id → first.port ≠ second.port

/-- A registration does not overflow. -/
def Fits (tracked : Tracked) : Call → Prop
  | .registerLocal _ => PortFits tracked.fleet.nextId
  | _ => True

/-- Ports are left for a registration. -/
def PortsLeft (tracked : Tracked) : Call → Prop
  | .registerLocal _ => tracked.fleet.instances.length < 57456
  | _ => True

/-- Numbers count up, and the local instances have the ports of their
numbers. -/
structure Numbered (tracked : Tracked) : Prop where
  next : tracked.fleet.nextId = tracked.fleet.instances.length + 1
  bounds : ∀ inst ∈ tracked.fleet.instances,
    1 ≤ inst.id ∧ inst.id < tracked.fleet.nextId
  locals : ∀ id ∈ tracked.locals, id < tracked.fleet.nextId
  ports : ∀ inst ∈ tracked.fleet.instances, inst.id ∈ tracked.locals →
    inst.port = localPort inst.id

theorem fleet_run (calls : List Call) :
    (runCalls serve new calls).fleet =
      runCalls FleetManager.serve FleetManager.new calls :=
  view_runCalls (fun _ _ => rfl) new calls

theorem new_numbered : new.Numbered where
  next := rfl
  bounds := by
    intro inst member
    cases member
  locals := by
    intro id member
    cases member
  ports := by
    intro inst member
    cases member

/-- What a call that adds no instance does. -/
structure Kept (tracked next : Tracked) : Prop where
  nextId : next.fleet.nextId = tracked.fleet.nextId
  length : next.fleet.instances.length = tracked.fleet.instances.length
  locals : next.locals = tracked.locals
  instances : ∀ inst ∈ next.fleet.instances,
    ∃ old ∈ tracked.fleet.instances,
      old.id = inst.id ∧ old.port = inst.port

/-- What a call that adds an instance does. -/
structure Added (tracked : Tracked) (added : FleetInstance)
    (next : Tracked) : Prop where
  isNext : added.id = tracked.fleet.nextId
  nextId : next.fleet.nextId = tracked.fleet.nextId + 1
  instances : next.fleet.instances = tracked.fleet.instances ++ [added]

theorem kept_modifyFirst {tracked next : Tracked} {id : Nat}
    {change : FleetInstance → FleetInstance}
    (sameId : ∀ inst, (change inst).id = inst.id)
    (samePort : ∀ inst, (change inst).port = inst.port)
    (nextId : next.fleet.nextId = tracked.fleet.nextId)
    (locals : next.locals = tracked.locals)
    (instances : next.fleet.instances =
      modifyFirst FleetInstance.id id change tracked.fleet.instances) :
    tracked.Kept next where
  nextId := nextId
  length := by rw [instances, length_modifyFirst]
  locals := locals
  instances := by
    intro inst member
    rw [instances] at member
    rcases mem_modifyFirst member with unchanged | ⟨old, found, rfl⟩
    · exact ⟨inst, unchanged, rfl, rfl⟩
    · exact ⟨old, mem_of_firstWith found, (sameId old).symm,
        (samePort old).symm⟩

theorem serve_cases (tracked : Tracked) (call : Call) :
    (∃ version added, call = .registerLocal version ∧
        tracked.Added added (tracked.serve call) ∧
        (tracked.serve call).locals =
          tracked.locals ++ [tracked.fleet.nextId] ∧
        added.port = localPort tracked.fleet.nextId) ∨
      tracked.Fits call ∧ tracked.PortsLeft call ∧
        ((∃ added, tracked.Added added (tracked.serve call) ∧
            (tracked.serve call).locals = tracked.locals) ∨
          tracked.Kept (tracked.serve call)) := by
  cases call with
  | registerLocal version =>
      exact Or.inl ⟨version, _, rfl,
        { isNext := rfl
          nextId := rfl
          instances := rfl }, rfl, rfl⟩
  | cloneInstance sourceId targetHost targetPort =>
      refine Or.inr ⟨trivial, trivial, ?_⟩
      cases found : firstWith FleetInstance.id sourceId
          tracked.fleet.instances with
      | none =>
          right
          simp only [serve, FleetManager.serve, cloneInstance, found]
          exact
            { nextId := rfl
              length := rfl
              locals := rfl
              instances := fun inst member => ⟨inst, member, rfl, rfl⟩ }
      | some source =>
          left
          simp only [serve, FleetManager.serve, cloneInstance, found]
          exact ⟨_,
            { isNext := rfl
              nextId := rfl
              instances := rfl }, trivial⟩
  | updateMetrics id active total memoryMb =>
      refine Or.inr ⟨trivial, trivial, Or.inr ?_⟩
      refine kept_modifyFirst ?_ ?_ rfl rfl rfl
      · intro inst
        rfl
      · intro inst
        rfl
  | stop id =>
      refine Or.inr ⟨trivial, trivial, Or.inr ?_⟩
      refine kept_modifyFirst ?_ ?_ rfl rfl rfl
      · intro inst
        rfl
      · intro inst
        rfl

theorem Numbered.kept {tracked next : Tracked}
    (numbered : tracked.Numbered) (kept : tracked.Kept next) :
    next.Numbered where
  next := by rw [kept.nextId, kept.length, numbered.next]
  bounds := by
    intro inst member
    obtain ⟨old, oldMember, sameId, _⟩ := kept.instances inst member
    rw [kept.nextId, ← sameId]
    exact numbered.bounds old oldMember
  locals := by
    rw [kept.locals, kept.nextId]
    exact numbered.locals
  ports := by
    intro inst member isLocal
    obtain ⟨old, oldMember, sameId, samePort⟩ := kept.instances inst member
    rw [kept.locals, ← sameId] at isLocal
    rw [← samePort, ← sameId]
    exact numbered.ports old oldMember isLocal

/-- An added instance keeps the numbers, where those newly local are its own
and come with its port. -/
theorem Numbered.added {tracked next : Tracked}
    (numbered : tracked.Numbered) {added : FleetInstance}
    (extended : tracked.Added added next)
    (locals : ∀ id ∈ next.locals, id ∈ tracked.locals ∨
      id = tracked.fleet.nextId ∧ added.port = localPort added.id) :
    next.Numbered := by
  have older : ∀ inst ∈ tracked.fleet.instances,
      inst.id ≠ tracked.fleet.nextId := by
    intro inst member
    exact Nat.ne_of_lt (numbered.bounds inst member).2
  constructor
  case next =>
    rw [extended.nextId, extended.instances, numbered.next,
      List.length_append, List.length_singleton]
  case bounds =>
    intro inst member
    rw [extended.instances] at member
    rw [extended.nextId]
    rcases List.mem_append.mp member with earlier | last
    · have bounds := numbered.bounds inst earlier
      omega
    · rw [List.mem_singleton.mp last, extended.isNext, numbered.next]
      omega
  case locals =>
    intro id member
    rw [extended.nextId]
    rcases locals id member with earlier | ⟨rfl, _⟩
    · exact Nat.lt_succ_of_lt (numbered.locals id earlier)
    · exact Nat.lt_succ_self _
  case ports =>
    intro inst member isLocal
    rw [extended.instances] at member
    rcases List.mem_append.mp member with earlier | last
    · rcases locals inst.id isLocal with before | ⟨now, _⟩
      · exact numbered.ports inst earlier before
      · exact absurd now (older inst earlier)
    · have isAdded := List.mem_singleton.mp last
      rw [isAdded] at isLocal ⊢
      rcases locals added.id isLocal with before | ⟨_, port⟩
      · have below := numbered.locals added.id before
        rw [extended.isNext] at below
        exact absurd below (Nat.lt_irrefl _)
      · exact port

theorem Numbered.serve {tracked : Tracked} (numbered : tracked.Numbered)
    (call : Call) : (tracked.serve call).Numbered := by
  rcases serve_cases tracked call with
    ⟨version, added, _, extended, locals, port⟩ |
      ⟨_, _, ⟨added, extended, locals⟩ | kept⟩
  · apply numbered.added extended
    intro id member
    rw [locals] at member
    rcases List.mem_append.mp member with earlier | last
    · exact Or.inl earlier
    · right
      rw [extended.isNext]
      exact ⟨List.mem_singleton.mp last, port⟩
  · apply numbered.added extended
    intro id member
    rw [locals] at member
    exact Or.inl member
  · exact numbered.kept kept

theorem Numbered.portsDiffer {tracked : Tracked}
    (numbered : tracked.Numbered)
    (few : ∀ id ∈ tracked.locals, id ≤ 57456) : tracked.PortsDiffer := by
  intro first firstMember second secondMember firstLocal secondLocal
    different same
  rw [numbered.ports first firstMember firstLocal,
    numbered.ports second secondMember secondLocal] at same
  exact different (localPort_injective
    (numbered.bounds first firstMember).1 (few _ firstLocal)
    (numbered.bounds second secondMember).1 (few _ secondLocal) same)

theorem PortsDiffer.kept {tracked next : Tracked}
    (differ : tracked.PortsDiffer) (kept : tracked.Kept next) :
    next.PortsDiffer := by
  intro first firstMember second secondMember firstLocal secondLocal
    different
  obtain ⟨old, oldMember, sameId, samePort⟩ :=
    kept.instances first firstMember
  obtain ⟨other, otherMember, otherId, otherPort⟩ :=
    kept.instances second secondMember
  rw [kept.locals, ← sameId] at firstLocal
  rw [kept.locals, ← otherId] at secondLocal
  rw [← sameId, ← otherId] at different
  rw [← samePort, ← otherPort]
  exact differ old oldMember other otherMember firstLocal secondLocal
    different

theorem PortsDiffer.added {tracked next : Tracked}
    (differ : tracked.PortsDiffer) (numbered : tracked.Numbered)
    {added : FleetInstance} (extended : tracked.Added added next)
    (locals : next.locals = tracked.locals) : next.PortsDiffer := by
  have older : ∀ inst ∈ next.fleet.instances, inst.id ∈ next.locals →
      inst ∈ tracked.fleet.instances ∧ inst.id ∈ tracked.locals := by
    intro inst member isLocal
    rw [locals] at isLocal
    rw [extended.instances] at member
    rcases List.mem_append.mp member with earlier | last
    · exact ⟨earlier, isLocal⟩
    · have below := numbered.locals inst.id isLocal
      rw [List.mem_singleton.mp last, extended.isNext] at below
      exact absurd below (Nat.lt_irrefl _)
  intro first firstMember second secondMember firstLocal secondLocal
  obtain ⟨firstOld, firstLocal⟩ := older first firstMember firstLocal
  obtain ⟨secondOld, secondLocal⟩ := older second secondMember secondLocal
  exact differ first firstOld second secondOld firstLocal secondLocal

theorem Numbered.serve_iff {tracked : Tracked}
    (numbered : tracked.Numbered) (differ : tracked.PortsDiffer)
    (call : Call) :
    (tracked.serve call).PortsDiffer ∧ tracked.Fits call ↔
      tracked.PortsLeft call := by
  rcases serve_cases tracked call with
    ⟨version, added, rfl, extended, locals, _⟩ |
      ⟨fits, left, ⟨added, extended, locals⟩ | kept⟩
  · have positive : 1 ≤ tracked.fleet.nextId := by
      rw [numbered.next]
      exact Nat.succ_pos _
    have fits_iff : tracked.Fits (.registerLocal version) ↔
        tracked.fleet.nextId ≤ 57456 :=
      portFits_iff positive
    have left_iff : tracked.PortsLeft (.registerLocal version) ↔
        tracked.fleet.nextId ≤ 57456 := by
      rw [numbered.next]
      exact Iff.rfl
    rw [fits_iff, left_iff]
    refine ⟨And.right, fun atMost => ⟨?_, atMost⟩⟩
    apply (numbered.serve (.registerLocal version)).portsDiffer
    intro id member
    rw [locals] at member
    rcases List.mem_append.mp member with earlier | last
    · exact Nat.le_trans (Nat.le_of_lt (numbered.locals id earlier)) atMost
    · rw [List.mem_singleton.mp last]
      exact atMost
  · exact iff_of_true ⟨differ.added numbered extended locals, fits⟩ left
  · exact iff_of_true ⟨differ.kept kept, fits⟩ left

/-- In every run the local instances have different ports throughout and no
registration overflows exactly when every registration finds fewer than 57456
instances. -/
theorem portsDiffer_throughout_iff (calls : List Call) :
    Throughout serve PortsDiffer new calls ∧ EachCall serve Fits new calls ↔
      EachCall serve PortsLeft new calls := by
  refine @throughout_and_eachCall_iff _ _ serve (fun _ => True) Fits PortsLeft
    Numbered PortsDiffer (fun _ call _ numbered => numbered.serve call)
    (fun _ call _ numbered differ => numbered.serve_iff differ call) _ _
    (fun _ _ => trivial) new_numbered ?_
  intro first member
  cases member

theorem nextId_registerLocal (version : String) (count : Nat) :
    (runCalls serve new
      (List.replicate count (.registerLocal version))).fleet.nextId =
        count + 1 := by
  induction count with
  | zero => rfl
  | succ count induction =>
      rw [List.replicate_succ', runCalls_append]
      exact congrArg (· + 1) induction

theorem registered_registerLocal (version : String) {count id : Nat}
    (positive : 1 ≤ id) (atMost : id ≤ count) :
    ∃ inst ∈ (runCalls serve new
        (List.replicate count (.registerLocal version))).fleet.instances,
      inst.id = id ∧ id ∈ (runCalls serve new
        (List.replicate count (.registerLocal version))).locals := by
  induction count with
  | zero => exact absurd atMost (Nat.not_le.mpr positive)
  | succ count induction =>
      rw [List.replicate_succ', runCalls_append]
      rcases Nat.le_succ_iff.mp atMost with earlier | rfl
      · obtain ⟨inst, member, sameId, isLocal⟩ := induction earlier
        exact ⟨inst, List.mem_append_left _ member, sameId,
          List.mem_append_left _ isLocal⟩
      · have isNext := nextId_registerLocal version count
        refine ⟨_, List.mem_append_right _ (List.mem_singleton_self _),
          isNext, List.mem_append_right _ ?_⟩
        exact List.mem_singleton.mpr isNext.symm

theorem numbered_run (calls : List Call) :
    (runCalls serve new calls).Numbered := by
  have kept : ∀ tracked call, Numbered tracked →
      Numbered (serve tracked call) := by
    intro tracked call numbered
    exact numbered.serve call
  exact invariant_of_calls kept new_numbered calls

/-- When more instances are registered than there are ports, two of them share
a port. -/
theorem not_portsDiffer_registerLocal (version : String) {count : Nat}
    (many : 2 ^ 16 < count) :
    ¬ (runCalls serve new
      (List.replicate count (.registerLocal version))).PortsDiffer := by
  intro differ
  have numbered := numbered_run
    (List.replicate count (.registerLocal version))
  have present : 1 ≤ count := Nat.one_le_of_lt many
  have most : 1 + 2 ^ 16 ≤ count := by omega
  obtain ⟨first, firstMember, firstId, firstLocal⟩ :=
    registered_registerLocal version (Nat.le_refl 1) present
  obtain ⟨second, secondMember, secondId, secondLocal⟩ :=
    registered_registerLocal version (Nat.le_add_right 1 _) most
  rw [← firstId] at firstLocal
  rw [← secondId] at secondLocal
  have different : first.id ≠ second.id := by
    rw [firstId, secondId]
    decide
  apply differ first firstMember second secondMember firstLocal secondLocal
    different
  rw [numbered.ports first firstMember firstLocal,
    numbered.ports second secondMember secondLocal, firstId, secondId,
    localPort_add]

/-- The registration after 57456 others overflows. -/
theorem registerLocal_overflows :
    ¬ (Throughout serve PortsDiffer new
          (List.replicate 57457 (.registerLocal "1.0.0")) ∧
        EachCall serve Fits new
          (List.replicate 57457 (.registerLocal "1.0.0"))) := by
  rintro ⟨_, fits⟩
  rw [List.replicate_succ', eachCall_append] at fits
  obtain ⟨_, last, _⟩ := fits
  rw [Fits, nextId_registerLocal, portFits_iff (by decide)] at last
  revert last
  decide

end Tracked

end FleetManager

end Ughi.Fleet
