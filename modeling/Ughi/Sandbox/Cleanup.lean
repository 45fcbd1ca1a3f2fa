import Mathlib.Data.Multiset.Basic
import Ughi.Lib.Projection
import Ughi.Sandbox.Capability

/-!
# Cleanups are invisible

A cleanup drops tokens that are not valid at its time, and with a clock that
does not go back they never are again.  So a manager and a cleaned one have the
same valid tokens, in the same order under each key, from that time on, and
every operation keeps it so.
-/

namespace Ughi.Sandbox

open Ughi.Lib

namespace CapabilityManager

/-- The requests of a run; those that look at the clock carry its reading. -/
inductive Request where
  | issue (agentId skillName : String) (scope : CapabilityScope)
      (ttlMs now : Nat) (nanos : UInt64)
  | revokeAll (agentId : String)
  | validate (agentId skillName : String) (now : Nat)
  | activeCount (now : Nat)
  | agentTokens (agentId : String) (now : Nat)
  | cleanup (now : Nat)

/-- What a caller sees of a request.  A failed validation shows no token, and
tokens listed from the hash map show no order. -/
inductive Reply where
  | issued (token : CapabilityToken)
  | validated (token : Option CapabilityToken)
  | counted (count : Nat)
  | listed (tokens : Multiset CapabilityToken)
  | done

/-- The clock reading of a request, if it takes one. -/
def Request.reading : Request → Option Nat
  | .issue _ _ _ _ now _ | .validate _ _ now | .activeCount now
  | .agentTokens _ now | .cleanup now => some now
  | .revokeAll _ => none

def Request.isCleanup : Request → Bool
  | .cleanup _ => true
  | _ => false

/-- A manager and the last reading of its clock. -/
structure Clocked where
  manager : CapabilityManager
  clock : Nat

def reply (manager : CapabilityManager) : Request → Reply × CapabilityManager
  | .issue agentId skillName scope ttlMs now nanos =>
      let issued := manager.issue agentId skillName scope ttlMs now nanos
      (.issued issued.1, issued.2)
  | .revokeAll agentId => (.done, manager.revokeAll agentId)
  | .validate agentId skillName now =>
      let validated := manager.validate agentId skillName now
      (.validated validated.1.toOption, validated.2)
  | .activeCount now => (.counted (manager.activeCount now), manager)
  | .agentTokens agentId now =>
      (.listed (manager.agentTokens agentId now), manager)
  | .cleanup now => (.done, manager.cleanup now)

def serveClocked (state : Clocked) (request : Request) : Reply × Clocked :=
  let replied := state.manager.reply request
  (replied.1,
    { manager := replied.2
      clock := request.reading.getD state.clock })

/-- The clock does not go back. -/
def Timely (state : Clocked) (request : Request) : Prop :=
  ∀ now, request.reading = some now → state.clock ≤ now

/-- The tokens of a list that are valid at a time. -/
def live (now : Nat) (tokens : List CapabilityToken) : List CapabilityToken :=
  tokens.filter fun token => token.isValid now

/-- From a time on, both managers have the same valid tokens under each key. -/
def SameLive (left right : CapabilityManager) (since : Nat) : Prop :=
  ∀ key now, since ≤ now →
    live now (left.tokens.bucket key) = live now (right.tokens.bucket key)

/-! ## What the valid tokens determine -/

section Observed

variable {left right : CapabilityManager} {since now : Nat}

theorem validated_eq_head (manager : CapabilityManager)
    (agentId skillName : String) (now : Nat) :
    (manager.validate agentId skillName now).1.toOption =
      (live now
        (manager.tokens.bucket (capKey agentId skillName))).head? := by
  rw [live, List.head?_filter]
  cases granted : (manager.validate agentId skillName now).1 with
  | ok token =>
      exact ((validate_eq_ok_iff manager agentId skillName).mp granted).symm
  | error denial =>
      apply Eq.symm
      apply Option.eq_none_iff_forall_not_mem.mpr
      intro token found
      have valid := (validate_eq_ok_iff manager agentId skillName).mpr found
      rw [granted] at valid
      cases valid

theorem viewAt_live (manager : CapabilityManager) (now : Nat) (key : String) :
    HashMap.viewAt (live now) manager.tokens key =
      live now (manager.tokens.bucket key) := by
  rw [HashMap.viewAt, TokenMap.bucket]
  cases manager.tokens.lookup key with
  | none => rfl
  | some filed => rfl

theorem SameLive.perm (same : SameLive left right since)
    (passed : since ≤ now) :
    ((HashMap.values left.tokens).flatten.filter
        fun token => token.isValid now).Perm
      ((HashMap.values right.tokens).flatten.filter
        fun token => token.isValid now) := by
  have gathered : ∀ manager : CapabilityManager,
      (HashMap.values manager.tokens).flatten.filter
          (fun token => token.isValid now) =
        (HashMap.values manager.tokens).flatMap (live now) := by
    intro manager
    rw [List.filter_flatten, List.flatMap]
    rfl
  rw [gathered left, gathered right]
  apply HashMap.flatMap_values_perm
  intro key
  rw [viewAt_live, viewAt_live]
  exact same key now passed

theorem SameLive.activeCount (same : SameLive left right since)
    (passed : since ≤ now) : left.activeCount now = right.activeCount now :=
  (same.perm passed).length_eq

theorem SameLive.agentTokens (same : SameLive left right since)
    (passed : since ≤ now) (agentId : String) :
    (left.agentTokens agentId now).Perm (right.agentTokens agentId now) := by
  have narrowed := (same.perm passed).filter fun token =>
    token.agentId = agentId
  rwa [List.filter_filter, List.filter_filter] at narrowed

end Observed

/-! ## What each request does to them -/

section Steps

variable {left right : CapabilityManager} {since now : Nat}

theorem SameLive.later (same : SameLive left right since)
    (passed : since ≤ now) : SameLive left right now :=
  fun key later ordered => same key later (Nat.le_trans passed ordered)

theorem SameLive.issue (same : SameLive left right since)
    (agentId skillName : String) (scope : CapabilityScope)
    (ttlMs issuedAt : Nat) (nanos : UInt64) :
    SameLive (left.issue agentId skillName scope ttlMs issuedAt nanos).2
      (right.issue agentId skillName scope ttlMs issuedAt nanos).2 since := by
  intro key now passed
  have before := same key now passed
  rw [live, live] at before
  rw [bucket_issue, bucket_issue, live, live, List.filter_append,
    List.filter_append, before]

theorem SameLive.revokeAll (same : SameLive left right since)
    (agentId : String) :
    SameLive (left.revokeAll agentId) (right.revokeAll agentId) since := by
  intro key now passed
  have before := same key now passed
  rw [live, live] at before
  rw [bucket_revokeAll, bucket_revokeAll, live, live,
    CapabilityToken.filter_isValid_map_revokeIf,
    CapabilityToken.filter_isValid_map_revokeIf, before]

theorem SameLive.validate (same : SameLive left right since)
    (agentId skillName : String) (now : Nat) :
    SameLive (left.validate agentId skillName now).2
      (right.validate agentId skillName now).2 since := by
  intro key
  rw [tokens_validate, tokens_validate]
  exact same key

theorem live_filter_isValid {later : Nat} (ordered : now ≤ later)
    (tokens : List CapabilityToken) :
    live later (tokens.filter fun token => token.isValid now) =
      live later tokens := by
  rw [live, List.filter_filter, live]
  apply List.filter_congr
  intro token _
  cases valid : token.isValid later with
  | false => rfl
  | true => rw [CapabilityToken.isValid_of_le ordered valid, Bool.and_self]

theorem SameLive.cleanup (same : SameLive left right since)
    (passed : since ≤ now) : SameLive left (right.cleanup now) now := by
  intro key later ordered
  rw [bucket_cleanup, live_filter_isValid ordered]
  exact same key later (Nat.le_trans passed ordered)

end Steps

/-! ## Runs -/

/-- Two clocked managers that no later request tells apart. -/
def Alike (left right : Clocked) : Prop :=
  left.clock ≤ right.clock ∧
    SameLive left.manager right.manager right.clock

/-- A request other than a cleanup is answered alike, and leaves the managers
alike. -/
theorem SameLive.reply {left right : CapabilityManager} {since : Nat}
    (same : SameLive left right since) {request : Request}
    (timely : ∀ now, request.reading = some now → since ≤ now)
    (kept : request.isCleanup = false) :
    (left.reply request).1 = (right.reply request).1 ∧
      SameLive (left.reply request).2 (right.reply request).2 since := by
  cases request with
  | issue agentId skillName scope ttlMs now nanos =>
      exact ⟨rfl, same.issue agentId skillName scope ttlMs now nanos⟩
  | revokeAll agentId => exact ⟨rfl, same.revokeAll agentId⟩
  | validate agentId skillName now =>
      refine ⟨?_, same.validate agentId skillName now⟩
      have passed := timely now rfl
      simp only [CapabilityManager.reply]
      rw [validated_eq_head, validated_eq_head, same _ now passed]
  | activeCount now =>
      refine ⟨?_, same⟩
      have passed := timely now rfl
      exact congrArg Reply.counted (same.activeCount passed)
  | agentTokens agentId now =>
      refine ⟨?_, same⟩
      have passed := timely now rfl
      apply congrArg Reply.listed
      exact Multiset.coe_eq_coe.mpr (same.agentTokens passed agentId)
  | cleanup now => cases kept

theorem clock_le_afterCall {state : Clocked} {request : Request}
    (timely : Timely state request) :
    state.clock ≤ (afterCall serveClocked state request).clock := by
  simp only [afterCall, serveClocked]
  cases read : request.reading with
  | none => exact Nat.le_refl _
  | some now => exact timely now read

theorem unseen_cleanup :
    Unseen serveClocked (fun request => !request.isCleanup) Alike Timely where
  answer left right request alike timely selected := by
    have kept : request.isCleanup = false := by
      simpa using selected
    exact (alike.2.reply timely kept).1
  both left right request alike timely selected := by
    have kept : request.isCleanup = false := by
      simpa using selected
    obtain ⟨behind, same⟩ := alike
    refine ⟨?_, ?_⟩
    · simp only [afterCall, serveClocked]
      cases request.reading with
      | none => exact behind
      | some now => exact Nat.le_refl now
    · have next := (same.reply timely kept).2
      exact next.later (clock_le_afterCall timely)
  alone left right request alike timely selected := by
    have dropped : request.isCleanup = true := by
      simpa using selected
    obtain ⟨behind, same⟩ := alike
    refine ⟨behind.trans (clock_le_afterCall timely), ?_⟩
    cases request with
    | cleanup now => exact same.cleanup (timely now rfl)
    | _ => cases dropped

/-- With a clock that does not go back, a run answers every request but its
cleanups as the run without them does. -/
theorem cleanup_invisible (manager : CapabilityManager) (clock : Nat)
    {requests : List Request}
    (timely : EachCall (afterCall serveClocked) Timely ⟨manager, clock⟩
      requests) :
    answersTo serveClocked (fun request => !request.isCleanup)
        ⟨manager, clock⟩ requests =
      answers serveClocked ⟨manager, clock⟩
        (requests.filter fun request => !request.isCleanup) := by
  apply unseen_cleanup.answersTo_eq _ timely
  exact ⟨Nat.le_refl clock, fun _ _ _ => rfl⟩

/-- A cleanup drops an expired token and a revoked one between two
validations. -/
theorem cleanup_invisible_example :
    let requests : List Request :=
      [.issue "a" "web_search" {} 10 100 1, .issue "a" "web_search" {} 0 101 2,
        .issue "b" "file_system" {} 0 101 3, .revokeAll "b",
        .validate "a" "web_search" 105, .cleanup 120,
        .validate "a" "web_search" 120, .agentTokens "a" 121,
        .activeCount 121]
    answersTo serveClocked (fun request => !request.isCleanup)
        ⟨new, 0⟩ requests =
      answers serveClocked ⟨new, 0⟩
        (requests.filter fun request => !request.isCleanup) := by
  intro requests
  apply cleanup_invisible new 0
  have ordered : EachCall (afterCall serveClocked) Timely ⟨new, 0⟩
      requests := by
    simp [requests, EachCall, Timely, Request.reading, afterCall, serveClocked]
  exact ordered

end CapabilityManager

end Ughi.Sandbox
