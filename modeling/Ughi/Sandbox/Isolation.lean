import Ughi.Lib.Run
import Ughi.Sandbox.Capability

/-!
# When validation isolates agents

The ledger lists every token a manager issued, in order, with the revocations
that reached it.  The valid tokens of a bucket are those of the ledger under
its key text.  Several pairs of names share one key text, so validation answers
for the requested pair exactly when no token issued to another pair of that
text stands first.
-/

namespace Ughi.Sandbox

open Ughi.Lib

/-- The token was issued to exactly this pair. -/
def CapabilityToken.IssuedTo (token : CapabilityToken)
    (agentId skillName : String) : Prop :=
  token.agentId = agentId ∧ token.skillName = skillName

theorem CapabilityToken.IssuedTo.key_eq {token : CapabilityToken}
    {agentId skillName : String} (own : token.IssuedTo agentId skillName) :
    token.key = capKey agentId skillName := by
  rw [key, own.1, own.2]

/-- Skill names without a colon leave one reading of a key text. -/
theorem capKey_inj {agentId skillName agentId' skillName' : String}
    (plain : ':' ∉ skillName.toList) (plain' : ':' ∉ skillName'.toList)
    (same : capKey agentId skillName = capKey agentId' skillName') :
    agentId = agentId' ∧ skillName = skillName' := by
  have characters := congrArg String.toList same
  simp only [capKey, String.toList_append] at characters
  have joined : agentId.toList ++ ':' :: skillName.toList =
      agentId'.toList ++ ':' :: skillName'.toList := by
    simpa using characters
  obtain ⟨agents, skills⟩ := append_cons_inj_of_notMem plain plain' joined
  exact ⟨String.toList_inj.mp agents, String.toList_inj.mp skills⟩

namespace CapabilityManager

inductive Call where
  | issue (agentId skillName : String) (scope : CapabilityScope)
      (ttlMs now : Nat) (nanos : UInt64)
  | validate (agentId skillName : String) (now : Nat)
  | revokeToken (tokenId : String) (order : List String)
  | revokeAll (agentId : String)
  | cleanup (now : Nat)

def serve (manager : CapabilityManager) : Call → CapabilityManager
  | .issue agentId skillName scope ttlMs now nanos =>
      (manager.issue agentId skillName scope ttlMs now nanos).2
  | .validate agentId skillName now =>
      (manager.validate agentId skillName now).2
  | .revokeToken tokenId order => (manager.revokeToken tokenId order).2
  | .revokeAll agentId => manager.revokeAll agentId
  | .cleanup now => manager.cleanup now

/-- A manager, the tokens it issued and the last reading of its clock. -/
structure Tracked where
  manager : CapabilityManager
  ledger : List CapabilityToken
  clock : Nat

def Tracked.fresh : Tracked :=
  { manager := .new
    ledger := []
    clock := 0 }

def enter (ledger : List CapabilityToken) : Call → List CapabilityToken
  | .issue agentId skillName scope ttlMs now nanos =>
      ledger ++ [issuedToken agentId skillName scope ttlMs now nanos]
  | .revokeToken tokenId _ =>
      ledger.map (CapabilityToken.revokeIf fun token => token.id = tokenId)
  | .revokeAll agentId =>
      ledger.map
        (CapabilityToken.revokeIf fun token => token.agentId = agentId)
  | .validate _ _ _ | .cleanup _ => ledger

/-- The clock after a call. -/
def tick (clock : Nat) : Call → Nat
  | .issue _ _ _ _ now _ | .validate _ _ now | .cleanup now => now
  | .revokeToken _ _ | .revokeAll _ => clock

def serveTracked (state : Tracked) (call : Call) : Tracked :=
  { manager := state.manager.serve call
    ledger := enter state.ledger call
    clock := tick state.clock call }

/-- The clock does not go back and an issue draws a fresh identifier. -/
def Orderly (state : Tracked) (call : Call) : Prop :=
  state.clock ≤ tick state.clock call ∧
    match call with
    | .issue agentId skillName _ _ _ nanos =>
        ∀ token ∈ state.ledger,
          token.id ≠ generateTokenId agentId skillName nanos
    | _ => True

/-- Validation succeeds exactly when a token issued to the pair is unrevoked
and unexpired, and answers with a token of the pair. -/
def Isolates (state : Tracked) (agentId skillName : String) (now : Nat) :
    Prop :=
  ((∃ token, (state.manager.validate agentId skillName now).1 = .ok token) ↔
      ∃ token ∈ state.ledger,
        token.IssuedTo agentId skillName ∧ token.isValid now = true) ∧
    ∀ token, (state.manager.validate agentId skillName now).1 = .ok token →
      token.IssuedTo agentId skillName

/-- A valid token of another pair with the same key text was issued after a
valid token of the pair itself. -/
def OwnIssuedFirst (ledger : List CapabilityToken)
    (agentId skillName : String) (now : Nat) : Prop :=
  ∀ before token after, ledger = before ++ token :: after →
    token.isValid now = true → token.key = capKey agentId skillName →
      ¬ token.IssuedTo agentId skillName →
        ∃ own ∈ before,
          own.IssuedTo agentId skillName ∧ own.isValid now = true

/-- Every bucket is a part of the ledger and has its valid tokens under the
key text. -/
structure Files (state : Tracked) : Prop where
  inside : ∀ key, (state.manager.tokens.bucket key).Sublist
    (state.ledger.filter fun token => token.key = key)
  live : ∀ key now, state.clock ≤ now →
    ((state.manager.tokens.bucket key).filter fun token =>
        token.isValid now) =
      (state.ledger.filter fun token => token.key = key).filter
        fun token => token.isValid now
  distinct : (state.ledger.map CapabilityToken.id).Nodup

theorem files_fresh : Files .fresh where
  inside _ := List.nil_sublist _
  live _ _ _ := rfl
  distinct := List.nodup_nil

theorem filter_key_map_revokeIf (hit : CapabilityToken → Bool)
    (tokens : List CapabilityToken) (key : String) :
    (tokens.map (CapabilityToken.revokeIf hit)).filter
        (fun token => token.key = key) =
      (tokens.filter fun token => token.key = key).map
        (CapabilityToken.revokeIf hit) := by
  rw [List.filter_map]
  apply congrArg (List.map (CapabilityToken.revokeIf hit))
  apply congrArg (List.filter · tokens)
  funext token
  simp

section Steps

variable {state : Tracked}

theorem Files.mem_ledger (files : Files state) {key : String}
    {token : CapabilityToken}
    (member : token ∈ state.manager.tokens.bucket key) :
    token ∈ state.ledger ∧ token.key = key := by
  have filed := (files.inside key).subset member
  simpa using filed

theorem Files.revokeIf (files : Files state) {hit : CapabilityToken → Bool}
    {manager : CapabilityManager}
    (reached : ∀ key, manager.tokens.bucket key =
      (state.manager.tokens.bucket key).map (CapabilityToken.revokeIf hit)) :
    Files
      { manager := manager
        ledger := state.ledger.map (CapabilityToken.revokeIf hit)
        clock := state.clock } where
  inside key := by
    rw [reached key, filter_key_map_revokeIf]
    exact (files.inside key).map _
  live key now later := by
    rw [reached key, filter_key_map_revokeIf,
      CapabilityToken.filter_isValid_map_revokeIf,
      CapabilityToken.filter_isValid_map_revokeIf, files.live key now later]
  distinct := by
    have sameIds : CapabilityToken.id ∘ CapabilityToken.revokeIf hit =
        CapabilityToken.id := by
      funext token
      exact CapabilityToken.revokeIf_id
    rw [List.map_map, sameIds]
    exact files.distinct

theorem Files.revokeToken (files : Files state) (tokenId : String)
    (order : List String) (key : String) :
    (state.manager.revokeToken tokenId order).2.tokens.bucket key =
      (state.manager.tokens.bucket key).map
        (CapabilityToken.revokeIf fun token => token.id = tokenId) := by
  apply bucket_revokeToken
  · intro key
    have filed : (state.manager.tokens.bucket key).Sublist state.ledger :=
      (files.inside key).trans List.filter_sublist
    exact files.distinct.sublist (filed.map CapabilityToken.id)
  · intro key other token member twin twinMember sameId
    obtain ⟨inside, tokenKey⟩ := files.mem_ledger member
    obtain ⟨twinInside, twinKey⟩ := files.mem_ledger twinMember
    have same := List.inj_on_of_nodup_map files.distinct inside twinInside
      sameId
    rw [← tokenKey, same, twinKey]

theorem Files.issue (files : Files state) {agentId skillName : String}
    {scope : CapabilityScope} {ttlMs now : Nat} {nanos : UInt64}
    (orderly : Orderly state
      (.issue agentId skillName scope ttlMs now nanos)) :
    Files (serveTracked state
      (.issue agentId skillName scope ttlMs now nanos)) where
  inside key := by
    simp only [serveTracked, serve, enter]
    rw [bucket_issue, List.filter_append]
    exact (files.inside key).append (List.Sublist.refl _)
  live key reading later := by
    have before : state.clock ≤ reading := Nat.le_trans orderly.1 later
    simp only [serveTracked, serve, enter]
    rw [bucket_issue, List.filter_append, List.filter_append,
      List.filter_append, files.live key reading before]
  distinct := by
    have fresh := orderly.2
    simp only [serveTracked, enter, List.map_append]
    apply List.Nodup.append files.distinct (List.nodup_singleton _)
    intro id member again
    obtain ⟨token, inside, rfl⟩ := List.mem_map.mp member
    exact fresh token inside (List.mem_singleton.mp again)

theorem Files.cleanup (files : Files state) {now : Nat}
    (orderly : Orderly state (.cleanup now)) :
    Files (serveTracked state (.cleanup now)) where
  inside key := by
    simp only [serveTracked, serve, enter]
    rw [bucket_cleanup]
    exact List.filter_sublist.trans (files.inside key)
  live key reading later := by
    have before : state.clock ≤ reading := Nat.le_trans orderly.1 later
    simp only [serveTracked, serve, enter]
    rw [bucket_cleanup, List.filter_filter, ← files.live key reading before]
    apply List.filter_congr
    intro token _
    -- A token valid at the later reading survived the cleanup.
    cases valid : token.isValid reading with
    | false => rfl
    | true =>
        have early : token.isValid now = true :=
          CapabilityToken.isValid_of_le later valid
        simp [early]
  distinct := files.distinct

theorem serveTracked_files (files : Files state) {call : Call}
    (orderly : Orderly state call) : Files (serveTracked state call) := by
  cases call with
  | issue agentId skillName scope ttlMs now nanos => exact files.issue orderly
  | validate agentId skillName now =>
      have same := tokens_validate state.manager agentId skillName now
      constructor
      · intro key
        simp only [serveTracked, serve, enter, same]
        exact files.inside key
      · intro key reading later
        simp only [serveTracked, serve, enter, same]
        exact files.live key reading (Nat.le_trans orderly.1 later)
      · exact files.distinct
  | revokeToken tokenId order =>
      exact files.revokeIf (files.revokeToken tokenId order)
  | revokeAll agentId =>
      exact files.revokeIf (bucket_revokeAll state.manager agentId)
  | cleanup now => exact files.cleanup orderly

theorem Files.validate_eq_ok_iff (files : Files state)
    {agentId skillName : String} {now : Nat} (later : state.clock ≤ now)
    {token : CapabilityToken} :
    (state.manager.validate agentId skillName now).1 = .ok token ↔
      (state.ledger.find? fun token =>
          token.key = capKey agentId skillName && token.isValid now) =
        some token := by
  rw [CapabilityManager.validate_eq_ok_iff, ← List.head?_filter,
    files.live _ now later, List.filter_filter, List.head?_filter]
  simp only [Bool.and_comm]

theorem isolates_iff_ownIssuedFirst (files : Files state)
    {agentId skillName : String} {now : Nat} (later : state.clock ≤ now) :
    Isolates state agentId skillName now ↔
      OwnIssuedFirst state.ledger agentId skillName now := by
  simp only [Isolates, files.validate_eq_ok_iff later]
  constructor
  · intro isolates before token after ledger valid sameKey foreign
    obtain ⟨_, answers⟩ := isolates
    rw [ledger, List.find?_append] at answers
    cases found : before.find? fun token =>
        token.key = capKey agentId skillName && token.isValid now with
    | none =>
        rw [found, List.find?_cons_of_pos (by simp [sameKey, valid])]
          at answers
        exact absurd (answers token rfl) foreign
    | some own =>
        rw [found] at answers
        have holds := List.find?_some found
        rw [Bool.and_eq_true] at holds
        exact ⟨own, List.mem_of_find?_eq_some found, answers own rfl,
          holds.2⟩
  · intro ownFirst
    have answers : ∀ token, (state.ledger.find? fun token =>
          token.key = capKey agentId skillName && token.isValid now) =
            some token →
        token.IssuedTo agentId skillName := by
      intro token found
      by_contra foreign
      obtain ⟨holds, before, after, ledger, passed⟩ :=
        List.find?_eq_some_iff_append.mp found
      rw [Bool.and_eq_true, decide_eq_true_eq] at holds
      obtain ⟨own, member, mine, valid⟩ :=
        ownFirst before token after ledger holds.2 holds.1 foreign
      have skipped := passed own member
      simp [mine.key_eq, valid] at skipped
    refine ⟨⟨?_, ?_⟩, answers⟩
    · intro validated
      obtain ⟨token, found⟩ := validated
      have holds := List.find?_some found
      rw [Bool.and_eq_true] at holds
      exact ⟨token, List.mem_of_find?_eq_some found, answers token found,
        holds.2⟩
    · intro owned
      obtain ⟨own, member, mine, valid⟩ := owned
      apply Option.isSome_iff_exists.mp
      apply List.find?_isSome.mpr
      exact ⟨own, member, by simp [mine.key_eq, valid]⟩

/-- Skill names without a colon are enough. -/
theorem ownIssuedFirst_of_colonFree {ledger : List CapabilityToken}
    {agentId skillName : String} (now : Nat)
    (plain : ':' ∉ skillName.toList)
    (allPlain : ∀ token ∈ ledger, ':' ∉ token.skillName.toList) :
    OwnIssuedFirst ledger agentId skillName now := by
  intro before token after ledgerEq _ sameKey foreign
  have member : token ∈ ledger := by simp [ledgerEq]
  exact absurd (capKey_inj (allPlain token member) plain sameKey) foreign

end Steps

/-- After every orderly run, validation of a pair isolates it exactly when no
token of another pair with the same key text comes first. -/
theorem isolates_afterRun_iff (calls : List Call)
    (orderly : EachCall serveTracked Orderly .fresh calls)
    (agentId skillName : String) (now : Nat)
    (later : (runCalls serveTracked .fresh calls).clock ≤ now) :
    Isolates (runCalls serveTracked .fresh calls) agentId skillName now ↔
      OwnIssuedFirst (runCalls serveTracked .fresh calls).ledger agentId
        skillName now := by
  have preserved : ∀ state call, Files state → Orderly state call →
      Files (serveTracked state call) :=
    fun _ _ files orderly => serveTracked_files files orderly
  have files : Files (runCalls serveTracked .fresh calls) :=
    invariant_of_eachCall preserved files_fresh orderly
  exact isolates_iff_ownIssuedFirst files later

/-- Tokens for four pairs, two of which share a key text, with a revocation
of one agent, an expiry and a cleanup between them. -/
def sharedKeyCalls : List Call :=
  [.issue "a" "b:c" {} 0 5000 7, .issue "d" "web" {} 900 5000 8,
    .issue "a:b" "c" {} 0 5000 9, .validate "a:b" "c" 5100,
    .issue "a" "b:c" {} 100 5200 10, .revokeAll "d",
    .issue "e" "web" {} 0 5300 11, .cleanup 6000]

theorem isolates_afterRun_sharedKey :
    EachCall serveTracked Orderly .fresh sharedKeyCalls ∧
      (runCalls serveTracked .fresh sharedKeyCalls).clock ≤ 7000 ∧
      (Isolates (runCalls serveTracked .fresh sharedKeyCalls) "a" "b:c"
          7000 ↔
        OwnIssuedFirst (runCalls serveTracked .fresh sharedKeyCalls).ledger
          "a" "b:c" 7000) := by
  have orderly : EachCall serveTracked Orderly .fresh sharedKeyCalls := by
    refine ⟨⟨by decide, ?_⟩, ⟨by decide, ?_⟩, ⟨by decide, ?_⟩,
      ⟨by decide, trivial⟩, ⟨by decide, ?_⟩, ⟨by decide, trivial⟩,
      ⟨by decide, ?_⟩, ⟨by decide, trivial⟩, trivial⟩
    all_goals
      intro token member
      revert token
      decide +kernel
  have later :
      (runCalls serveTracked .fresh sharedKeyCalls).clock ≤ 7000 := by
    decide
  exact ⟨orderly, later,
    isolates_afterRun_iff sharedKeyCalls orderly "a" "b:c" 7000 later⟩

/-- A token issued for one pair answers for another pair of its key text. -/
theorem neighbour_validated :
    ¬ ∀ (calls : List Call),
        EachCall serveTracked Orderly .fresh calls →
          ∀ (agentId skillName : String) (now : Nat),
            (runCalls serveTracked .fresh calls).clock ≤ now →
              Isolates (runCalls serveTracked .fresh calls) agentId skillName
                now := by
  intro claimed
  let calls : List Call := [.issue "a:b" "c" {} 0 1000 7]
  have orderly : EachCall serveTracked Orderly .fresh calls :=
    ⟨⟨by decide, by simp [Tracked.fresh]⟩, trivial⟩
  have isolates := claimed calls orderly "a" "b:c" 1000 (by decide)
  have granted : ((runCalls serveTracked .fresh calls).manager.validate "a"
      "b:c" 1000).1 = .ok (issuedToken "a:b" "c" {} 0 1000 7) := rfl
  have own := isolates.2 _ granted
  have sameAgent : "a:b" = "a" := own.1
  exact absurd sameAgent (by decide)

end CapabilityManager

end Ughi.Sandbox
