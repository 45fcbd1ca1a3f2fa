import Ughi.Integrity.Verifier
import Ughi.Lib.Run

/-!
# When the install gate judges what it is given

A cached result answers for an hour whatever the content, the author, the
integrity information or the registered keys have become.  Each cached result
is the fresh verdict on the arguments and keys of the call that filled it, so
the gate judges a call rightly exactly when that call deserved the same
verdict.
-/

namespace Ughi.Integrity

open Ughi.Lib

namespace IntegrityVerifier

/-- The call that filled a cache entry, and the keys it met. -/
structure Filling where
  trustedKeys : TrustedKeys
  author : String
  contentBytes : List UInt8
  integrity : IntegrityInfo
  now : Nat

def Filling.verdict (filling : Filling) (slug : String) :
    VerificationResult :=
  judge filling.trustedKeys slug filling.author filling.contentBytes
    filling.integrity filling.now

/-- A verifier, and the call that filled each of its cache entries. -/
structure Tracked where
  verifier : IntegrityVerifier
  filled : String → Option Filling

def Tracked.fresh : Tracked :=
  { verifier := .new
    filled := fun _ => none }

def track (state : Tracked) : Call → String → Option Filling
  | .verify slug author contentBytes integrity now => fun other =>
      if other = slug ∧ state.verifier.freshResult slug now = none then
        some
          { trustedKeys := state.verifier.trustedKeys
            author := author
            contentBytes := contentBytes
            integrity := integrity
            now := now }
      else state.filled other
  | .clearCache => fun _ => none
  | _ => state.filled

def serveTracked (state : Tracked) (call : Call) : Tracked :=
  { verifier := state.verifier.serve call
    filled := track state call }

/-- The gate passes the call exactly when its own arguments pass every
check. -/
def JudgesArguments (state : Tracked) : Call → Prop
  | .verify slug author contentBytes integrity now =>
      (state.verifier.verify slug author contentBytes integrity
          now).1.overallPass = true ↔
        Passes state.verifier.trustedKeys author contentBytes integrity
  | _ => True

/-- The call that filled a still valid cache entry of the slug passed every
check exactly when this call does. -/
def SameVerdict (state : Tracked) : Call → Prop
  | .verify slug author contentBytes integrity now =>
      ∀ filling, state.filled slug = some filling →
        now - filling.now < cacheValidMs →
          (Passes filling.trustedKeys filling.author filling.contentBytes
              filling.integrity ↔
            Passes state.verifier.trustedKeys author contentBytes integrity)
  | _ => True

/-- Every cached result is the verdict on the call that filled it. -/
def CachesVerdicts (state : Tracked) : Prop :=
  ∀ slug, state.verifier.cache.lookup slug =
    (state.filled slug).map fun filling => filling.verdict slug

theorem cachesVerdicts_fresh : CachesVerdicts .fresh := by
  intro slug
  rfl

section Steps

variable {state : Tracked}

theorem freshResult_eq (caches : CachesVerdicts state) (slug : String)
    (now : Nat) :
    state.verifier.freshResult slug now =
      ((state.filled slug).filter fun filling =>
          now - filling.now < cacheValidMs).map
        fun filling => filling.verdict slug := by
  rw [freshResult, caches slug]
  cases state.filled slug with
  | none => rfl
  | some filling =>
      simp only [Option.map_some, Option.filter_some, Filling.verdict,
        judge_checkedAtMs]
      split
      · rfl
      · rfl

theorem serveTracked_cachesVerdicts (caches : CachesVerdicts state)
    (call : Call) : CachesVerdicts (serveTracked state call) := by
  intro other
  cases call with
  | registerKey author pubkey => exact caches other
  | signSkill author contentBytes now => exact caches other
  | clearCache => rfl
  | verify slug author contentBytes integrity now =>
      simp only [serveTracked, serve, track]
      cases found : state.verifier.freshResult slug now with
      | some cached =>
          rw [verify_of_fresh found]
          simpa using caches other
      | none =>
          rw [verify_of_stale found, record]
          dsimp only
          rw [HashMap.lookup_insert_eq]
          by_cases same : other = slug
          · subst same
            simp [Filling.verdict]
          · simpa [same] using caches other

/-- The gate judges a call rightly exactly when the call whose result it
serves deserved the same verdict. -/
theorem judgesArguments_iff_sameVerdict (caches : CachesVerdicts state)
    (call : Call) : JudgesArguments state call ↔ SameVerdict state call := by
  cases call with
  | registerKey author pubkey => exact Iff.rfl
  | signSkill author contentBytes now => exact Iff.rfl
  | clearCache => exact Iff.rfl
  | verify slug author contentBytes integrity now =>
      have fresh := freshResult_eq caches slug now
      rw [JudgesArguments, SameVerdict]
      cases filled : state.filled slug with
      | none =>
          rw [filled] at fresh
          rw [verify_of_stale fresh]
          exact iff_of_true judge_overallPass_iff (by simp)
      | some filling =>
          rw [filled, Option.filter_some] at fresh
          by_cases valid : now - filling.now < cacheValidMs
          · rw [if_pos (decide_eq_true valid), Option.map_some,
              Filling.verdict] at fresh
            rw [verify_of_fresh fresh, judge_overallPass_iff]
            constructor
            · intro agree other same _
              cases same
              exact agree
            · intro agree
              exact agree filling rfl valid
          · rw [if_neg (by simpa using valid)] at fresh
            rw [verify_of_stale fresh]
            apply iff_of_true judge_overallPass_iff
            intro other same young
            cases same
            exact absurd young valid

end Steps

/-- In a history of any calls, every verdict of the gate is right exactly when
every call meets `SameVerdict`. -/
theorem judgesArguments_eachCall_iff (calls : List Call) :
    EachCall serveTracked JudgesArguments .fresh calls ↔
      EachCall serveTracked SameVerdict .fresh calls := by
  have agree : ∀ state call, CachesVerdicts state →
      (JudgesArguments state call ↔ SameVerdict state call) :=
    fun _ call caches => judgesArguments_iff_sameVerdict caches call
  have kept : ∀ state call, CachesVerdicts state → SameVerdict state call →
      CachesVerdicts (serveTracked state call) :=
    fun _ call caches _ => serveTracked_cachesVerdicts caches call
  exact eachCall_congr kept agree cachesVerdicts_fresh calls

/-- A well signed package, and then other bytes without a signature under the
same slug: the gate passes both. -/
theorem cached_pass_covers_unverified :
    ¬ ∀ (calls : List Call) (slug author : String)
        (contentBytes : List UInt8) (integrity : IntegrityInfo) (now : Nat),
      ((runCalls serve new calls).verify slug author contentBytes integrity
          now).1.overallPass = true →
        Passes (runCalls serve new calls).trustedKeys author contentBytes
          integrity := by
  intro claimed
  let signed : IntegrityInfo :=
    { sha256 := sha256Hex [1, 2, 3]
      signature := String.ofList (List.replicate 128 'a')
      authorPubkey := "key"
      vtStatus := .clean
      verifiedAtMs := 1000
      verified := true }
  let keyed := new.registerKey "acme" "key"
  have passes : Passes keyed.trustedKeys "acme" [1, 2, 3] signed :=
    { hash := rfl
      key := AList.lookup_insert new.trustedKeys
      signature := by
        rw [WellFormedSignature, String.toList_ofList]
        exact ⟨List.length_replicate, fun c member =>
          (List.eq_of_mem_replicate member) ▸ rfl⟩
      scan := .inl rfl }
  let second := keyed.serve (.verify "skill" "acme" [1, 2, 3] signed 1000)
  let verdict := judge keyed.trustedKeys "skill" "acme" [1, 2, 3] signed 1000
  have first : verdict.overallPass = true := judge_overallPass_iff.mpr passes
  have cached : second.freshResult "skill" 2000 = some verdict := by
    have stale : keyed.freshResult "skill" 1000 = none := rfl
    simp only [second, serve]
    rw [verify_of_stale stale, freshResult, record, AList.lookup_insert,
      Option.filter_some, judge_checkedAtMs]
    rfl
  have wrong : (second.verify "skill" "acme" [6, 6, 6] .unverified
        2000).1.overallPass = true →
      Passes second.trustedKeys "acme" [6, 6, 6] .unverified :=
    claimed
      [.registerKey "acme" "key",
        .verify "skill" "acme" [1, 2, 3] signed 1000]
      "skill" "acme" [6, 6, 6] .unverified 2000
  rw [verify_of_fresh cached] at wrong
  rcases (wrong first).scan with clean | unavailable
  · cases clean
  · cases unavailable

end IntegrityVerifier

end Ughi.Integrity
