import Ughi.Lib.Binary64
import Ughi.Lib.Multimap
import Ughi.Lib.Words

/-!
# Usage patterns and their win rates

The experts used for goals and how often they won.  A further execution counts
for the first pattern of its expert that shares a keyword with the goal, and
makes a new one when there is none.
-/

namespace Ughi.Evolution

open Ughi.Lib
open Ughi.Lib.Binary64

/-- A tracked usage pattern. -/
structure UsagePattern where
  id : Nat
  goalKeywords : List String
  expertPersona : String
  skillsUsed : List String
  successCount : UInt64
  failureCount : UInt64
  avgExecutionMs : UInt64
  lastUsedMs : UInt64
deriving DecidableEq, Repr

/-- Win rate for this pattern. -/
def UsagePattern.winRate (pattern : UsagePattern) : ℚ :=
  let total := pattern.successCount + pattern.failureCount
  if total = 0 then 0
  else nearest (nearest pattern.successCount.toNat / nearest total.toNat)

/-- Whether a goal with these keywords, for this expert, belongs to the
pattern. -/
def UsagePattern.isMatch (pattern : UsagePattern) (keywords : List String)
    (expert : String) : Bool :=
  decide (pattern.expertPersona = expert) &&
    keywords.any fun k => pattern.goalKeywords.contains k

/-- One more execution; `none` is the division by a total of zero. -/
def UsagePattern.update (pattern : UsagePattern) (succeeded : Bool)
    (executionMs now : UInt64) : Option UsagePattern :=
  let pattern :=
    if succeeded then
      { pattern with successCount := pattern.successCount + 1 }
    else { pattern with failureCount := pattern.failureCount + 1 }
  let total := pattern.successCount + pattern.failureCount
  if total = 0 then none
  else
    some { pattern with
      avgExecutionMs :=
        (pattern.avgExecutionMs * (total - 1) + executionMs) / total
      lastUsedMs := now }

def stopWords : List String :=
  ["a", "an", "the", "is", "are", "was", "be", "to", "of", "and", "in",
    "for", "on", "with", "at", "by", "from", "it", "this", "that", "my",
    "mera", "karo", "banao", "kar", "do", "hai", "ko", "se", "me", "ke",
    "ka", "ki"]

/-- Extract meaningful keywords from a goal string. -/
def extractKeywords (toLowercase : String → String) (goal : String) :
    List String :=
  let words := (splitWhitespace (toLowercase goal).toList).map String.ofList
  (words.filter fun w =>
    decide (2 < w.utf8ByteSize) && !stopWords.contains w).take 10

/-- Pattern tracker. -/
structure PatternTracker where
  patterns : List UsagePattern
  keywordIndex : HashMap String (List Nat)
  nextId : Nat

namespace PatternTracker

def new : PatternTracker :=
  { patterns := []
    keywordIndex := ∅
    nextId := 1 }

/-- The first pattern a goal belongs to, with its place. -/
def findMatching (tracker : PatternTracker) (keywords : List String)
    (expert : String) : Option (Nat × UsagePattern) :=
  (tracker.patterns.findIdx? fun p => p.isMatch keywords expert).bind
    fun index => tracker.patterns[index]?.map fun p => (index, p)

/-- Record a task execution as a pattern. -/
def record (toLowercase : String → String) (tracker : PatternTracker)
    (goal expertPersona : String) (skillsUsed : List String)
    (succeeded : Bool) (executionMs now : UInt64) : Option PatternTracker :=
  let keywords := extractKeywords toLowercase goal
  match tracker.findMatching keywords expertPersona with
  | some (index, pattern) =>
      (pattern.update succeeded executionMs now).map fun updated =>
        { tracker with patterns := tracker.patterns.set index updated }
  | none =>
      let id := tracker.nextId
      some
        { patterns := tracker.patterns ++
            [{ id
               goalKeywords := keywords
               expertPersona
               skillsUsed
               successCount := if succeeded then 1 else 0
               failureCount := if succeeded then 0 else 1
               avgExecutionMs := executionMs
               lastUsedMs := now }]
          keywordIndex := HashMap.pushAll tracker.keywordIndex keywords id
          nextId := tracker.nextId + 1 }

/-- Get top-N winning patterns (highest win rate with minimum 2 runs). -/
def topPatterns (tracker : PatternTracker) (n : Nat) : List UsagePattern :=
  let eligible := tracker.patterns.filter fun p =>
    decide (p.successCount + p.failureCount ≥ 2)
  (eligible.mergeSort fun a b => decide (b.winRate ≤ a.winRate)).take n

/-- Overall system win rate. -/
def systemWinRate (tracker : PatternTracker) : ℚ :=
  let totalS := (tracker.patterns.map UsagePattern.successCount).foldl
    (· + ·) 0
  let totalF := (tracker.patterns.map UsagePattern.failureCount).foldl
    (· + ·) 0
  let total := totalS + totalF
  if total = 0 then 1
  else nearest (nearest totalS.toNat / nearest total.toNat)

end PatternTracker

end Ughi.Evolution
