import Ughi.Lib.Binary64
import Ughi.Lib.Text
import Ughi.Lib.Words

/-!
# Reflection on a response

A response is given a confidence, and a suggestion quotes the prompt when the
confidence is below the threshold of the engine.  Confidences are numbers in
single precision.
-/

namespace Ughi.Inference

open Ughi.Lib
open Ughi.Lib.Binary32
open Ughi.Lib.Binary64 (Double roundEven)

structure ReflectionResult where
  critique : String
  confidence : ℚ
  shouldRevise : Bool
  revisedText : Option String
  reflectionTokens : UInt32
deriving DecidableEq

/-- Reflection engine for self-critique using the same SLM. -/
structure ReflectionEngine where
  confidenceThreshold : Double

namespace ReflectionEngine

def new : ReflectionEngine :=
  { confidenceThreshold := .finite (nearest (7 / 10)) }

def withThreshold (threshold : Double) : ReflectionEngine :=
  { confidenceThreshold := threshold }

def qualityWords : List String :=
  ["because", "therefore", "however", "specifically", "example", "analysis",
    "recommend", "approach"]

/-- Add a constant to a score when a condition holds. -/
def scoreIf (condition : Bool) (amount score : ℚ) : ℚ :=
  if condition then nearest (score + nearest amount) else score

/-- Assess response quality based on heuristics. -/
def assessQuality (toLowercase : String → String) (prompt response : String) :
    ℚ :=
  let promptLen := nearest prompt.utf8ByteSize
  let responseLen := nearest response.utf8ByteSize
  let score := scoreIf (decide (responseLen > nearest (promptLen * 2)))
    (15 / 100) (1 / 2)
  let score := scoreIf (decide (responseLen > nearest (promptLen * 5)))
    (1 / 10) score
  let score := scoreIf (response.toList.contains '\n') (5 / 100) score
  let score := scoreIf (contains response "1." || contains response "- ")
    (1 / 10) score
  let score := qualityWords.foldl (fun score word =>
    scoreIf (contains (toLowercase response) word) (2 / 100) score) score
  if response.toList.all isWhitespace then 0 else max (min score 1) 0

def critiqueText (confidence : ℚ) : String :=
  let verdict :=
    if confidence ≥ nearest (8 / 10) then
      "Response is comprehensive and well-structured. " ++
        "Covers the key aspects of the task. "
    else if confidence ≥ 1 / 2 then
      "Response addresses the task but could be more detailed. " ++
        "Consider elaborating on key points and providing examples. "
    else
      "Response needs significant improvement. " ++
        "Missing key aspects of the task. Recommend regeneration. "
  verdict ++ "Confidence: " ++
    toString (roundEven (nearest (confidence * 100))) ++ "%"

/-- The start of a text; `none` is the panic of a slice that would cut a
character. -/
def truncate (s : String) (maxLen : Nat) : Option String :=
  if s.utf8ByteSize ≤ maxLen then some s else sliceTo s maxLen

def revision (task : String) : String :=
  "[Revised] Based on self-critique, here is an improved response:\n\n" ++
    "The task '" ++ task ++ "' requires a more thorough analysis. " ++
    "Key improvements needed:\n" ++
    "- More specific actionable steps\n" ++
    "- Concrete examples and metrics\n" ++
    "- Risk assessment and mitigation strategies"

/-- Run reflection on a prompt-response pair. -/
def reflect (toLowercase : String → String) (engine : ReflectionEngine)
    (prompt response : String) : Option ReflectionResult :=
  let confidence := assessQuality toLowercase prompt response
  let shouldRevise := engine.confidenceThreshold.exceeds confidence
  let revisedText : Option (Option String) :=
    if shouldRevise then
      (truncate prompt 100).map fun task => some (revision task)
    else some none
  revisedText.map fun revisedText =>
    { critique := critiqueText confidence
      confidence
      shouldRevise
      revisedText
      reflectionTokens := 64 }

theorem truncate_isSome_iff {s : String} {maxLen : Nat} :
    (truncate s maxLen).isSome = true ↔ ¬ Straddled s maxLen := by
  rw [truncate, ← ite_not, isSome_guarded_iff, Nat.not_le,
    sliceTo_isSome_iff, not_straddled_iff]

/-- The engine answers unless it quotes the prompt and would cut a
character. -/
theorem reflect_isSome_iff {toLowercase : String → String}
    {engine : ReflectionEngine} {prompt response : String} :
    (engine.reflect toLowercase prompt response).isSome = true ↔
      (engine.confidenceThreshold.exceeds
          (assessQuality toLowercase prompt response) = true →
        ¬ Straddled prompt 100) := by
  rw [reflect, Option.isSome_map, isSome_guarded_iff, Option.isSome_map,
    truncate_isSome_iff]

end ReflectionEngine

end Ughi.Inference
