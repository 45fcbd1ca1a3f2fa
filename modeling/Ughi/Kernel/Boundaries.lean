import Ughi.Evolution.Boundaries
import Ughi.Inference.Reflect

/-!
# Texts that are not English

Prompts, goals and errors are cut after a fixed number of bytes.  A text whose
characters take one byte each can be cut anywhere, and another only between
its characters.
-/

namespace Ughi.Kernel

open Ughi.Lib
open Ughi.Evolution (EvolutionEngine TaskReport)
open Ughi.Inference (ReflectionEngine)

def truncate (s : String) (max : Nat) : Option String :=
  elide s max

/-- What is asked of the reflection, of the evolution engine and of the kernel
is answered exactly when no character straddles a byte where the text is
cut. -/
theorem returns_iff (toLowercase : String → String) :
    (∀ (engine : ReflectionEngine) (prompt response : String),
      (engine.reflect toLowercase prompt response).isSome = true ↔
        (engine.confidenceThreshold.exceeds
            (ReflectionEngine.assessQuality toLowercase prompt response) =
              true →
          ¬ Straddled prompt 100)) ∧
    (∀ (engine : EvolutionEngine) (task : TaskReport) (now : UInt64),
      (engine.onTaskComplete toLowercase task now).isSome = true ↔
        task.Quotable toLowercase ∧
          engine.patterns.HasRoom toLowercase task.goal
            task.expertPersona) ∧
    (∀ (engine : EvolutionEngine) (order : List String),
      (engine.evolve order).isSome = true ↔
        ∀ lesson ∈ engine.lessons.lessons, lesson.succeeded = false →
          ¬ Straddled lesson.rootCause 40) ∧
    (∀ calls : List EvolutionEngine.Call, calls.length < 2 ^ 64 →
      ((EvolutionEngine.after toLowercase calls).isSome = true ↔
        ∀ served call, served ++ [call] <+: calls →
          EvolutionEngine.CallUncut toLowercase served call)) ∧
    (∀ (s : String) (max : Nat),
      (truncate s max).isSome = true ↔ Elidable s max) := by
  refine ⟨?_, ?_, ?_, ?_, ?_⟩
  · intro engine prompt response
    exact ReflectionEngine.reflect_isSome_iff
  · intro engine task now
    exact EvolutionEngine.onTaskComplete_isSome_iff
  · intro engine order
    exact EvolutionEngine.evolve_isSome_iff
  · intro calls few
    exact EvolutionEngine.after_isSome_iff few
  · intro s max
    exact elide_isSome_iff

/-- A goal of 34 Devanagari letters panics as a prompt, as the goal of a task
and on the screen, and ten such letters as an error in the next cycle. -/
theorem devanagari_texts_panic :
    let goal := String.ofList (List.replicate 34 'न')
    let error := String.ofList (List.replicate 10 'न')
    let task := fun succeeded goal errorMsg =>
      ({ agentId := "agent"
         goal
         expertPersona := "fullstack-dev"
         skillsUsed := []
         succeeded
         errorMsg
         executionMs := 100 } : TaskReport)
    (ReflectionEngine.new.reflect id goal "").isSome = false ∧
      (EvolutionEngine.new.onTaskComplete id (task true goal none)
        0).isSome = false ∧
      (EvolutionEngine.after id
        [.onTaskComplete (task false "build" (some error)) 0]).isSome =
          true ∧
      (EvolutionEngine.after id
        [.onTaskComplete (task false "build" (some error)) 0,
          .evolve []]).isSome = false ∧
      (truncate goal 37).isSome = false := by
  decide +kernel

end Ughi.Kernel
