import Ughi.Lib.Text

/-!
# Models and their selection

The catalog of model families, the selection of a family by the keywords of a
prompt, and the text a simulated inference returns.  Lower-casing is left open:
it is the parameter `toLowercase`.
-/

namespace Ughi.Inference

open Ughi.Lib

/-- Supported model families for CPU-only inference. -/
inductive ModelFamily where
  | phi3Mini
  | gemma2B
  | qwen1_5B
deriving DecidableEq, Repr

def ModelFamily.display : ModelFamily → String
  | .phi3Mini => "phi-3-mini-3.8B-4bit"
  | .gemma2B => "gemma-2-2B-4bit"
  | .qwen1_5B => "qwen2-1.5B-4bit"

/-- Task complexity level for model auto-selection. -/
inductive TaskComplexity where
  | simple
  | medium
  | complex
deriving DecidableEq, Repr

def TaskComplexity.display : TaskComplexity → String
  | .simple => "simple"
  | .medium => "medium"
  | .complex => "complex"

/-- Configuration for a specific model, with the parameter count as it is
displayed. -/
structure ModelConfig where
  family : ModelFamily
  path : String
  paramCountB : String
  quantBits : UInt8
deriving DecidableEq, Repr

/-- Built-in model catalog. -/
def modelCatalog : List ModelConfig :=
  [{ family := .qwen1_5B
     path := "models/qwen2-1.5b-q4_k_m.gguf"
     paramCountB := "1.5"
     quantBits := 4 },
    { family := .gemma2B
      path := "models/gemma-2-2b-q4_k_m.gguf"
      paramCountB := "2"
      quantBits := 4 },
    { family := .phi3Mini
      path := "models/phi-3-mini-3.8b-q4_k_m.gguf"
      paramCountB := "3.8"
      quantBits := 4 }]

/-- Find model config by family from the catalog. -/
def findModelConfig (family : ModelFamily) : Option ModelConfig :=
  modelCatalog.find? fun m => m.family = family

def complexKeywords : List String :=
  ["plan", "code", "architect", "design", "debug", "strategy", "implement",
    "build", "create", "develop", "refactor", "multi-step", "reasoning",
    "analyze", "banao"]

def mediumKeywords : List String :=
  ["summarize", "translate", "explain", "compare", "review", "describe",
    "evaluate", "assess", "classify"]

/-- Helper: check if a string contains any of the given keywords. -/
def containsAny (text : String) (keywords : List String) : Bool :=
  keywords.any (contains text)

/-- Auto-select the smallest capable model for a given task. -/
def autoSelectModel (toLowercase : String → String) (goal : String) :
    ModelFamily × TaskComplexity :=
  let lower := toLowercase goal
  let complexity : TaskComplexity :=
    if containsAny lower complexKeywords then .complex
    else if containsAny lower mediumKeywords then .medium
    else .simple
  let family : ModelFamily :=
    match complexity with
    | .simple => .qwen1_5B
    | .medium => .gemma2B
    | .complex => .phi3Mini
  (family, complexity)

/-- Inference request: what the engine reads of it. -/
structure InferenceRequest where
  prompt : String
  maxTokens : UInt32
  agentId : String
  modelOverride : Option ModelFamily
  systemPrompt : Option String
deriving DecidableEq, Repr

/-- The text of a simulated inference. -/
def responseText (toLowercase : String → String) (request : InferenceRequest)
    (modelConfig : ModelConfig) : String :=
  let model := modelConfig.family.display
  let system := request.systemPrompt.getD
    "You are UGHI, an efficient AI assistant."
  let complexity :=
    match request.modelOverride with
    | some _ => "targeted"
    | none => (autoSelectModel toLowercase request.prompt).2.display
  "[" ++ model ++ " | CPU-only | simulated]\n\n" ++
    "System: " ++ system ++ "\n\n" ++
    "Task: " ++ request.prompt ++ "\n\n" ++
    "Analysis:\n" ++
    "This task requires " ++ complexity ++ " reasoning. " ++
    "Using " ++ model ++ " (" ++ modelConfig.paramCountB ++ "B params, " ++
    toString modelConfig.quantBits ++ "-bit quantized) " ++
    "for optimal CPU inference.\n\n" ++
    "Response:\n" ++
    "I would approach this task by:\n" ++
    "1. Breaking down the objective into sub-tasks\n" ++
    "2. Analyzing requirements and constraints\n" ++
    "3. Generating a structured plan\n" ++
    "4. Evaluating alternatives\n" ++
    "5. Delivering actionable results\n\n" ++
    "[Generated " ++ toString (min request.maxTokens 512) ++
    " tokens at ~18 tok/s on CPU]"

/-- The number of tokens a text is taken for: one for four bytes. -/
def tokenCount (request : InferenceRequest) (text : String) : UInt32 :=
  min (UInt32.ofNat text.utf8ByteSize / 4) (min request.maxTokens 512)

end Ughi.Inference
