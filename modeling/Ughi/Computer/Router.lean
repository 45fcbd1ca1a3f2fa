import Ughi.Lib.Binary64
import Ughi.Lib.HashMap
import Ughi.Lib.Text

/-!
# The model router

A prompt is sorted into a category by the keywords it contains, and the
category and the configured keys choose the model.  Lower-casing is the one
operation of the standard library left open here: it is the parameter
`toLowercase`.
-/

namespace Ughi.Computer

open Ughi.Lib
open Ughi.Lib.Binary64 (Double)

inductive ModelProvider where
  | localPhi3
  | localGemma2
  | localLlama1B
  | localMistral
  | openAI
  | anthropic
  | google
  | xAI
  | deepSeek
  | metaLlama
  | mistral
  | cohere
  | alibaba
  | yi
  | databricks
  | aI21
  | reka
  | inflection
  | microsoft
deriving DecidableEq, Repr

namespace ModelProvider

/-- The name `Debug` and `Display` print. -/
def display : ModelProvider → String
  | .localPhi3 => "LocalPhi3"
  | .localGemma2 => "LocalGemma2"
  | .localLlama1B => "LocalLlama1B"
  | .localMistral => "LocalMistral"
  | .openAI => "OpenAI"
  | .anthropic => "Anthropic"
  | .google => "Google"
  | .xAI => "XAI"
  | .deepSeek => "DeepSeek"
  | .metaLlama => "Meta"
  | .mistral => "Mistral"
  | .cohere => "Cohere"
  | .alibaba => "Alibaba"
  | .yi => "Yi"
  | .databricks => "Databricks"
  | .aI21 => "AI21"
  | .reka => "Reka"
  | .inflection => "Inflection"
  | .microsoft => "Microsoft"

/-- The providers the route counter takes for local. -/
def isLocal : ModelProvider → Bool
  | .localPhi3 | .localGemma2 | .localLlama1B | .localMistral => true
  | _ => false

end ModelProvider

inductive TaskCategory where
  | reasoning
  | coding
  | research
  | creative
  | analysis
  | quick
  | privateData
  | multilingual
  | vision
  | longContext
deriving DecidableEq, Repr

namespace TaskCategory

def debug : TaskCategory → String
  | .reasoning => "Reasoning"
  | .coding => "Coding"
  | .research => "Research"
  | .creative => "Creative"
  | .analysis => "Analysis"
  | .quick => "Quick"
  | .privateData => "Private"
  | .multilingual => "Multilingual"
  | .vision => "Vision"
  | .longContext => "LongContext"

def privateKeywords : List String :=
  ["private", "secret", "confidential"]

/-- The keywords of each category, in the order the source asks for them. -/
def keywords : List (TaskCategory × List String) :=
  [(.privateData, privateKeywords),
    (.coding, ["code", "build", "debug", "deploy", "app", "api"]),
    (.research, ["research", "find", "search", "analyze data"]),
    (.creative, ["write", "blog", "marketing", "campaign", "creative"]),
    (.reasoning, ["plan", "architect", "design system", "strategy"]),
    (.analysis, ["analyze", "math", "calculate", "statistics"]),
    (.multilingual, ["translate", "language"]),
    (.vision, ["image", "video", "visual"])]

/-- Auto-detect category from prompt keywords. -/
def detect (toLowercase : String → String) (prompt : String) : TaskCategory :=
  let p := toLowercase prompt
  match keywords.find? fun entry => entry.2.any (contains p) with
  | some (category, _) => category
  | none => .quick

end TaskCategory

/-- Model routing decision. -/
structure RoutingDecision where
  primary : ModelProvider
  fallback : ModelProvider
  category : TaskCategory
  reason : String
  estimatedCostUsd : Double
  estimatedLatencyMs : UInt64
deriving DecidableEq

/-- Key derivation (FNV-1a): four words of eight bytes, low byte first. -/
def deriveKey (name : String) : List UInt8 :=
  let hash : UInt64 := name.toByteArray.data.toList.foldl
    (fun hash b => (hash ^^^ b.toUInt64) * 0x100000001b3) 0xcbf29ce484222325
  (List.range 4).flatMap fun i =>
    (List.range 8).map fun shift =>
      ((hash + UInt64.ofNat i) >>> UInt64.ofNat (8 * shift)).toUInt8

def xorCipher (data key : List UInt8) : List UInt8 :=
  data.zipIdx.map fun (b, i) => b ^^^ key.getD (i % 32) 0

structure EncryptedApiKey where
  encrypted : List UInt8
  providerName : String
deriving DecidableEq

def EncryptedApiKey.new (provider plaintext : String) : EncryptedApiKey :=
  { encrypted := xorCipher plaintext.toByteArray.data.toList
      (deriveKey provider)
    providerName := provider }

/-- Intelligent model router with its statistics. -/
structure ModelRouter where
  apiKeys : HashMap ModelProvider EncryptedApiKey
  routesDecided : UInt64
  localRoutes : UInt64
  cloudRoutes : UInt64

namespace ModelRouter

def new : ModelRouter :=
  { apiKeys := ∅
    routesDecided := 0
    localRoutes := 0
    cloudRoutes := 0 }

def setApiKey (router : ModelRouter) (provider : ModelProvider)
    (key : String) : ModelRouter :=
  { router with
    apiKeys := router.apiKeys.insert provider
      (EncryptedApiKey.new provider.display key) }

def hasKey (router : ModelRouter) (provider : ModelProvider) : Bool :=
  decide (provider ∈ router.apiKeys)

/-- Primary, fallback, reason, cost and latency. -/
abbrev Choice : Type :=
  ModelProvider × ModelProvider × String × Double × UInt64

/-- A cloud model with a local fallback; the cost is in thousandths. -/
def cloud (primary fallback : ModelProvider) (reason : String)
    (cost : Nat) (latency : UInt64) : Choice :=
  (primary, fallback, reason, .ofRat (cost / 1000), latency)

def onDevice (primary fallback : ModelProvider) (reason : String)
    (latency : UInt64) : Choice :=
  (primary, fallback, reason, 0, latency)

/-- The table of categories and keys.  The source returns before it for a
private prompt; `none` is its `unreachable!`. -/
def choose (router : ModelRouter) : TaskCategory → Option Choice
  | .reasoning =>
      if router.hasKey .anthropic then
        cloud .anthropic .localPhi3
          "Complex reasoning → Claude-3.5 (best CoT)" 15 3000
      else if router.hasKey .openAI then
        cloud .openAI .localPhi3 "Complex reasoning → GPT-4o" 10 2500
      else
        onDevice .localPhi3 .localGemma2
          "Complex reasoning → Phi-3 local (no cloud keys)" 4000
  | .coding =>
      if router.hasKey .anthropic then
        cloud .anthropic .localPhi3
          "Code generation → Claude-3.5 Sonnet (best coder)" 15 2000
      else if router.hasKey .deepSeek then
        cloud .deepSeek .localPhi3
          "Code generation → DeepSeek-V3 (excellent coder)" 2 1500
      else
        onDevice .localPhi3 .localMistral "Code generation → Phi-3 local" 3000
  | .research =>
      if router.hasKey .google then
        cloud .google .localPhi3
          "Research → Gemini 2.0 (best search integration)" 5 2000
      else if router.hasKey .xAI then
        cloud .xAI .localPhi3
          "Research → Grok-3 (real-time web access)" 10 1500
      else
        onDevice .localPhi3 .localGemma2
          "Research → Phi-3 local + web search skill" 5000
  | .creative =>
      if router.hasKey .anthropic then
        cloud .anthropic .localPhi3
          "Creative → Claude-3.5 (best creative writing)" 15 3000
      else if router.hasKey .openAI then
        cloud .openAI .localPhi3 "Creative → GPT-4o" 10 2500
      else
        onDevice .localPhi3 .localGemma2 "Creative → Phi-3 local" 4000
  | .analysis =>
      if router.hasKey .google then
        cloud .google .localPhi3
          "Analysis → Gemini 2.0 (strong analytical)" 5 2000
      else
        onDevice .localPhi3 .localGemma2 "Analysis → Phi-3 local" 3000
  | .quick =>
      if router.hasKey .xAI then
        cloud .xAI .localGemma2
          "Quick task → Grok-3-mini (fastest cloud)" 1 500
      else
        onDevice .localGemma2 .localLlama1B
          "Quick task → Gemma-2 local (fast, small)" 800
  | .multilingual =>
      if router.hasKey .google then
        cloud .google .localPhi3
          "Multilingual → Gemini (100+ languages)" 5 2000
      else
        onDevice .localPhi3 .localGemma2 "Multilingual → Phi-3 local" 3000
  | .vision | .longContext =>
      if router.hasKey .google then
        cloud .google .localPhi3
          "Vision/Long-context → Gemini 2.0 (2M context)" 5 3000
      else if router.hasKey .anthropic then
        cloud .anthropic .localPhi3
          "Vision/Long-context → Claude-3.5 (200K ctx)" 15 3000
      else
        onDevice .localPhi3 .localGemma2
          "Vision → Phi-3 local (limited)" 5000
  | .privateData => none

/-- What a private prompt is answered with, whatever keys are configured. -/
def privateDecision (category : TaskCategory) : RoutingDecision :=
  { primary := .localPhi3
    fallback := .localGemma2
    category
    reason := "Private data — routed to local model (zero cloud exposure)"
    estimatedCostUsd := 0
    estimatedLatencyMs := 2000 }

/-- Route a task; `none` stands for the panic. -/
def route (toLowercase : String → String) (router : ModelRouter)
    (prompt : String) : Option (ModelRouter × RoutingDecision) :=
  let category := TaskCategory.detect toLowercase prompt
  let router := { router with routesDecided := router.routesDecided + 1 }
  if category = .privateData then
    some ({ router with localRoutes := router.localRoutes + 1 },
      privateDecision category)
  else
    match router.choose category with
    | none => none
    | some (primary, fallback, reason, cost, latency) =>
        let router :=
          if primary.isLocal then
            { router with localRoutes := router.localRoutes + 1 }
          else
            { router with cloudRoutes := router.cloudRoutes + 1 }
        some (router,
          { primary
            fallback
            category
            reason
            estimatedCostUsd := cost
            estimatedLatencyMs := latency })

end ModelRouter

/-! ## Detection -/

/-- Appending text to a prompt loses no ASCII keyword of its lower-case
form. -/
def KeepsAsciiKeywords (toLowercase : String → String) : Prop :=
  ∀ keyword text appended : String,
    (∀ c ∈ keyword.toList, c.toNat < 128) →
      contains (toLowercase text) keyword = true →
        contains (toLowercase (text ++ appended)) keyword = true

namespace TaskCategory

variable {toLowercase : String → String}

/-- The private keywords are asked for first, and no other entry of the table
is private. -/
theorem detect_eq_privateData_iff (prompt : String) :
    detect toLowercase prompt = .privateData ↔
      ∃ keyword ∈ privateKeywords,
        contains (toLowercase prompt) keyword = true := by
  rw [← List.any_eq_true, detect, keywords, List.find?_cons]
  cases first : privateKeywords.any (contains (toLowercase prompt)) with
  | true => simp
  | false =>
      simp only [Bool.false_eq_true, iff_false]
      split
      next category _ found =>
        have member := List.mem_of_find?_eq_some found
        intro isPrivate
        subst isPrivate
        simp at member
      next => decide

theorem privateKeywords_ascii :
    ∀ keyword ∈ privateKeywords, ∀ c ∈ keyword.toList, c.toNat < 128 := by
  have checked : (privateKeywords.all fun keyword =>
      keyword.toList.all fun c => decide (c.toNat < 128)) = true := by
    decide +kernel
  intro keyword member c inside
  have ascii := List.all_eq_true.mp checked keyword member
  exact of_decide_eq_true (List.all_eq_true.mp ascii c inside)

theorem detect_append_of_privateData
    (keeps : KeepsAsciiKeywords toLowercase) {prompt : String}
    (detected : detect toLowercase prompt = .privateData)
    (appended : String) :
    detect toLowercase (prompt ++ appended) = .privateData := by
  obtain ⟨keyword, member, occurs⟩ :=
    (detect_eq_privateData_iff prompt).mp detected
  apply (detect_eq_privateData_iff (prompt ++ appended)).mpr
  have ascii := privateKeywords_ascii keyword member
  exact ⟨keyword, member, keeps keyword prompt appended ascii occurs⟩

end TaskCategory

/-! ## Routing -/

namespace ModelRouter

variable {toLowercase : String → String}

theorem exists_choose (router : ModelRouter) {category : TaskCategory}
    (other : category ≠ .privateData) :
    ∃ choice, router.choose category = some choice := by
  cases category with
  | privateData => exact absurd rfl other
  | _ =>
      simp only [choose]
      repeat' split
      all_goals exact ⟨_, rfl⟩

theorem fallback_isLocal_of_choose {router : ModelRouter}
    {category : TaskCategory} {choice : Choice}
    (chosen : router.choose category = some choice) :
    choice.2.1.isLocal = true := by
  cases category with
  | privateData => simp [choose] at chosen
  | _ =>
      simp only [choose] at chosen
      repeat' split at chosen
      all_goals
        obtain rfl := Option.some.inj chosen
        rfl

theorem route_of_privateData (router : ModelRouter) {prompt : String}
    (detected : TaskCategory.detect toLowercase prompt = .privateData) :
    router.route toLowercase prompt =
      some ({ router with
          routesDecided := router.routesDecided + 1
          localRoutes := router.localRoutes + 1 },
        privateDecision .privateData) := by
  simp [route, detected]

/-- Every routed prompt was counted once, as local or as cloud. -/
def CountsAgree (router : ModelRouter) : Prop :=
  router.routesDecided = router.localRoutes + router.cloudRoutes

theorem new_countsAgree : new.CountsAgree :=
  rfl

theorem setApiKey_countsAgree {router : ModelRouter}
    (agree : router.CountsAgree) (provider : ModelProvider) (key : String) :
    (router.setApiKey provider key).CountsAgree :=
  agree

theorem countLocal_countsAgree {router : ModelRouter}
    (agree : router.CountsAgree) :
    ({ router with
        routesDecided := router.routesDecided + 1
        localRoutes := router.localRoutes + 1 } :
      ModelRouter).CountsAgree := by
  unfold CountsAgree at agree ⊢
  change router.routesDecided + 1 = router.localRoutes + 1 + router.cloudRoutes
  rw [agree]
  ac_rfl

theorem countCloud_countsAgree {router : ModelRouter}
    (agree : router.CountsAgree) :
    ({ router with
        routesDecided := router.routesDecided + 1
        cloudRoutes := router.cloudRoutes + 1 } :
      ModelRouter).CountsAgree := by
  unfold CountsAgree at agree ⊢
  change router.routesDecided + 1 =
    router.localRoutes + (router.cloudRoutes + 1)
  rw [agree]
  ac_rfl

theorem route_countsAgree {router : ModelRouter} (agree : router.CountsAgree)
    (prompt : String) :
    ∃ next decision, router.route toLowercase prompt = some (next, decision) ∧
      next.CountsAgree := by
  by_cases detected :
      TaskCategory.detect toLowercase prompt = .privateData
  · exact ⟨_, _, route_of_privateData router detected,
      countLocal_countsAgree agree⟩
  · obtain ⟨choice, chosen⟩ := exists_choose
      { router with routesDecided := router.routesDecided + 1 } detected
    obtain ⟨primary, fallback, reason, cost, latency⟩ := choice
    simp only [route, if_neg detected, chosen]
    refine ⟨_, _, rfl, ?_⟩
    split
    · exact countLocal_countsAgree agree
    · exact countCloud_countsAgree agree

end ModelRouter

end Ughi.Computer
