import Ughi.Integrity.Verifier
import Ughi.Lib.Run
import Ughi.Lib.Vec

/-!
# The skills client

The client caches the top skills of the catalogue and keeps the skills it has
installed beside them.  An installed skill holds a copy of its cached entry;
both lists are searched by the slug.
-/

namespace Ughi.Integrity

open Ughi.Lib

inductive SkillCategory where
  | frontend
  | backend
  | devOps
  | ai
  | data
  | security
  | mobile
  | design
  | testing
  | infra
  | database
  | auth
  | payments
  | analytics
  | general
deriving DecidableEq, Repr

inductive SafetyScore where
  | verified
  | trusted
  | community
  | unknown
  | quarantined
deriving DecidableEq, Repr

inductive InstallStatus where
  | available
  | downloading
  | verifying
  | sandboxed
  | installed
  | quarantined
  | failed
deriving DecidableEq, Repr

/-- An entry of the catalogue; its rating is not read by any operation. -/
structure SkillEntry where
  id : Nat
  name : String
  slug : String
  description : String
  author : String
  sourceUrl : String
  installCmd : String
  category : SkillCategory
  installs : UInt64
  verified : Bool
  safetyScore : SafetyScore
  version : String
  lastUpdatedMs : Nat
  integrity : IntegrityInfo
deriving DecidableEq, Repr

structure InstalledSkill where
  entry : SkillEntry
  status : InstallStatus
  sandboxPath : String
  capabilityTokens : List String
deriving DecidableEq, Repr

def InstalledSkill.slug (skill : InstalledSkill) : String :=
  skill.entry.slug

structure SyncResult where
  totalSkills : UInt64
  cachedSkills : Nat
  newDiscovered : Nat
  updated : Nat
  syncTimeMs : Nat
deriving DecidableEq, Repr

structure SkillsShClient where
  cached : List SkillEntry
  catalogSize : UInt64
  installed : List InstalledSkill
  lastSyncMs : Nat
  verifier : IntegrityVerifier

/-- A row of the leaderboard the cache is filled from. -/
structure Listing where
  slug : String
  description : String
  author : String
  category : SkillCategory
  installs : UInt64
deriving DecidableEq, Repr

def topSkills : List Listing :=
  [ ⟨"vercel-react-best-practices", "React best practices by Vercel",
      "vercel", .frontend, 48721⟩,
    ⟨"nextjs-app-router", "Next.js 15 App Router patterns",
      "vercel", .frontend, 45312⟩,
    ⟨"tailwind-v4-migration", "Tailwind CSS v4 migration guide",
      "tailwindlabs", .frontend, 42156⟩,
    ⟨"typescript-strict-mode", "TypeScript strict config",
      "microsoft", .frontend, 39887⟩,
    ⟨"cursor-rules", "Cursor AI rules and patterns",
      "cursor", .ai, 38540⟩,
    ⟨"shadcn-ui-patterns", "shadcn/ui component patterns",
      "shadcn", .frontend, 36221⟩,
    ⟨"rust-performance-patterns", "Rust zero-cost abstractions",
      "rust-lang", .backend, 34100⟩,
    ⟨"docker-production-guide", "Docker multi-stage builds",
      "docker", .devOps, 31890⟩,
    ⟨"openai-prompt-engineering", "Advanced prompt engineering",
      "openai", .ai, 30445⟩,
    ⟨"supabase-auth-patterns", "Supabase auth + RLS patterns",
      "supabase", .backend, 28776⟩,
    ⟨"kubernetes-autoscaling", "K8s HPA + VPA autoscaling",
      "kubernetes", .devOps, 27341⟩,
    ⟨"langchain-rag-pipeline", "RAG pipeline with LangChain",
      "langchain", .ai, 26100⟩,
    ⟨"prisma-schema-design", "Prisma schema best practices",
      "prisma", .database, 24890⟩,
    ⟨"playwright-e2e-testing", "Playwright end-to-end testing",
      "microsoft", .testing, 23445⟩,
    ⟨"github-actions-ci", "GitHub Actions CI/CD pipelines",
      "github", .devOps, 22100⟩,
    ⟨"aws-lambda-serverless", "AWS Lambda serverless patterns",
      "aws", .infra, 21567⟩,
    ⟨"figma-to-code", "Design-to-code conversion",
      "figma", .design, 20321⟩,
    ⟨"react-native-expo", "React Native + Expo guide",
      "expo", .mobile, 19870⟩,
    ⟨"graphql-schema-first", "GraphQL schema-first dev",
      "graphql", .backend, 18654⟩,
    ⟨"security-owasp-top10", "OWASP Top 10 prevention",
      "owasp", .security, 17890⟩,
    ⟨"python-fastapi-patterns", "FastAPI async patterns",
      "tiangolo", .backend, 16543⟩,
    ⟨"deno-fresh-fullstack", "Deno Fresh full-stack",
      "deno", .frontend, 15210⟩,
    ⟨"stripe-payments-v2", "Stripe Payments integration",
      "stripe", .payments, 14321⟩,
    ⟨"clerk-auth-nextjs", "Clerk auth for Next.js",
      "clerk", .auth, 13890⟩,
    ⟨"drizzle-orm-patterns", "Drizzle ORM query patterns",
      "drizzle", .database, 13210⟩,
    ⟨"astro-v4-guide", "Astro v4 framework guide",
      "astro", .frontend, 12567⟩,
    ⟨"svelte-5-runes", "Svelte 5 runes patterns",
      "svelte", .frontend, 11890⟩,
    ⟨"vue-3-composition", "Vue 3 Composition API patterns",
      "vue", .frontend, 11321⟩,
    ⟨"go-microservices", "Go microservice patterns",
      "google", .backend, 10890⟩,
    ⟨"terraform-aws-modules", "Terraform AWS modules",
      "hashicorp", .infra, 10543⟩,
    ⟨"angular-signals", "Angular signals + standalone",
      "google", .frontend, 10210⟩,
    ⟨"redis-caching-patterns", "Redis caching strategies",
      "redis", .database, 9876⟩,
    ⟨"elasticsearch-search", "Elasticsearch full-text search",
      "elastic", .data, 9543⟩,
    ⟨"kafka-event-streaming", "Kafka event-driven arch",
      "apache", .backend, 9210⟩,
    ⟨"remix-fullstack", "Remix full-stack web dev",
      "shopify", .frontend, 8876⟩,
    ⟨"flutter-material3", "Flutter Material 3 patterns",
      "google", .mobile, 8543⟩,
    ⟨"mongodb-aggregation", "MongoDB aggregation pipeline",
      "mongodb", .database, 8210⟩,
    ⟨"prometheus-monitoring", "Prometheus + Grafana monitoring",
      "prometheus", .devOps, 7890⟩,
    ⟨"nginx-reverse-proxy", "Nginx reverse proxy + SSL",
      "nginx", .infra, 7654⟩,
    ⟨"firebase-realtime", "Firebase realtime + Firestore",
      "google", .backend, 7321⟩,
    ⟨"jest-testing-patterns", "Jest unit testing patterns",
      "meta", .testing, 7100⟩,
    ⟨"cypress-component-test", "Cypress component testing",
      "cypress", .testing, 6876⟩,
    ⟨"auth0-integration", "Auth0 identity platform",
      "auth0", .auth, 6654⟩,
    ⟨"vercel-ai-sdk", "Vercel AI SDK patterns",
      "vercel", .ai, 6432⟩,
    ⟨"anthropic-claude-api", "Claude API best practices",
      "anthropic", .ai, 6210⟩,
    ⟨"cloudflare-workers", "Cloudflare Workers edge",
      "cloudflare", .infra, 5987⟩,
    ⟨"turbopack-migration", "Turbopack build migration",
      "vercel", .devOps, 5765⟩,
    ⟨"biome-linting", "Biome linting + formatting",
      "biomejs", .testing, 5543⟩,
    ⟨"htmx-patterns", "HTMX hypermedia patterns",
      "bigskysoftware", .frontend, 5321⟩,
    ⟨"bun-runtime", "Bun runtime + package manager",
      "oven", .backend, 5100⟩ ]

def verifiedAuthors : List String :=
  ["vercel", "microsoft", "rust-lang", "docker", "aws", "github", "google",
    "meta", "openai", "anthropic", "stripe", "cloudflare"]

/-- The bytes that stand in for a skill's content. -/
def skillContent (slug author version : String) : List UInt8 :=
  ("// " ++ slug ++ " by " ++ author ++ " v" ++ version).toUTF8.toList

/-- A cached entry, signed with its author's key where there is one; `none`
for a panic of the signing.  The clock is read once for the signature and once
for the entry. -/
def cacheEntry (verifier : IntegrityVerifier) (signedAt updatedAt : Nat → Nat)
    (listing : Listing) (index : Nat) : Option SkillEntry :=
  let content := skillContent listing.slug listing.author "1.0.0"
  (verifier.signSkill listing.author content (signedAt index)).map
    fun signed =>
      { id := index + 1
        name := String.ofList (listing.slug.toList.map fun c =>
          if c = '-' then ' ' else c)
        slug := listing.slug
        description := listing.description
        author := listing.author
        sourceUrl := "https://skills.sh/skills/" ++ listing.slug
        installCmd := "npx skills install " ++ listing.slug
        category := listing.category
        installs := listing.installs
        verified := decide (listing.author ∈ verifiedAuthors)
        safetyScore :=
          if listing.author ∈ verifiedAuthors then .verified else .trusted
        version := "1.0.0"
        lastUpdatedMs := updatedAt index
        integrity := signed.getD .unverified }

/-- The capability tokens given to an installed skill. -/
def capabilityTokens : SkillCategory → List String
  | .frontend | .design => ["browser_control", "file_system"]
  | .backend | .database | .data => ["code_executor", "file_system"]
  | .devOps | .infra => ["terminal_command", "file_system"]
  | .ai => ["web_search", "memory_read_write"]
  | .security => ["code_executor"]
  | .testing => ["code_executor", "terminal_command"]
  | .auth | .payments => ["web_search", "file_system"]
  | _ => ["file_system"]

namespace SkillsShClient

def loadTopCache (verifier : IntegrityVerifier)
    (signedAt updatedAt : Nat → Nat) : Option (List SkillEntry) :=
  topSkills.zipIdx.mapM fun (listing, index) =>
    cacheEntry verifier signedAt updatedAt listing index

def new (signedAt updatedAt : Nat → Nat) : Option SkillsShClient :=
  (loadTopCache .new signedAt updatedAt).map fun cached =>
    { cached := cached
      catalogSize := 79525
      installed := []
      lastSyncMs := 0
      verifier := .new }

def resolve (client : SkillsShClient) (slug : String) : Option SkillEntry :=
  firstWith SkillEntry.slug slug client.cached

def sync (client : SkillsShClient) (now : Nat) :
    SyncResult × SkillsShClient :=
  let newCount : UInt64 := 47
  let synced :=
    { client with
      lastSyncMs := now
      catalogSize := client.catalogSize + newCount }
  ({ totalSkills := synced.catalogSize
     cachedSkills := client.cached.length
     newDiscovered := newCount.toNat
     updated := 12
     syncTimeMs := 230 }, synced)

/-- The verdict of the verifier on an entry's own content. -/
def verifyEntry (client : SkillsShClient) (entry : SkillEntry) (now : Nat) :
    VerificationResult × SkillsShClient :=
  let content := skillContent entry.slug entry.author entry.version
  let (result, verifier) := client.verifier.verify entry.slug entry.author
    content entry.integrity now
  (result, { client with verifier := verifier })

def verifySkill (client : SkillsShClient) (slug : String) (now : Nat) :
    Except String VerificationResult × SkillsShClient :=
  match client.resolve slug with
  | none => (.error ("Skill '" ++ slug ++ "' not in cache."), client)
  | some entry =>
      let (result, verified) := client.verifyEntry entry now
      (.ok result, verified)

/-- Add the installed copy of an entry, and count the installation. -/
def addInstalled (client : SkillsShClient) (slug : String)
    (entry : SkillEntry) : InstalledSkill × SkillsShClient :=
  let skill : InstalledSkill :=
    { entry := entry
      status := .installed
      sandboxPath := "skills/skills-sh/" ++ slug
      capabilityTokens := capabilityTokens entry.category }
  (skill,
    { client with
      installed := client.installed ++ [skill]
      cached := modifyFirst SkillEntry.slug slug
        (fun cached => { cached with installs := cached.installs + 1 })
        client.cached })

def install (client : SkillsShClient) (slug : String) (now : Nat) :
    Except String InstalledSkill × SkillsShClient :=
  match client.resolve slug with
  | none =>
      (.error ("Skill '" ++ slug ++
        "' not in cache. Run 'ughi skills update' first."), client)
  | some entry =>
      if entry.safetyScore = .quarantined then
        (.error ("Skill '" ++ slug ++ "' is quarantined. Cannot install."),
          client)
      else if client.installed.any fun skill => skill.slug = slug then
        (.error ("Skill '" ++ slug ++ "' is already installed."), client)
      else
        let (verification, verified) := client.verifyEntry entry now
        if !verification.overallPass then
          (.error ("INTEGRITY CHECK FAILED for '" ++ slug ++ "': " ++
            verification.reason ++ ". Install blocked."), verified)
        else
          let (skill, added) := verified.addInstalled slug entry
          (.ok skill, added)

def uninstall (client : SkillsShClient) (slug : String) :
    Bool × SkillsShClient :=
  let kept := client.installed.filter fun skill => skill.slug ≠ slug
  (decide (kept.length < client.installed.length),
    { client with installed := kept })

def quarantine (client : SkillsShClient) (slug : String) : SkillsShClient :=
  { client with
    cached := modifyFirst SkillEntry.slug slug
      (fun entry => { entry with safetyScore := .quarantined }) client.cached
    installed := modifyFirst InstalledSkill.slug slug
      (fun skill => { skill with status := .quarantined })
      client.installed }

/-- The calls of a client; `now` is the clock reading of the call. -/
inductive Call where
  | install (slug : String) (now : Nat)
  | uninstall (slug : String)
  | quarantine (slug : String)
  | verifySkill (slug : String) (now : Nat)
  | sync (now : Nat)
deriving DecidableEq, Repr

def serve (client : SkillsShClient) : Call → SkillsShClient
  | .install slug now => (client.install slug now).2
  | .uninstall slug => (client.uninstall slug).2
  | .quarantine slug => client.quarantine slug
  | .verifySkill slug now => (client.verifySkill slug now).2
  | .sync now => (client.sync now).2

/-- A call installs the skill with this slug. -/
def installsSkill (client : SkillsShClient) (slug : String) : Call → Bool
  | .install other now =>
      decide (other = slug) && (client.install other now).1.isOk
  | _ => false

/-- The installations of a skill that succeed in a run. -/
def successfulInstalls (slug : String) : SkillsShClient → List Call → Nat
  | _, [] => 0
  | client, call :: calls =>
      (client.installsSkill slug call).toNat +
        successfulInstalls slug (client.serve call) calls

end SkillsShClient

end Ughi.Integrity
