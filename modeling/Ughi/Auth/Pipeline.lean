import Ughi.Auth.Token

/-!
# The role-gated pipeline

`handler` authenticates a request and leaves what it found in the request's
locals; `requireRole` reads the role from there.  Where `handler` lets a
request pass unauthenticated it leaves no role behind, and `requireRole` takes
that for a missing permission.
-/

namespace Ughi.Auth

/-- What the two middlewares read of a request and pass on in its locals.  A
missing header reads as the empty text. -/
structure Ctx where
  path : Bytes
  authorization : Bytes
  claims : Option Claims
  role : Option String
  sub : Option String
deriving DecidableEq

def Ctx.arriving (path authorization : Bytes) : Ctx :=
  { path := path, authorization := authorization
    claims := none, role := none, sub := none }

/-- A middleware responds itself or calls the next one. -/
inductive Outcome where
  | json (status : Nat) (error message : String)
  | next (ctx : Ctx)
deriving DecidableEq

def Outcome.andThen : Outcome → (Ctx → Outcome) → Outcome
  | .json status error message, _ => .json status error message
  | .next ctx, handler => handler ctx

@[simp] theorem Outcome.andThen_next (ctx : Ctx)
    (handler : Ctx → Outcome) :
    (Outcome.next ctx).andThen handler = handler ctx :=
  rfl

def bearer : Bytes :=
  ascii "Bearer "

def star : UInt8 := 42

/-- The path is a skipped one, or starts like one that ends in a star. -/
def skips (skipPaths : List Bytes) (path : Bytes) : Bool :=
  skipPaths.contains path ||
    skipPaths.any fun p =>
      List.isSuffixOf [star] p && List.isPrefixOf p.dropLast path

def Middleware.handler (library : Library) (middleware : Middleware)
    (now : Int) (ctx : Ctx) : Outcome :=
  if !middleware.enabled then .next ctx
  else if skips middleware.skipPaths ctx.path then .next ctx
  else if ctx.authorization = [] then
    .json 401 "unauthorized" "missing Authorization header"
  else if !List.isPrefixOf bearer ctx.authorization then
    .json 401 "unauthorized"
      "invalid Authorization format, expected: Bearer <token>"
  else
    let token := ctx.authorization.drop bearer.length
    match middleware.validateToken library token now with
    | .error message => .json 401 "unauthorized" message
    | .ok claims =>
        .next
          { ctx with
            claims := some claims
            role := some claims.role
            sub := some claims.sub }

/-- The level of a role; roles other than the three have none. -/
def level (role : String) : Nat :=
  if role = "viewer" then 1
  else if role = "operator" then 2
  else if role = "admin" then 3
  else 0

def hasPermission (actual required : String) : Bool :=
  level actual ≥ level required

def requireRole (minRole : String) (ctx : Ctx) : Outcome :=
  match ctx.role with
  | none => .json 403 "forbidden" "no role in context"
  | some role =>
      if !hasPermission role minRole then
        .json 403 "forbidden"
          ("requires role '" ++ minRole ++ "', got '" ++ role ++ "'")
      else .next ctx

/-- What happens to a request before a gated route handler runs. -/
def pipeline (library : Library) (middleware : Middleware) (minRole : String)
    (now : Int) (ctx : Ctx) : Outcome :=
  (middleware.handler library now ctx).andThen (requireRole minRole)

/-- The route handler runs. -/
def RouteRuns (library : Library) (middleware : Middleware)
    (minRole : String) (now : Int) (path authorization : Bytes) : Prop :=
  ∃ passed,
    pipeline library middleware minRole now (.arriving path authorization) =
      .next passed

/-- The header carries a token that is accepted, with a sufficient role. -/
def Authorized (library : Library) (middleware : Middleware)
    (minRole : String) (now : Int) (authorization : Bytes) : Prop :=
  ∃ token claims, authorization = bearer ++ token ∧
    middleware.validateToken library token now = .ok claims ∧
    level minRole ≤ level claims.role

/-- With auth enabled the route handler runs for the authorized requests, and
with auth disabled for every request. -/
def DecidesCorrectly (library : Library) (middleware : Middleware)
    (minRole : String) (now : Int) (path authorization : Bytes) : Prop :=
  (middleware.enabled = true →
      (RouteRuns library middleware minRole now path authorization ↔
        Authorized library middleware minRole now authorization)) ∧
    (middleware.enabled = false →
      RouteRuns library middleware minRole now path authorization)

/-! ## The two middlewares -/

theorem new_enabled_iff (config : Config) (environment : Bytes) :
    (Middleware.new config environment).enabled = true ↔
      config.enabled = true ∧ (config.secret ≠ [] ∨ environment ≠ []) := by
  by_cases configured : config.secret = []
  · by_cases inherited : environment = []
    · simp [Middleware.new, configured, inherited]
    · simp [Middleware.new, configured, inherited]
  · simp [Middleware.new, configured]

theorem requireRole_next_iff (minRole : String) (ctx passed : Ctx) :
    requireRole minRole ctx = .next passed ↔
      passed = ctx ∧ ∃ role, ctx.role = some role ∧
        level minRole ≤ level role := by
  unfold requireRole hasPermission
  cases ctx.role with
  | none => simp
  | some role =>
      by_cases permitted : level minRole ≤ level role
      · simp [permitted, eq_comm]
      · simp [permitted]

section Handler

variable {library : Library} {middleware : Middleware} {minRole : String}
  {now : Int} {path authorization : Bytes}

theorem not_routeRuns_of_unauthenticated
    (passes : middleware.handler library now
      (.arriving path authorization) = .next (.arriving path authorization)) :
    ¬ RouteRuns library middleware minRole now path authorization := by
  intro runs
  obtain ⟨passed, reached⟩ := runs
  rw [pipeline, passes, Outcome.andThen_next] at reached
  obtain ⟨_, role, found, _⟩ := (requireRole_next_iff _ _ _).mp reached
  cases found

theorem handler_of_disabled (disabled : middleware.enabled = false)
    (ctx : Ctx) : middleware.handler library now ctx = .next ctx := by
  simp [Middleware.handler, disabled]

theorem handler_of_skipped {ctx : Ctx}
    (skipped : skips middleware.skipPaths ctx.path = true) :
    middleware.handler library now ctx = .next ctx := by
  simp [Middleware.handler, skipped]

/-- With auth enabled, a request to a path that is not skipped passes exactly
with an accepted token, whose claims are left in the locals. -/
theorem handler_next_iff {ctx : Ctx} (enabled : middleware.enabled = true)
    (gated : skips middleware.skipPaths ctx.path = false) (passed : Ctx) :
    middleware.handler library now ctx = .next passed ↔
      ∃ token claims, ctx.authorization = bearer ++ token ∧
        middleware.validateToken library token now = .ok claims ∧
        passed =
          { ctx with
            claims := some claims
            role := some claims.role
            sub := some claims.sub } := by
  constructor
  · intro passes
    simp only [Middleware.handler, enabled, gated, Bool.not_true,
      Bool.false_eq_true, if_false] at passes
    split at passes
    · cases passes
    · split at passes
      · cases passes
      · next bears =>
          have carries : bearer <+: ctx.authorization := by
            simpa using bears
          obtain ⟨token, whole⟩ := carries
          have rest : ctx.authorization.drop bearer.length = token := by
            rw [← whole, List.drop_left]
          rw [rest] at passes
          split at passes
          · cases passes
          · next claims accepted =>
              cases passes
              exact ⟨token, claims, whole.symm, accepted, rfl⟩
  · intro carried
    obtain ⟨token, claims, whole, accepted, reached⟩ := carried
    subst reached
    have present : bearer ++ token ≠ [] :=
      List.append_ne_nil_of_left_ne_nil (by decide) token
    have bears : List.isPrefixOf bearer (bearer ++ token) = true := by
      simp
    simp [Middleware.handler, enabled, gated, whole, accepted, present]

theorem routeRuns_iff_authorized (enabled : middleware.enabled = true)
    (gated : skips middleware.skipPaths path = false) :
    RouteRuns library middleware minRole now path authorization ↔
      Authorized library middleware minRole now authorization := by
  constructor
  · intro runs
    obtain ⟨passed, reached⟩ := runs
    rw [pipeline] at reached
    cases outcome : middleware.handler library now
        (.arriving path authorization) with
    | json status error message =>
        rw [outcome] at reached
        cases reached
    | next authenticated =>
        rw [outcome, Outcome.andThen_next] at reached
        obtain ⟨token, claims, whole, accepted, rfl⟩ :=
          (handler_next_iff enabled gated _).mp outcome
        obtain ⟨_, role, found, sufficient⟩ :=
          (requireRole_next_iff _ _ _).mp reached
        cases found
        exact ⟨token, claims, whole, accepted, sufficient⟩
  · intro authorized
    obtain ⟨token, claims, whole, accepted, sufficient⟩ := authorized
    have passes := (@handler_next_iff library middleware now
      (.arriving path authorization) enabled gated _).mpr
      ⟨token, claims, whole, accepted, rfl⟩
    refine ⟨{ Ctx.arriving path authorization with
      claims := some claims
      role := some claims.role
      sub := some claims.sub }, ?_⟩
    rw [pipeline, passes, Outcome.andThen_next]
    exact (requireRole_next_iff _ _ _).mpr
      ⟨rfl, claims.role, rfl, sufficient⟩

theorem decidesCorrectly_iff_gated :
    DecidesCorrectly library middleware minRole now path authorization ↔
      middleware.enabled = true ∧
        (skips middleware.skipPaths path = false ∨
          ¬ Authorized library middleware minRole now authorization) := by
  cases enabled : middleware.enabled with
  | false =>
      have refused : ¬ RouteRuns library middleware minRole now
          path authorization :=
        not_routeRuns_of_unauthenticated (handler_of_disabled enabled _)
      simp [DecidesCorrectly, enabled, refused]
  | true =>
      cases skipped : skips middleware.skipPaths path with
      | false =>
          have runs := @routeRuns_iff_authorized library middleware minRole
            now path authorization enabled skipped
          simpa [DecidesCorrectly, enabled] using runs
      | true =>
          have refused : ¬ RouteRuns library middleware minRole now
              path authorization :=
            not_routeRuns_of_unauthenticated (handler_of_skipped skipped)
          simp [DecidesCorrectly, enabled, refused]

end Handler

/-- For every configuration, every revocation and every request, the pipeline
decides correctly if and only if auth is enabled and the path is not skipped
or the request is not authorized anyway. -/
theorem decidesCorrectly_iff (library : Library) (config : Config)
    (environment : Bytes) (revoked : Lib.HashMap Bytes Int)
    (minRole : String) (now : Int) (path authorization : Bytes) :
    DecidesCorrectly library
        { Middleware.new config environment with revoked := revoked } minRole
        now path authorization ↔
      (config.enabled = true ∧ (config.secret ≠ [] ∨ environment ≠ [])) ∧
        (skips config.skipPaths path = false ∨
          ¬ Authorized library
            { Middleware.new config environment with revoked := revoked }
            minRole now authorization) := by
  rw [decidesCorrectly_iff_gated, ← new_enabled_iff]
  exact Iff.rfl

/-! ## The configuration of the server -/

/-- The configuration that `NewServer` passes. -/
def serverConfig : Config :=
  { secret := []
    skipPaths := [ascii "/health", ascii "/dashboard", ascii "/ws", ascii "/"]
    enabled := true }

/-- No path of the server ends in a star, so only the listed ones are
skipped. -/
theorem skips_serverConfig (path : Bytes) :
    skips serverConfig.skipPaths path = true ↔
      path ∈ serverConfig.skipPaths := by
  have plain : ∀ p ∈ serverConfig.skipPaths,
      List.isSuffixOf [star] p = false := by
    decide
  constructor
  · intro skipped
    rcases Bool.or_eq_true_iff.mp skipped with listed | starts
    · exact List.contains_iff_mem.mp listed
    · obtain ⟨p, member, both⟩ := List.any_eq_true.mp starts
      rw [plain p member] at both
      cases both
  · intro listed
    exact Bool.or_eq_true_iff.mpr (.inl (List.contains_iff_mem.mpr listed))

/-- Once a secret is set, the two middlewares under the configuration of the
server decide a request correctly, unless its path is on the list. -/
theorem server_decidesCorrectly (library : Library) (minRole : String)
    (now : Int) {environment path : Bytes} (authorization : Bytes)
    (revoked : Lib.HashMap Bytes Int) (secret : environment ≠ [])
    (gated : path ∉ serverConfig.skipPaths) :
    DecidesCorrectly library
      { Middleware.new serverConfig environment with revoked := revoked }
      minRole now path authorization := by
  have enabled := (new_enabled_iff serverConfig environment).mpr
    ⟨rfl, .inr secret⟩
  have unskipped : skips serverConfig.skipPaths path = false :=
    Bool.eq_false_iff.mpr ((skips_serverConfig path).not.mpr gated)
  exact decidesCorrectly_iff_gated.mpr ⟨enabled, .inl unskipped⟩

/-- Without a secret in the environment the server refuses a listing of its
agents, as it does every gated request. -/
theorem open_mode_refuses :
    ¬ DecidesCorrectly
        (.forClaims { sub := "", role := "", iat := 0, exp := 0 } [] [])
        (.new serverConfig []) "viewer" 1700000000
        (ascii "/api/agents") [] := by
  intro decides
  have enabled := (decidesCorrectly_iff_gated.mp decides).1
  cases enabled

end Ughi.Auth
