import Ughi.Lib.HashMap
import Ughi.Lib.Spacing

/-!
# The rate limiter

Each client has a window that opens with a request and stays open for the
window duration; the next request after it opens another.  The limiter counts
within one window only, so what matters for an interval across a boundary is
how close the first requests of neighbouring windows are.  Times are
nanoseconds.
-/

namespace Ughi.Orchestrator.RateLimit

open Ughi.Lib

/-- Config holds rate limiter configuration. -/
structure Config where
  maxRequests : Int
  windowDuration : Int
deriving DecidableEq, Repr

/-- The request count of a client and the end of its window. -/
structure Entry where
  count : Int
  windowAt : Int
deriving DecidableEq, Repr

structure Limiter where
  config : Config
  entries : HashMap String Entry

/-- What `allow` returns. -/
structure Decision where
  allowed : Bool
  remaining : Int
  resetAt : Int
deriving DecidableEq, Repr

def minute : Int := 60 * 1000000000

def Config.withDefaults (cfg : Config) : Config :=
  { maxRequests := if cfg.maxRequests ≤ 0 then 100 else cfg.maxRequests
    windowDuration :=
      if cfg.windowDuration ≤ 0 then 1 * minute else cfg.windowDuration }

/-- The request opens a window. -/
def Config.newWindow (config : Config) (now : Int) : Decision × Entry :=
  ({ allowed := true
     remaining := config.maxRequests - 1
     resetAt := now + config.windowDuration },
    { count := 1
      windowAt := now + config.windowDuration })

/-- The decision on a request, given the entry of its client. -/
def Config.judge (config : Config) (found : Option Entry) (now : Int) :
    Decision × Entry :=
  match found with
  | none => config.newWindow now
  | some e =>
      if e.windowAt < now then config.newWindow now
      else
        let count := e.count + 1
        let remaining := config.maxRequests - count
        ({ allowed := decide (count ≤ config.maxRequests)
           remaining := if remaining < 0 then 0 else remaining
           resetAt := e.windowAt },
          { count
            windowAt := e.windowAt })

namespace Limiter

/-- New creates a new rate limiter. -/
def new (cfg : Config) : Limiter :=
  { config := cfg.withDefaults
    entries := ∅ }

/-- allow checks if a request is allowed. -/
def allow (limiter : Limiter) (key : String) (now : Int) :
    Decision × Limiter :=
  let answer := limiter.config.judge (limiter.entries.lookup key) now
  (answer.1, { limiter with entries := limiter.entries.insert key answer.2 })

/-- One pass of cleanup removes the expired entries. -/
def cleanup (limiter : Limiter) (now : Int) : Limiter :=
  { limiter with
    entries := HashMap.retain (fun e => !decide (e.windowAt < now))
      limiter.entries }

inductive Call where
  | allow (key : String) (now : Int)
  | cleanup (now : Int)
deriving DecidableEq, Repr

def Call.time : Call → Int
  | .allow _ now => now
  | .cleanup now => now

/-- The times at which a client sends requests. -/
def requestTimes (key : String) : List Call → List Int
  | [] => []
  | .allow other now :: calls =>
      if other = key then now :: requestTimes key calls
      else requestTimes key calls
  | .cleanup _ :: calls => requestTimes key calls

/-- The requests of a client with their decisions. -/
def decisionsFor (key : String) : Limiter → List Call → List (Int × Decision)
  | _, [] => []
  | limiter, .allow other now :: calls =>
      let answer := limiter.allow other now
      if other = key then (now, answer.1) :: decisionsFor key answer.2 calls
      else decisionsFor key answer.2 calls
  | limiter, .cleanup now :: calls =>
      decisionsFor key (limiter.cleanup now) calls

/-- The times of the requests of a client that are let through. -/
def letThrough (key : String) (limiter : Limiter) (calls : List Call) :
    List Int :=
  ((decisionsFor key limiter calls).filter fun request =>
    request.2.allowed).map Prod.fst

end Limiter

/-! ## One client -/

/-- The decisions a client with the limiter to itself gets. -/
def decisionsAlone (config : Config) : Option Entry → List Int →
    List (Int × Decision)
  | _, [] => []
  | found, now :: times =>
      let answer := config.judge found now
      (now, answer.1) :: decisionsAlone config (some answer.2) times

/-- The window of an entry, if there is one, is over. -/
def Expired (now : Int) (found : Option Entry) : Prop :=
  ∀ e, found = some e → e.windowAt < now

/-- From `now` on the entries lead to the same decisions. -/
def SameFrom (now : Int) (left right : Option Entry) : Prop :=
  left = right ∨ Expired now left ∧ Expired now right

section OneClient

variable {config : Config} {left right : Option Entry} {now later : Int}

theorem SameFrom.mono (same : SameFrom now left right) (after : now ≤ later) :
    SameFrom later left right := by
  rcases same with equal | ⟨leftExpired, rightExpired⟩
  · exact .inl equal
  · exact .inr ⟨fun e found => (leftExpired e found).trans_le after,
      fun e found => (rightExpired e found).trans_le after⟩

theorem judge_of_expired (expired : Expired now left) :
    config.judge left now = config.newWindow now := by
  cases left with
  | none => rfl
  | some e => exact if_pos (expired e rfl)

theorem SameFrom.judge (same : SameFrom now left right) (after : now ≤ later) :
    config.judge left later = config.judge right later := by
  rcases same.mono after with equal | ⟨leftExpired, rightExpired⟩
  · rw [equal]
  · rw [judge_of_expired leftExpired, judge_of_expired rightExpired]

end OneClient

namespace Limiter

variable {key : String} {limiter : Limiter}

theorem config_allow (other : String) (now : Int) :
    (limiter.allow other now).2.config = limiter.config :=
  rfl

theorem lookup_allow (limiter : Limiter) (other key : String) (now : Int) :
    (limiter.allow other now).2.entries.lookup key =
      if key = other then
        some (limiter.config.judge (limiter.entries.lookup other) now).2
      else limiter.entries.lookup key :=
  HashMap.lookup_insert_eq

/-- A cleanup removes only what the next request would replace. -/
theorem sameFrom_cleanup (now : Int) (found : Option Entry)
    (same : SameFrom now (limiter.entries.lookup key) found) :
    SameFrom now ((limiter.cleanup now).entries.lookup key) found := by
  rw [cleanup, HashMap.lookup_retain]
  rcases same with equal | ⟨expired, foundExpired⟩
  · subst equal
    cases limiter.entries.lookup key with
    | none => exact .inl rfl
    | some e =>
        by_cases passed : e.windowAt < now
        · refine .inr ⟨?_, ?_⟩
          · simp [Expired, passed]
          · intro other same
            cases same
            exact passed
        · exact .inl (by simp [passed])
  · refine .inr ⟨?_, foundExpired⟩
    intro e kept
    obtain ⟨stored, _⟩ := Option.filter_eq_some_iff.mp kept
    exact expired e stored

theorem decisionsFor_eq_alone {calls : List Call} {now : Int}
    {found : Option Entry}
    (same : SameFrom now (limiter.entries.lookup key) found)
    (ordered : (now :: calls.map Call.time).Pairwise (· ≤ ·)) :
    decisionsFor key limiter calls =
      decisionsAlone limiter.config found (requestTimes key calls) := by
  induction calls generalizing limiter now found with
  | nil => rfl
  | cons call calls induction =>
      rw [List.map_cons] at ordered
      have after : now ≤ call.time :=
        List.rel_of_pairwise_cons ordered List.mem_cons_self
      have rest := List.Pairwise.of_cons ordered
      cases call with
      | cleanup cleaned =>
          exact induction (sameFrom_cleanup cleaned found (same.mono after))
            rest
      | allow other asked =>
          change now ≤ asked at after
          have stored := lookup_allow limiter other key asked
          by_cases own : other = key
          · subst own
            have agreed : limiter.config.judge
                (limiter.entries.lookup other) asked =
                  limiter.config.judge found asked := same.judge after
            have next := @induction (limiter.allow other asked).2 asked
              (some (limiter.config.judge found asked).2)
              (.inl (by rw [stored, if_pos rfl, agreed])) rest
            simp only [decisionsFor, requestTimes, decisionsAlone, if_pos]
            rw [next, config_allow, allow, agreed]
          · rw [if_neg (Ne.symm own)] at stored
            simp only [decisionsFor, requestTimes, if_neg own]
            apply @induction (limiter.allow other asked).2 asked found _ rest
            rw [stored]
            exact same.mono after

end Limiter

/-! ## Windows -/

/-- Cut times into windows: a window takes the times up to `duration` after its
first one. -/
def windowsFrom (duration : Int) : Int → List Int → List Int → List (List Int)
  | _, window, [] => [window]
  | start, window, now :: times =>
      if start + duration < now then
        window :: windowsFrom duration now [now] times
      else windowsFrom duration start (window ++ [now]) times

def windows (duration : Int) : List Int → List (List Int)
  | [] => []
  | now :: times => windowsFrom duration now [now] times

/-- The answer to the request at a place, counted from zero, in the window that
opened at `start`. -/
def Config.answerAt (config : Config) (start : Int) (place : Nat) : Decision :=
  { allowed := decide ((place : Int) < config.maxRequests)
    remaining := max 0 (config.maxRequests - ((place : Int) + 1))
    resetAt := start + config.windowDuration }

/-- The requests of a window with their answers. -/
def Config.answers (config : Config) (window : List Int) :
    List (Int × Decision) :=
  window.mapIdx fun place now =>
    (now, config.answerAt (window.headD now) place)

/-- The requests of a window that are within the limit. -/
def firstRequests (config : Config) (window : List Int) : List Int :=
  window.take config.maxRequests.toNat

/-- Among the first `maxRequests` requests of a window and the first
`maxRequests` of the next, a request and the one `maxRequests` places after it
are more than the window duration apart. -/
def WellSpaced (config : Config) (times : List Int) : Prop :=
  (windows config.windowDuration times).IsChain fun window next =>
    Spaced (· + config.windowDuration) config.maxRequests.toNat
      (firstRequests config window ++ firstRequests config next)

section Windows

variable {config : Config}

/-- The entry of an open window. -/
def openEntry (config : Config) (start : Int) (window : List Int) : Entry :=
  { count := window.length
    windowAt := start + config.windowDuration }

theorem answers_singleton (positive : 0 < config.maxRequests) (now : Int) :
    config.answers [now] = [(now, (config.newWindow now).1)] := by
  have answer : config.answerAt now 0 = (config.newWindow now).1 := by
    simp only [Config.answerAt, Config.newWindow, Decision.mk.injEq,
      decide_eq_true_eq, and_true]
    omega
  rw [← answer]
  rfl

theorem answers_append_singleton (window : List Int) (now : Int) :
    config.answers (window ++ [now]) =
      config.answers window ++
        [(now, config.answerAt (window.headD now) window.length)] := by
  cases window with
  | nil => rfl
  | cons start rest =>
      rw [Config.answers, List.mapIdx_concat]
      rfl

/-- A request within the open window is answered by its place in it. -/
theorem judge_openEntry {start now : Int} {window : List Int}
    (within : ¬ start + config.windowDuration < now) :
    config.judge (some (openEntry config start window)) now =
      (config.answerAt start window.length,
        openEntry config start (window ++ [now])) := by
  rw [Config.judge, openEntry, openEntry]
  simp only [if_neg within, List.length_append, List.length_singleton,
    Int.natCast_add, Int.natCast_one, Config.answerAt, Prod.mk.injEq,
    Decision.mk.injEq, decide_eq_decide, and_true]
  refine ⟨Int.add_one_le_iff, ?_⟩
  split
  next spent => exact (max_eq_left spent.le).symm
  next left => exact (max_eq_right (Int.not_lt.mp left)).symm

theorem answers_windowsFrom (positive : 0 < config.maxRequests) {start : Int}
    {window : List Int} (opened : window.head? = some start)
    (times : List Int) :
    config.answers window ++
        decisionsAlone config (some (openEntry config start window)) times =
      ((windowsFrom config.windowDuration start window times).map
        config.answers).flatten := by
  induction times generalizing start window with
  | nil => simp [decisionsAlone, windowsFrom]
  | cons now times induction =>
      rw [decisionsAlone, windowsFrom]
      by_cases passed : start + config.windowDuration < now
      · have renewed : config.judge (some (openEntry config start window))
            now = config.newWindow now := if_pos passed
        have rest := @induction now [now] rfl
        rw [answers_singleton positive] at rest
        rw [if_pos passed, List.map_cons, List.flatten_cons, ← rest, renewed]
        rfl
      · have stillOpen : (window ++ [now]).head? = some start := by
          rw [List.head?_append, opened]
          rfl
        have rest := induction stillOpen
        rw [answers_append_singleton, List.headD_eq_head?_getD, opened,
          Option.getD_some, List.append_assoc] at rest
        rw [if_neg passed, ← rest, judge_openEntry passed]
        rfl

theorem decisionsAlone_eq_answers (positive : 0 < config.maxRequests)
    (times : List Int) :
    decisionsAlone config none times =
      ((windows config.windowDuration times).map config.answers).flatten := by
  cases times with
  | nil => rfl
  | cons now times =>
      have rest := @answers_windowsFrom config positive now [now] rfl times
      rw [answers_singleton positive] at rest
      rw [windows, ← rest]
      rfl

theorem admitted_answers (window : List Int) :
    ((config.answers window).filter fun request =>
        request.2.allowed).map Prod.fst =
      firstRequests config window := by
  induction window using List.reverseRecOn with
  | nil => simp [Config.answers, firstRequests]
  | append_singleton window now induction =>
      rw [answers_append_singleton, List.filter_append, List.map_append,
        induction]
      by_cases room : (window.length : Int) < config.maxRequests
      · have whole : firstRequests config (window ++ [now]) =
            firstRequests config window ++ [now] := by
          rw [firstRequests, firstRequests, List.take_of_length_le,
            List.take_of_length_le]
          · omega
          · rw [List.length_append, List.length_singleton]
            omega
        rw [whole]
        simp [Config.answerAt, room]
      · have cut : firstRequests config (window ++ [now]) =
            firstRequests config window := by
          rw [firstRequests, firstRequests, List.take_append_of_le_length]
          omega
        rw [cut]
        simp [Config.answerAt, room]

theorem admitted_windows (positive : 0 < config.maxRequests)
    (times : List Int) :
    ((decisionsAlone config none times).filter fun request =>
        request.2.allowed).map Prod.fst =
      ((windows config.windowDuration times).map
        (firstRequests config)).flatten := by
  rw [decisionsAlone_eq_answers positive, List.filter_flatten,
    List.map_flatten, List.map_map, List.map_map]
  congr 2
  funext window
  exact admitted_answers window

theorem flatten_windowsFrom (duration start : Int)
    (window times : List Int) :
    (windowsFrom duration start window times).flatten = window ++ times := by
  induction times generalizing start window with
  | nil => simp [windowsFrom]
  | cons now times induction =>
      rw [windowsFrom]
      split
      · rw [List.flatten_cons, induction, List.singleton_append]
      · rw [induction, List.append_assoc, List.singleton_append]

theorem flatten_windows (duration : Int) (times : List Int) :
    (windows duration times).flatten = times := by
  cases times with
  | nil => rfl
  | cons now times => exact flatten_windowsFrom duration now [now] times

/-- The first window lies between its start and its end, and the others lie
beyond. -/
structure Opens (duration start : Int) (groups : List (List Int)) : Prop where
  far : FarApart (· + duration) groups
  parts : ∃ head rest, groups = head :: rest ∧
    (∀ now ∈ head, start ≤ now ∧ now ≤ start + duration) ∧
      ∀ later ∈ rest.flatten, start + duration < later

theorem inside_own_window {duration : Int} (nonneg : 0 ≤ duration)
    (now : Int) : ∀ other ∈ [now], now ≤ other ∧ other ≤ now + duration := by
  intro other member
  rw [List.mem_singleton.mp member]
  omega

theorem windowsFrom_opens {duration : Int} (nonneg : 0 ≤ duration)
    {start : Int} {window times : List Int}
    (inside : ∀ now ∈ window, start ≤ now ∧ now ≤ start + duration)
    (ordered : (start :: times).Pairwise (· ≤ ·)) :
    Opens duration start (windowsFrom duration start window times) := by
  induction times generalizing start window with
  | nil => exact ⟨trivial, window, [], rfl, inside, nofun⟩
  | cons now times induction =>
      have rest := List.Pairwise.of_cons ordered
      have after : start ≤ now :=
        List.rel_of_pairwise_cons ordered List.mem_cons_self
      rw [windowsFrom]
      split
      next passed =>
        obtain ⟨far, head, others, opened, headInside, beyond⟩ :=
          induction (inside_own_window nonneg now) rest
        rw [opened] at far ⊢
        refine ⟨⟨?_, far⟩, window, head :: others, rfl, inside, ?_⟩
        · intro earlier earlierMember later laterMember
          have early := inside earlier earlierMember
          have late := beyond later laterMember
          change earlier + duration < later
          omega
        · intro later member
          rw [List.flatten_cons] at member
          rcases List.mem_append.mp member with inHead | inOthers
          · have late := headInside later inHead
            omega
          · have late := beyond later inOthers
            omega
      next within =>
        apply induction
        · intro other member
          rcases List.mem_append.mp member with old | new
          · exact inside other old
          · rw [List.mem_singleton.mp new]
            omega
        · apply List.Pairwise.cons
          · intro later member
            exact List.rel_of_pairwise_cons ordered
              (List.mem_cons_of_mem _ member)
          · exact List.Pairwise.of_cons rest

theorem windows_far {duration : Int} (nonneg : 0 ≤ duration)
    {times : List Int} (ordered : times.Pairwise (· ≤ ·)) :
    FarApart (· + duration) (windows duration times) := by
  cases times with
  | nil => exact trivial
  | cons now times =>
      exact (windowsFrom_opens nonneg (inside_own_window nonneg now)
        ordered).far

end Windows

/-! ## Runs -/

theorem withDefaults_positive (cfg : Config) :
    0 < cfg.withDefaults.maxRequests ∧
      0 < cfg.withDefaults.windowDuration := by
  have oneMinute : (0 : Int) < 1 * minute := by decide
  rw [Config.withDefaults]
  dsimp only
  split <;> split <;> omega

namespace Limiter

variable {cfg : Config} {key : String} {calls : List Call}

theorem requestTimes_sublist (key : String) (calls : List Call) :
    (requestTimes key calls).Sublist (calls.map Call.time) := by
  induction calls with
  | nil => exact List.Sublist.refl _
  | cons call calls induction =>
      cases call with
      | allow other now =>
          rw [requestTimes]
          split
          · exact induction.cons_cons now
          · exact induction.cons now
      | cleanup now => exact induction.cons now

theorem decisionsFor_new_eq_alone
    (ordered : (calls.map Call.time).Pairwise (· ≤ ·)) :
    decisionsFor key (new cfg) calls =
      decisionsAlone cfg.withDefaults none (requestTimes key calls) := by
  cases calls with
  | nil => rfl
  | cons call calls =>
      have started : (call.time :: (call :: calls).map Call.time).Pairwise
          (· ≤ ·) := by
        apply List.Pairwise.cons _ ordered
        intro later member
        rcases List.mem_cons.mp member with same | rest
        · exact same.ge
        · exact List.rel_of_pairwise_cons ordered rest
      exact decisionsFor_eq_alone (.inl rfl) started

theorem letThrough_eq
    (ordered : (calls.map Call.time).Pairwise (· ≤ ·)) :
    letThrough key (new cfg) calls =
      ((windows cfg.withDefaults.windowDuration
        (requestTimes key calls)).map
          (firstRequests cfg.withDefaults)).flatten := by
  rw [letThrough, decisionsFor_new_eq_alone ordered]
  exact admitted_windows (withDefaults_positive cfg).1 _

theorem letThrough_sorted
    (ordered : (calls.map Call.time).Pairwise (· ≤ ·)) :
    (letThrough key (new cfg) calls).Pairwise (· ≤ ·) := by
  rw [letThrough_eq ordered]
  have thinned := sublist_flatten_map
    (fun window => List.take_sublist cfg.withDefaults.maxRequests.toNat window)
    (windows cfg.withDefaults.windowDuration (requestTimes key calls))
  rw [flatten_windows] at thinned
  exact ordered.sublist (thinned.trans (requestTimes_sublist key calls))

theorem groups_short (window : List Int) :
    ∀ group ∈ (windows cfg.withDefaults.windowDuration window).map
        (firstRequests cfg.withDefaults),
      group.length ≤ cfg.withDefaults.maxRequests.toNat := by
  intro group member
  obtain ⟨window, _, rfl⟩ := List.mem_map.mp member
  exact List.length_take_le _ _

theorem groups_far (ordered : (calls.map Call.time).Pairwise (· ≤ ·)) :
    FarApart (· + cfg.withDefaults.windowDuration)
      ((windows cfg.withDefaults.windowDuration
        (requestTimes key calls)).map (firstRequests cfg.withDefaults)) := by
  have sorted := ordered.sublist (requestTimes_sublist key calls)
  have far := windows_far (withDefaults_positive cfg).2.le sorted
  exact far.map fun window => List.take_sublist _ window

/-- Counting what falls into every interval is measuring distances. -/
theorem letThrough_within_iff_spaced
    (ordered : (calls.map Call.time).Pairwise (· ≤ ·)) (limit : Nat) :
    (∀ start, (within (· + cfg.withDefaults.windowDuration) start
        (letThrough key (new cfg) calls)).length ≤ limit) ↔
      Spaced (· + cfg.withDefaults.windowDuration) limit
        ((windows cfg.withDefaults.windowDuration
          (requestTimes key calls)).map
            (firstRequests cfg.withDefaults)).flatten := by
  rw [← letThrough_eq ordered]
  apply forall_within_le_iff_spaced _ (letThrough_sorted ordered)
  intro earlier later le
  exact Int.add_le_add_right le _

theorem maxRequests_toNat (cfg : Config) :
    ((cfg.withDefaults.maxRequests.toNat : Nat) : Int) =
      (new cfg).config.maxRequests :=
  Int.toNat_of_nonneg (withDefaults_positive cfg).1.le

/-- Under a clock that does not go back, every interval of the window duration
holds at most `maxRequests` requests that are let through exactly when
neighbouring windows are well spaced. -/
theorem letThrough_within_le_iff
    (ordered : (calls.map Call.time).Pairwise (· ≤ ·)) :
    (∀ start,
        ((within (· + (new cfg).config.windowDuration) start
          (letThrough key (new cfg) calls)).length : Int) ≤
            (new cfg).config.maxRequests) ↔
      WellSpaced (new cfg).config (requestTimes key calls) := by
  have counted := @letThrough_within_iff_spaced cfg key calls ordered
    cfg.withDefaults.maxRequests.toNat
  rw [spaced_flatten_iff (groups_short _) (groups_far ordered),
    List.isChain_map] at counted
  rw [← maxRequests_toNat]
  exact (forall_congr' fun start => Int.ofNat_le).trans counted

/-- Where two requests are the limit three pass: the last of a window and the
first two of the next. -/
theorem three_of_two_let_through :
    ¬ ∀ start,
        ((within (· + (new ⟨2, 10⟩).config.windowDuration) start
          (letThrough "client" (new ⟨2, 10⟩)
            [.allow "client" 0, .allow "client" 10, .allow "client" 11,
              .allow "client" 12])).length : Int) ≤
            (new ⟨2, 10⟩).config.maxRequests := by
  intro few
  have atTen := few 10
  revert atTen
  decide +kernel

theorem letThrough_within_le_iff_example :
    (∀ start,
        ((within (· + (new ⟨2, 10⟩).config.windowDuration) start
          (letThrough "client" (new ⟨2, 10⟩)
            [.allow "client" 0, .allow "other" 5, .cleanup 7,
              .allow "client" 12])).length : Int) ≤
            (new ⟨2, 10⟩).config.maxRequests) ↔
      WellSpaced (new ⟨2, 10⟩).config
        (requestTimes "client"
          [.allow "client" 0, .allow "other" 5, .cleanup 7,
            .allow "client" 12]) :=
  letThrough_within_le_iff (by decide +kernel)

/-- Whatever the spacing, no interval holds more than twice the limit. -/
theorem letThrough_within_le
    (ordered : (calls.map Call.time).Pairwise (· ≤ ·)) (start : Int) :
    ((within (· + (new cfg).config.windowDuration) start
        (letThrough key (new cfg) calls)).length : Int) ≤
      2 * (new cfg).config.maxRequests := by
  have counted := @letThrough_within_iff_spaced cfg key calls ordered
    (cfg.withDefaults.maxRequests.toNat + cfg.withDefaults.maxRequests.toNat)
  have few := counted.mpr
    (spaced_flatten_add_self (groups_short _) (groups_far ordered)) start
  rw [← maxRequests_toNat]
  change ((within (· + cfg.withDefaults.windowDuration) start
    (letThrough key (new cfg) calls)).length : Int) ≤ _
  omega

end Limiter

end Ughi.Orchestrator.RateLimit
