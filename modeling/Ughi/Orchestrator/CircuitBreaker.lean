import Ughi.Lib.Interleaving

/-!
# The circuit breaker

`Execute` takes the lock twice: before the function runs, to decide whether it
may, and afterwards, to account for its outcome.  In between the breaker is
free for other calls.  Times are nanoseconds after the zero time.
-/

namespace Ughi.Orchestrator.Resilience

open Ughi.Lib

/-- State represents the circuit breaker state. -/
inductive State where
  | stateClosed
  | stateOpen
  | stateHalfOpen
deriving DecidableEq, Repr

/-- Config holds circuit breaker configuration. -/
structure Config where
  failureThreshold : Int
  cooldownDuration : Int
  successThreshold : Int
  name : String
deriving DecidableEq, Repr

def second : Int := 1000000000

def Config.withDefaults (cfg : Config) : Config :=
  { failureThreshold :=
      if cfg.failureThreshold ≤ 0 then 5 else cfg.failureThreshold
    cooldownDuration :=
      if cfg.cooldownDuration ≤ 0 then 30 * second else cfg.cooldownDuration
    successThreshold :=
      if cfg.successThreshold ≤ 0 then 2 else cfg.successThreshold
    name := cfg.name }

/-- CircuitBreaker implements the circuit breaker pattern. -/
structure CircuitBreaker where
  config : Config
  state : State
  failureCount : Int
  successCount : Int
  lastFailureTime : Int
  totalFailures : Int
  totalSuccesses : Int
  totalRejected : Int
deriving DecidableEq, Repr

namespace CircuitBreaker

/-- NewCircuitBreaker creates a new circuit breaker. -/
def new (cfg : Config) : CircuitBreaker :=
  { config := cfg.withDefaults
    state := .stateClosed
    failureCount := 0
    successCount := 0
    lastFailureTime := 0
    totalFailures := 0
    totalSuccesses := 0
    totalRejected := 0 }

/-- The first section of `Execute`: the error, if the function is not called. -/
def executeEntry (cb : CircuitBreaker) (now : Int) :
    CircuitBreaker × Option String :=
  match cb.state with
  | .stateOpen =>
      if now - cb.lastFailureTime ≥ cb.config.cooldownDuration then
        ({ cb with
            state := .stateHalfOpen
            successCount := 0 }, none)
      else
        ({ cb with totalRejected := cb.totalRejected + 1 },
          some ("circuit breaker '" ++ cb.config.name ++
            "' is open: rejecting call"))
  | .stateHalfOpen => (cb, none)
  | .stateClosed => (cb, none)

/-- The second section of `Execute` when the function returned an error. -/
def fail (cb : CircuitBreaker) (now : Int) : CircuitBreaker :=
  let cb :=
    { cb with
      failureCount := cb.failureCount + 1
      totalFailures := cb.totalFailures + 1
      lastFailureTime := now }
  if cb.state = .stateHalfOpen ∨
      cb.failureCount ≥ cb.config.failureThreshold then
    { cb with state := .stateOpen }
  else cb

/-- The second section of `Execute` when the function succeeded. -/
def succeed (cb : CircuitBreaker) : CircuitBreaker :=
  let cb := { cb with totalSuccesses := cb.totalSuccesses + 1 }
  match cb.state with
  | .stateHalfOpen =>
      let cb := { cb with successCount := cb.successCount + 1 }
      if cb.successCount ≥ cb.config.successThreshold then
        { cb with
          state := .stateClosed
          failureCount := 0
          successCount := 0 }
      else cb
  | .stateClosed => { cb with failureCount := 0 }
  | .stateOpen => cb

/-- The second section of `Execute`, with what the function returned. -/
def executeExit (cb : CircuitBreaker) (err : Option String) (now : Int) :
    CircuitBreaker × Option String :=
  match err with
  | some _ => (cb.fail now, err)
  | none => (cb.succeed, none)

end CircuitBreaker

/-- What the function returned, and when. -/
structure Outcome where
  err : Option String
  now : Int
deriving DecidableEq, Repr

/-- The function of a call runs between the two sections. -/
inductive Fn where
  | runs
deriving DecidableEq, Repr

def executeSections :
    Sections CircuitBreaker Fn Int Outcome (Option String) where
  enter := fun cb now =>
    match cb.executeEntry now with
    | (cb, none) => (cb, .goesOn .runs)
    | (cb, some error) => (cb, .done (some error))
  advance := fun cb _ outcome =>
    let (cb, err) := cb.executeExit outcome.err outcome.now
    (cb, .done err)

/-- A breaker with the calls of `Execute` under way. -/
abbrev Calls : Type := Interleaved CircuitBreaker Fn (Option String)

abbrev CallMove : Type := Move Int Outcome

/-- The breaker and the calls after a run of sections. -/
def afterSections (cfg : Config) (moves : List CallMove) : Calls :=
  runCalls (Interleaved.step executeSections)
    (Interleaved.start (.new cfg)) moves

/-! ## Bookkeeping -/

namespace CircuitBreaker

variable {cfg : Config} {cb : CircuitBreaker}

/-- The counters stay below the thresholds that end a state. -/
structure Consistent (cfg : Config) (cb : CircuitBreaker) : Prop where
  config : cb.config = cfg.withDefaults
  closed : cb.state = .stateClosed →
    cb.failureCount < cfg.withDefaults.failureThreshold
  halfOpen : cb.state = .stateHalfOpen →
    cb.successCount < cfg.withDefaults.successThreshold

theorem withDefaults_positive (cfg : Config) :
    0 < cfg.withDefaults.failureThreshold ∧
      0 < cfg.withDefaults.successThreshold := by
  rw [Config.withDefaults]
  dsimp only
  split <;> split <;> omega

theorem new_consistent (cfg : Config) : Consistent cfg (new cfg) :=
  { config := rfl
    closed := fun _ => (withDefaults_positive cfg).1
    halfOpen := nofun }

theorem executeEntry_consistent (consistent : Consistent cfg cb) (now : Int) :
    Consistent cfg (cb.executeEntry now).1 := by
  obtain ⟨config, closed, halfOpen⟩ := consistent
  unfold executeEntry
  split
  next opened =>
    split
    next elapsed =>
      exact ⟨config, nofun, fun _ => (withDefaults_positive cfg).2⟩
    next early => exact ⟨config, closed, halfOpen⟩
  next testing => exact ⟨config, closed, halfOpen⟩
  next normal => exact ⟨config, closed, halfOpen⟩

theorem fail_consistent (consistent : Consistent cfg cb) (now : Int) :
    Consistent cfg (cb.fail now) := by
  obtain ⟨config, closed, halfOpen⟩ := consistent
  rw [fail]
  dsimp only
  split
  next opens => exact ⟨config, nofun, nofun⟩
  next stays =>
    rw [not_or, config] at stays
    exact ⟨config, fun _ => Int.lt_of_not_ge stays.2,
      fun testing => absurd testing stays.1⟩

theorem succeed_consistent (consistent : Consistent cfg cb) :
    Consistent cfg cb.succeed := by
  obtain ⟨config, closed, halfOpen⟩ := consistent
  obtain ⟨failurePositive, successPositive⟩ := withDefaults_positive cfg
  unfold succeed
  dsimp only
  split
  next testing =>
    split
    next enough => exact ⟨config, fun _ => failurePositive, nofun⟩
    next more =>
      rw [config] at more
      exact ⟨config, closed, fun _ => Int.lt_of_not_ge more⟩
  next normal => exact ⟨config, fun _ => failurePositive, halfOpen⟩
  next opened => exact ⟨config, closed, halfOpen⟩

theorem executeExit_consistent (consistent : Consistent cfg cb)
    (err : Option String) (now : Int) :
    Consistent cfg (cb.executeExit err now).1 := by
  cases err with
  | some error => exact fail_consistent consistent now
  | none => exact succeed_consistent consistent

/-- The calls that are over. -/
def accounted (cb : CircuitBreaker) : Int :=
  cb.totalFailures + cb.totalSuccesses + cb.totalRejected

theorem accounted_executeEntry (now : Int) :
    (cb.executeEntry now).1.accounted =
      cb.accounted + (cb.executeEntry now).2.isSome.toNat := by
  unfold executeEntry
  split
  next opened =>
    split
    next elapsed => exact (Int.add_zero _).symm
    next early => exact (Int.add_assoc _ _ _).symm
  next testing => exact (Int.add_zero _).symm
  next normal => exact (Int.add_zero _).symm

theorem accounted_fail (now : Int) :
    (cb.fail now).accounted = cb.accounted + 1 := by
  rw [fail]
  dsimp only
  split
  all_goals
    simp only [accounted]
    omega

theorem accounted_succeed : cb.succeed.accounted = cb.accounted + 1 := by
  unfold succeed
  dsimp only
  split
  next testing =>
    split
    all_goals
      simp only [accounted]
      omega
  all_goals
    simp only [accounted]
    omega

theorem accounted_executeExit (err : Option String) (now : Int) :
    (cb.executeExit err now).1.accounted = cb.accounted + 1 := by
  cases err with
  | some error => exact accounted_fail now
  | none => exact accounted_succeed

/-! ## What the sections do to the state -/

theorem executeEntry_of_halfOpen (testing : cb.state = .stateHalfOpen)
    (now : Int) : cb.executeEntry now = (cb, none) := by
  rw [executeEntry, testing]

theorem executeEntry_opens_test (before : cb.state ≠ .stateHalfOpen)
    {now : Int} (after : (cb.executeEntry now).1.state = .stateHalfOpen) :
    (cb.executeEntry now).1.successCount = 0 ∧
      (cb.executeEntry now).2 = none := by
  cases state : cb.state with
  | stateHalfOpen => exact absurd state before
  | stateClosed =>
      rw [executeEntry, state] at after
      rw [state] at after
      cases after
  | stateOpen =>
      rw [executeEntry, state] at after ⊢
      dsimp only at after ⊢
      by_cases elapsed :
          now - cb.lastFailureTime ≥ cb.config.cooldownDuration
      · rw [if_pos elapsed]
        exact ⟨rfl, rfl⟩
      · rw [if_neg elapsed] at after
        cases after

theorem fail_state (now : Int) :
    (cb.fail now).state =
      if cb.state = .stateHalfOpen ∨
          cb.failureCount + 1 ≥ cb.config.failureThreshold then .stateOpen
      else cb.state := by
  rw [fail]
  dsimp only
  split <;> rfl

theorem fail_failureCount (now : Int) :
    (cb.fail now).failureCount = cb.failureCount + 1 := by
  rw [fail]
  dsimp only
  split <;> rfl

theorem fail_lastFailureTime (now : Int) :
    (cb.fail now).lastFailureTime = now := by
  rw [fail]
  dsimp only
  split <;> rfl

theorem fail_of_halfOpen (testing : cb.state = .stateHalfOpen) (now : Int) :
    (cb.fail now).state = .stateOpen := by
  rw [fail_state, if_pos (.inl testing)]

theorem fail_state_ne_halfOpen (cb : CircuitBreaker) (now : Int) :
    (cb.fail now).state ≠ .stateHalfOpen := by
  rw [fail_state]
  split
  next opens =>
    intro testing
    cases testing
  next stays =>
    intro testing
    exact stays (.inl testing)

theorem succeed_of_halfOpen (testing : cb.state = .stateHalfOpen) :
    (cb.succeed.state = .stateClosed ∧
        cb.config.successThreshold ≤ cb.successCount + 1) ∨
      (cb.succeed.state = .stateHalfOpen ∧
        cb.succeed.successCount = cb.successCount + 1 ∧
          cb.successCount + 1 < cb.config.successThreshold) := by
  rw [succeed]
  dsimp only
  rw [testing]
  dsimp only
  by_cases enough : cb.successCount + 1 ≥ cb.config.successThreshold
  · rw [if_pos enough]
    exact .inl ⟨rfl, enough⟩
  · rw [if_neg enough]
    exact .inr ⟨rfl, rfl, Int.lt_of_not_ge enough⟩

theorem succeed_state_of_ne_halfOpen (other : cb.state ≠ .stateHalfOpen) :
    cb.succeed.state = cb.state := by
  rw [succeed]
  dsimp only
  cases state : cb.state with
  | stateHalfOpen => exact absurd state other
  | stateClosed => rfl
  | stateOpen => rfl

theorem succeed_failureCount_of_closed
    (closed : cb.succeed.state = .stateClosed) :
    cb.succeed.failureCount = 0 := by
  rw [succeed] at closed ⊢
  dsimp only at closed ⊢
  cases state : cb.state with
  | stateHalfOpen =>
      rw [state] at closed
      dsimp only at closed ⊢
      split
      next enough => rfl
      next more =>
        rw [if_neg more] at closed
        cases closed
  | stateClosed => rfl
  | stateOpen =>
      rw [state] at closed
      cases closed

theorem succeed_lastFailureTime :
    cb.succeed.lastFailureTime = cb.lastFailureTime := by
  rw [succeed]
  dsimp only
  split
  · split <;> rfl
  · rfl
  · rfl

theorem executeEntry_rejects (opened : cb.state = .stateOpen) {now : Int}
    (early : now - cb.lastFailureTime < cb.config.cooldownDuration) :
    (cb.executeEntry now).2 =
      some ("circuit breaker '" ++ cb.config.name ++
        "' is open: rejecting call") := by
  rw [executeEntry, opened]
  dsimp only
  rw [if_neg (Int.not_le.mpr early)]

end CircuitBreaker

open CircuitBreaker

theorem enter_eq (cb : CircuitBreaker) (now : Int) :
    executeSections.enter cb now =
      ((cb.executeEntry now).1,
        match (cb.executeEntry now).2 with
        | none => .goesOn .runs
        | some error => .done (some error)) := by
  rw [executeSections]
  dsimp only
  obtain ⟨cb, error⟩ := cb.executeEntry now
  cases error <;> rfl

theorem afterSections_consistent (cfg : Config) (moves : List CallMove) :
    Consistent cfg (afterSections cfg moves).shared := by
  apply Interleaved.shared_runCalls
  · intro cb now consistent
    rw [enter_eq]
    exact executeEntry_consistent consistent now
  · intro cb _ outcome consistent
    exact executeExit_consistent consistent outcome.err outcome.now
  · exact new_consistent cfg

theorem accounted_eq_finished (cfg : Config) (moves : List CallMove) :
    (afterSections cfg moves).shared.accounted =
      (afterSections cfg moves).finished.length := by
  apply Interleaved.tally_eq_finished
  · intro cb now
    rw [enter_eq, accounted_executeEntry]
    cases (cb.executeEntry now).2 <;> rfl
  · intro cb _ outcome
    exact accounted_executeExit outcome.err outcome.now
  · rfl

theorem enter_running_of_rejected {calls : Calls} {now : Int}
    {error : String}
    (rejected : (calls.shared.executeEntry now).2 = some error) :
    (calls.step executeSections (.enter now)).running = calls.running := by
  rw [Interleaved.step, enter_eq, rejected]
  rfl

/-- In every interleaving of calls the counters are below their thresholds,
each call is counted once, and a breaker that cools down admits nothing. -/
theorem bookkeeping_sound (cfg : Config) (moves : List CallMove) :
    let calls := afterSections cfg moves
    let cb := calls.shared
    (cb.state = .stateClosed →
        cb.failureCount < cb.config.failureThreshold) ∧
      (cb.state = .stateHalfOpen →
        cb.successCount < cb.config.successThreshold) ∧
      cb.totalFailures + cb.totalSuccesses + cb.totalRejected +
          calls.running.length = moves.countP Move.isEnter ∧
      ∀ now, cb.state = .stateOpen →
        now - cb.lastFailureTime < cb.config.cooldownDuration →
          (calls.step executeSections (.enter now)).running =
            calls.running := by
  have consistent := afterSections_consistent cfg moves
  have counted := accounted_eq_finished cfg moves
  have every : (afterSections cfg moves).running.length +
      (afterSections cfg moves).finished.length =
        moves.countP Move.isEnter :=
    Interleaved.running_add_finished (CircuitBreaker.new cfg) moves
  dsimp only
  rw [consistent.config]
  refine ⟨consistent.closed, consistent.halfOpen, ?_, ?_⟩
  · rw [accounted] at counted
    omega
  · intro now opened early
    rw [← consistent.config] at early
    exact enter_running_of_rejected (executeEntry_rejects opened early)

end Ughi.Orchestrator.Resilience
