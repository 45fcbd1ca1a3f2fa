import Ughi.Lib.Projection
import Ughi.Orchestrator.CircuitBreaker

/-!
# The circuit breaker as a function of what happened

When calls do not overlap, the breaker can be described without counters: its
state follows from the outcomes so far.  The reference below keeps these, and
shows the same as the breaker in every run.
-/

namespace Ughi.Orchestrator.Resilience

open Ughi.Lib

/-- A call that no other overlaps: when it enters, what its function returns if
it is called, and when. -/
structure Attempt where
  enteredAt : Int
  err : Option String
  finishedAt : Int
deriving DecidableEq, Repr

/-- What can be seen of a call: whether its function is called, the state
meanwhile, what the call returns and the state it leaves. -/
structure Showing where
  called : Bool
  during : State
  returned : Option String
  after : State
deriving DecidableEq, Repr

/-- Execute runs the given function through the circuit breaker. -/
def CircuitBreaker.execute (cb : CircuitBreaker) (attempt : Attempt) :
    Showing × CircuitBreaker :=
  match cb.executeEntry attempt.enteredAt with
  | (entered, some error) =>
      ({ called := false
         during := entered.state
         returned := some error
         after := entered.state }, entered)
  | (entered, none) =>
      let left := entered.executeExit attempt.err attempt.finishedAt
      ({ called := true
         during := entered.state
         returned := left.2
         after := left.1.state }, left.1)

/-! ## The reference -/

/-- A function that was called: whether to probe a half-open breaker, whether
it failed, and when it returned. -/
structure Happened where
  probe : Bool
  failed : Bool
  finishedAt : Int
deriving DecidableEq, Repr

namespace Reference

/-- The failures since the last success, the latest outcome first. -/
def failuresInARow (history : List Happened) : Nat :=
  (history.takeWhile Happened.failed).length

/-- The successes of probes since anything else. -/
def probesInARow (history : List Happened) : Nat :=
  (history.takeWhile fun happened =>
    happened.probe && !happened.failed).length

def lastFailure (history : List Happened) : Option Happened :=
  history.find? Happened.failed

/-- The state after what happened.  A probe that fails opens the breaker, and
so does the failure that makes up the threshold; the probe that makes up the
threshold of successes closes it. -/
def stateAfter (config : Config) : List Happened → State
  | [] => .stateClosed
  | last :: earlier =>
      if last.failed then
        if last.probe ∨
            failuresInARow (last :: earlier) = config.failureThreshold then
          .stateOpen
        else .stateClosed
      else if last.probe ∧
          probesInARow (last :: earlier) ≠ config.successThreshold then
        .stateHalfOpen
      else .stateClosed

/-- The last failure is less than the cooldown ago. -/
def coolingDown (config : Config) (history : List Happened) (now : Int) :
    Bool :=
  (lastFailure history).any fun failure =>
    now - failure.finishedAt < config.cooldownDuration

/-- A call is turned away while an open breaker cools down; otherwise its
function is called, as a probe unless the breaker is closed. -/
def execute (config : Config) (history : List Happened) (attempt : Attempt) :
    Showing × List Happened :=
  let state := stateAfter config history
  if state = .stateOpen ∧ coolingDown config history attempt.enteredAt then
    ({ called := false
       during := .stateOpen
       returned := some ("circuit breaker '" ++ config.name ++
          "' is open: rejecting call")
       after := .stateOpen }, history)
  else
    let probe := decide (state ≠ .stateClosed)
    let happened : List Happened :=
      { probe
        failed := attempt.err.isSome
        finishedAt := attempt.finishedAt } :: history
    ({ called := true
       during := if probe then .stateHalfOpen else .stateClosed
       returned := attempt.err
       after := stateAfter config happened }, happened)

section Counting

variable {config : Config} {last : Happened} {earlier history : List Happened}

theorem failuresInARow_cons :
    failuresInARow (last :: earlier) =
      if last.failed then failuresInARow earlier + 1 else 0 := by
  rw [failuresInARow, List.takeWhile_cons]
  split <;> rfl

theorem probesInARow_cons :
    probesInARow (last :: earlier) =
      if last.probe && !last.failed then probesInARow earlier + 1 else 0 := by
  rw [probesInARow, List.takeWhile_cons]
  split <;> rfl

theorem failed_of_open (opened : stateAfter config history = .stateOpen) :
    ∃ failure earlier, history = failure :: earlier ∧
      failure.failed = true := by
  cases history with
  | nil => cases opened
  | cons last earlier =>
      refine ⟨last, earlier, rfl, ?_⟩
      rw [stateAfter] at opened
      split at opened
      next failed => exact failed
      next succeeded => split at opened <;> cases opened

end Counting

end Reference

/-! ## What the breaker keeps of the history -/

namespace CircuitBreaker

open Reference

variable {cfg : Config} {cb : CircuitBreaker} {history : List Happened}

/-- The breaker remembers the time of the last failure. -/
def RemembersFailure (cb : CircuitBreaker) (history : List Happened) : Prop :=
  ∀ failure, lastFailure history = some failure →
    failure.finishedAt = cb.lastFailureTime

/-- Between calls, the counter of the state the breaker is in is the length of
the row it counts.  The others are stale. -/
structure Tracks (cfg : Config) (cb : CircuitBreaker)
    (history : List Happened) : Prop where
  consistent : Consistent cfg cb
  state : stateAfter cfg.withDefaults history = cb.state
  failures : cb.state = .stateClosed →
    cb.failureCount = failuresInARow history
  successes : cb.state = .stateHalfOpen →
    cb.successCount = probesInARow history
  remembers : RemembersFailure cb history

/-- While a function runs, the same holds of the state it runs in. -/
structure TracksDuring (cfg : Config) (cb : CircuitBreaker)
    (history : List Happened) (probe : Bool) : Prop where
  consistent : Consistent cfg cb
  state : cb.state = if probe then .stateHalfOpen else .stateClosed
  failures : probe = false → cb.failureCount = failuresInARow history
  successes : probe = true → cb.successCount = probesInARow history
  remembers : RemembersFailure cb history

theorem tracks_new (cfg : Config) : Tracks cfg (new cfg) [] where
  consistent := new_consistent cfg
  state := rfl
  failures := fun _ => rfl
  successes := nofun
  remembers := nofun

theorem coolingDown_of_open (config : Config)
    (opened : stateAfter config history = .stateOpen)
    (remembers : RemembersFailure cb history) (now : Int) :
    coolingDown config history now =
      decide (now - cb.lastFailureTime < config.cooldownDuration) := by
  obtain ⟨failure, earlier, rfl, failed⟩ := failed_of_open opened
  have last : lastFailure (failure :: earlier) = some failure := by
    rw [lastFailure, List.find?_cons, failed]
  rw [coolingDown, last, Option.any_some, remembers failure last]

/-- A call is turned away where the reference turns it away, and otherwise its
function runs in the state of the reference. -/
theorem executeEntry_cases (tracks : Tracks cfg cb history) (now : Int) :
    (stateAfter cfg.withDefaults history = .stateOpen ∧
        coolingDown cfg.withDefaults history now = true ∧
          cb.executeEntry now =
            ({ cb with totalRejected := cb.totalRejected + 1 },
              some ("circuit breaker '" ++ cfg.withDefaults.name ++
                "' is open: rejecting call"))) ∨
      (¬ (stateAfter cfg.withDefaults history = .stateOpen ∧
          coolingDown cfg.withDefaults history now = true) ∧
        ∃ entered, cb.executeEntry now = (entered, none) ∧
          TracksDuring cfg entered history
            (decide (stateAfter cfg.withDefaults history ≠
              .stateClosed))) := by
  obtain ⟨consistent, same, failures, successes, remembers⟩ := tracks
  have entry := executeEntry_consistent consistent now
  rw [same]
  cases state : cb.state with
  | stateClosed =>
      refine .inr ⟨?_, cb, ?_, consistent, state, ?_, ?_, remembers⟩
      · rintro ⟨opened, _⟩
        cases opened
      · rw [executeEntry, state]
      · intro _
        exact failures state
      · simp
  | stateHalfOpen =>
      refine .inr ⟨?_, cb, ?_, consistent, state, ?_, ?_, remembers⟩
      · rintro ⟨opened, _⟩
        cases opened
      · rw [executeEntry, state]
      · simp
      · intro _
        exact successes state
  | stateOpen =>
      have opened := same.trans state
      rw [coolingDown_of_open _ opened remembers, decide_eq_true_eq,
        ← consistent.config]
      rw [executeEntry, state] at entry ⊢
      dsimp only at entry ⊢
      by_cases early :
          now - cb.lastFailureTime < cb.config.cooldownDuration
      · rw [if_neg (Int.not_le.mpr early)]
        exact .inl ⟨rfl, early, rfl⟩
      · rw [if_pos (Int.not_lt.mp early)] at entry ⊢
        refine .inr ⟨fun both => early both.2, _, rfl, entry, rfl, ?_, ?_,
          remembers⟩
        · simp
        · intro _
          obtain ⟨failure, earlier, rfl, failed⟩ := failed_of_open opened
          rw [probesInARow_cons, failed]
          simp

theorem fail_remembers (probe : Bool) (now : Int) :
    RemembersFailure (cb.fail now)
      ({ probe, failed := true, finishedAt := now } :: history) := by
  intro failure last
  rw [lastFailure, List.find?_cons] at last
  cases last
  exact (fail_lastFailureTime now).symm

theorem succeed_remembers (remembers : RemembersFailure cb history)
    (probe : Bool) (now : Int) :
    RemembersFailure cb.succeed
      ({ probe, failed := false, finishedAt := now } :: history) := by
  intro failure last
  rw [lastFailure, List.find?_cons] at last
  rw [succeed_lastFailureTime]
  exact remembers failure last

theorem fail_tracks_probe (during : TracksDuring cfg cb history true)
    (now : Int) :
    Tracks cfg (cb.fail now)
      ({ probe := true, failed := true, finishedAt := now } :: history) := by
  have opened : (cb.fail now).state = .stateOpen := by
    rw [fail_state, if_pos (.inl during.state)]
  refine ⟨fail_consistent during.consistent now, opened.symm, ?_, ?_,
    fail_remembers true now⟩
  · intro closed
    rw [opened] at closed
    cases closed
  · intro testing
    rw [opened] at testing
    cases testing

theorem fail_tracks_closed (during : TracksDuring cfg cb history false)
    (now : Int) :
    Tracks cfg (cb.fail now)
      ({ probe := false, failed := true, finishedAt := now } :: history) := by
  obtain ⟨consistent, state, failures, _, _⟩ := during
  have normal : cb.state = .stateClosed := state
  have below := consistent.closed normal
  rw [failures rfl] at below
  have counted : failuresInARow
        ({ probe := false, failed := true, finishedAt := now } :: history) =
      failuresInARow history + 1 := failuresInARow_cons
  have moved : (cb.fail now).state =
      stateAfter cfg.withDefaults
        ({ probe := false, failed := true, finishedAt := now } ::
          history) := by
    rw [fail_state, normal, failures rfl, consistent.config, stateAfter,
      counted]
    by_cases enough : (failuresInARow history : Int) + 1 =
        cfg.withDefaults.failureThreshold
    · simp [enough]
    · have room : ¬ cfg.withDefaults.failureThreshold ≤
          (failuresInARow history : Int) + 1 := by
        omega
      simp [enough, room]
  refine ⟨fail_consistent consistent now, moved.symm, ?_, ?_,
    fail_remembers false now⟩
  · intro _
    rw [fail_failureCount, failures rfl, counted]
    rfl
  · intro testing
    rw [fail_state, normal] at testing
    split at testing
    · cases testing
    · cases testing

theorem succeed_tracks_probe (during : TracksDuring cfg cb history true)
    (now : Int) :
    Tracks cfg cb.succeed
      ({ probe := true, failed := false, finishedAt := now } ::
        history) := by
  obtain ⟨consistent, state, _, successes, remembers⟩ := during
  have testing : cb.state = .stateHalfOpen := state
  have below := consistent.halfOpen testing
  rw [successes rfl] at below
  have counted : probesInARow
        ({ probe := true, failed := false, finishedAt := now } :: history) =
      probesInARow history + 1 := probesInARow_cons
  have none : failuresInARow
        ({ probe := true, failed := false, finishedAt := now } :: history) =
      0 := failuresInARow_cons
  have moved : cb.succeed.state =
      stateAfter cfg.withDefaults
        ({ probe := true, failed := false, finishedAt := now } ::
          history) := by
    rw [stateAfter, counted]
    rcases succeed_of_halfOpen testing with
      ⟨closed, enough⟩ | ⟨stays, _, more⟩
    · rw [closed]
      rw [successes rfl, consistent.config] at enough
      have reached : ((probesInARow history + 1 : Nat) : Int) =
          cfg.withDefaults.successThreshold := by
        omega
      simp [reached]
    · rw [stays]
      rw [successes rfl, consistent.config] at more
      have missed : ¬ (probesInARow history : Int) + 1 =
          cfg.withDefaults.successThreshold := by
        omega
      simp [missed]
  refine ⟨succeed_consistent consistent, moved.symm, ?_, ?_,
    succeed_remembers remembers true now⟩
  · intro closed
    rw [succeed_failureCount_of_closed closed, none]
    rfl
  · intro stays
    rcases succeed_of_halfOpen testing with ⟨closed, _⟩ | ⟨_, next, _⟩
    · rw [closed] at stays
      cases stays
    · rw [next, successes rfl, counted]
      rfl

theorem succeed_tracks_closed (during : TracksDuring cfg cb history false)
    (now : Int) :
    Tracks cfg cb.succeed
      ({ probe := false, failed := false, finishedAt := now } ::
        history) := by
  obtain ⟨consistent, state, _, _, remembers⟩ := during
  have normal : cb.state = .stateClosed := state
  have kept : cb.succeed =
      { cb with
        totalSuccesses := cb.totalSuccesses + 1
        failureCount := 0 } := by
    rw [succeed]
    simp only [normal]
  have none : failuresInARow
        ({ probe := false, failed := false, finishedAt := now } :: history) =
      0 := failuresInARow_cons
  refine ⟨succeed_consistent consistent, ?_, ?_, ?_,
    succeed_remembers remembers false now⟩
  · rw [kept]
    exact normal.symm
  · intro _
    rw [kept, none]
    rfl
  · intro testing
    rw [kept] at testing
    cases normal.symm.trans testing

theorem executeExit_tracks {probe : Bool}
    (during : TracksDuring cfg cb history probe) (err : Option String)
    (now : Int) :
    Tracks cfg (cb.executeExit err now).1
      ({ probe, failed := err.isSome, finishedAt := now } :: history) := by
  cases err with
  | some error =>
      cases probe with
      | true => exact fail_tracks_probe during now
      | false => exact fail_tracks_closed during now
  | none =>
      cases probe with
      | true => exact succeed_tracks_probe during now
      | false => exact succeed_tracks_closed during now

theorem executeExit_returned (err : Option String) (now : Int) :
    (cb.executeExit err now).2 = err := by
  cases err <;> rfl

theorem rejected_tracks (tracks : Tracks cfg cb history) (rejected : Int) :
    Tracks cfg { cb with totalRejected := rejected } history where
  consistent :=
    { config := tracks.consistent.config
      closed := tracks.consistent.closed
      halfOpen := tracks.consistent.halfOpen }
  state := tracks.state
  failures := tracks.failures
  successes := tracks.successes
  remembers := tracks.remembers

/-- A call shows the same as in the reference, and keeps the breaker on its
track. -/
theorem execute_tracks (tracks : Tracks cfg cb history) (attempt : Attempt) :
    (cb.execute attempt).1 =
        (Reference.execute cfg.withDefaults history attempt).1 ∧
      Tracks cfg (cb.execute attempt).2
        (Reference.execute cfg.withDefaults history attempt).2 := by
  rw [CircuitBreaker.execute, Reference.execute]
  rcases executeEntry_cases tracks attempt.enteredAt with
    ⟨opened, cooling, entry⟩ | ⟨admits, entered, entry, during⟩
  · rw [entry, if_pos ⟨opened, cooling⟩]
    have state := tracks.state.symm.trans opened
    refine ⟨?_, rejected_tracks tracks _⟩
    simp only [state]
  · have after := executeExit_tracks during attempt.err attempt.finishedAt
    rw [entry, if_neg admits]
    refine ⟨?_, after⟩
    simp only [Showing.mk.injEq, true_and]
    exact ⟨during.state, executeExit_returned _ _, after.state.symm⟩

theorem execute_simulates (cfg : Config) :
    Simulates CircuitBreaker.execute (Reference.execute cfg.withDefaults)
      (Tracks cfg) where
  answer := fun _ _ attempt tracks => (execute_tracks tracks attempt).1
  kept := fun _ _ attempt tracks => (execute_tracks tracks attempt).2

theorem withDefaults_of_positive (failures : 0 < cfg.failureThreshold)
    (cooldown : 0 < cfg.cooldownDuration)
    (successes : 0 < cfg.successThreshold) : cfg.withDefaults = cfg := by
  rw [Config.withDefaults, if_neg (Int.not_le.mpr failures),
    if_neg (Int.not_le.mpr cooldown), if_neg (Int.not_le.mpr successes)]

end CircuitBreaker

open CircuitBreaker

/-! ## Calls that do not overlap, in the interleaved system -/

/-- The sections of a call, one right after the other. -/
def Attempt.sections (attempt : Attempt) (call : Nat) : List CallMove :=
  [.enter attempt.enteredAt,
    .advance call { err := attempt.err, now := attempt.finishedAt }]

/-- Calls one after the other, numbered from `call` on. -/
def sequentialMoves : Nat → List Attempt → List CallMove
  | _, [] => []
  | call, attempt :: attempts =>
      attempt.sections call ++ sequentialMoves (call + 1) attempts

/-- The sections of a call with the breaker to itself do what `execute`
does. -/
theorem runCalls_sections {calls : Calls} (idle : calls.running = [])
    (attempt : Attempt) :
    runCalls (Interleaved.step executeSections) calls
        (attempt.sections calls.entered) =
      { shared := (calls.shared.execute attempt).2
        running := []
        finished := calls.finished ++
          [(calls.entered, (calls.shared.execute attempt).1.returned)]
        entered := calls.entered + 1 } := by
  obtain ⟨shared, running, finished, entered⟩ := calls
  cases idle
  rw [Attempt.sections, runCalls_cons, runCalls_cons, runCalls_nil,
    CircuitBreaker.execute]
  dsimp only
  cases entry : shared.executeEntry attempt.enteredAt with
  | mk next error =>
      cases error with
      | some error =>
          simp [Interleaved.step, enter_eq, entry, Interleaved.settle,
            Interleaved.placeOf, firstWith]
      | none =>
          simp [Interleaved.step, entry, Interleaved.settle,
            Interleaved.placeOf, firstWith, executeSections]

/-- Calls that do not overlap are interleaved without interleaving. -/
theorem runCalls_sequentialMoves {calls : Calls} (idle : calls.running = [])
    (attempts : List Attempt) :
    let after := runCalls (Interleaved.step executeSections) calls
      (sequentialMoves calls.entered attempts)
    after.shared =
        runCalls (afterCall CircuitBreaker.execute) calls.shared attempts ∧
      after.finished.map Prod.snd =
        calls.finished.map Prod.snd ++
          (answers CircuitBreaker.execute calls.shared attempts).map
            Showing.returned := by
  induction attempts generalizing calls with
  | nil => simp [sequentialMoves]
  | cons attempt attempts induction =>
      have one := runCalls_sections idle attempt
      have rest := @induction
        { shared := (calls.shared.execute attempt).2
          running := []
          finished := calls.finished ++
            [(calls.entered, (calls.shared.execute attempt).1.returned)]
          entered := calls.entered + 1 } rfl
      dsimp only at rest ⊢
      rw [sequentialMoves, runCalls_append, one, runCalls_cons, answers_cons]
      refine ⟨rest.1, rest.2.trans ?_⟩
      simp [afterCall]

/-- Between calls that do not overlap, the breaker shows the same as the
reference: it turns a call away exactly while it cools down from the last
failure, opens with the failure that makes up the threshold or with a failed
probe, becomes half-open with the first call after the cooldown, and closes
with the probe that makes up the threshold of successes. -/
theorem execute_eq_reference (cfg : Config) :
    (∀ attempts : List Attempt,
      answers CircuitBreaker.execute (CircuitBreaker.new cfg) attempts =
        answers (Reference.execute (CircuitBreaker.new cfg).config) []
          attempts) ∧
    (0 < cfg.failureThreshold → 0 < cfg.cooldownDuration →
      0 < cfg.successThreshold → (CircuitBreaker.new cfg).config = cfg) := by
  constructor
  · intro attempts
    exact (execute_simulates cfg).answers_eq (tracks_new cfg) attempts
  · intro failures cooldown successes
    exact withDefaults_of_positive failures cooldown successes

end Ughi.Orchestrator.Resilience
