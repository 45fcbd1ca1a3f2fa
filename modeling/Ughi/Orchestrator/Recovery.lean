import Ughi.Orchestrator.CircuitBreaker

/-!
# Which calls close a half-open breaker

A call may enter in one state of the breaker and leave in another.  The exit
section looks at the current state only, so a call let through before the
breaker opened can succeed while it is half-open.  The watcher below keeps what
has happened since the breaker last became half-open.
-/

namespace Ughi.Orchestrator.Resilience

open Ughi.Lib
open CircuitBreaker

/-- What a section did, and for which call. -/
inductive Event where
  | admitted (call : Nat)
  | rejected (call : Nat)
  | succeeded (call : Nat)
  | failed (call : Nat)
deriving DecidableEq, Repr

/-- The event of a move, if it runs a section. -/
def eventOf (calls : Calls) : CallMove → Option Event
  | .enter now =>
      match (calls.shared.executeEntry now).2 with
      | none => some (.admitted calls.entered)
      | some _ => some (.rejected calls.entered)
  | .advance call outcome =>
      (calls.placeOf call).map fun _ =>
        match outcome.err with
        | none => .succeeded call
        | some _ => .failed call

/-- The calls, and the events since the breaker last became half-open. -/
structure Watched where
  calls : Calls
  period : List Event

/-- The calls that succeeded, in order. -/
def successes (period : List Event) : List Nat :=
  period.filterMap fun event =>
    match event with
    | .succeeded call => some call
    | _ => none

/-- The number of successes of calls that were let through in the period. -/
def probeSuccesses (period : List Event) : Nat :=
  (successes period).countP fun call => .admitted call ∈ period

namespace Watched

def start (cfg : Config) : Watched :=
  { calls := Interleaved.start (.new cfg)
    period := [] }

def step (watched : Watched) (move : CallMove) : Watched :=
  let calls := watched.calls.step executeSections move
  let seen := (eventOf watched.calls move).toList
  { calls
    period :=
      if watched.calls.shared.state ≠ .stateHalfOpen ∧
          calls.shared.state = .stateHalfOpen then seen
      else watched.period ++ seen }

/-- A move that closes the half-open breaker comes after enough successes of
calls that were let through since the breaker became half-open. -/
def ClosesOnProbes (watched : Watched) (move : CallMove) : Prop :=
  watched.calls.shared.state = .stateHalfOpen →
    (watched.step move).calls.shared.state = .stateClosed →
      watched.calls.shared.config.successThreshold ≤
        probeSuccesses (watched.step move).period

/-- A success that makes up the threshold, and all successes before it in the
period, are of calls that were let through in the period. -/
def LastSuccessOfProbes (watched : Watched) : CallMove → Prop
  | .enter _ => True
  | .advance call outcome =>
      watched.calls.shared.state = .stateHalfOpen →
        (watched.calls.placeOf call).isSome → outcome.err = none →
          watched.calls.shared.config.successThreshold ≤
              watched.calls.shared.successCount + 1 →
            ∀ counted ∈ successes watched.period ++ [call],
              .admitted counted ∈ watched.period

variable {cfg : Config} {watched : Watched}

theorem calls_runCalls (cfg : Config) (moves : List CallMove) :
    (runCalls step (start cfg) moves).calls = afterSections cfg moves :=
  view_runCalls (fun _ _ => rfl) (start cfg) moves

/-! ## What the watcher sees -/

theorem successes_append (first second : List Event) :
    successes (first ++ second) = successes first ++ successes second :=
  List.filterMap_append

theorem step_calls_enter (watched : Watched) (now : Int) :
    (watched.step (.enter now)).calls.shared =
      (watched.calls.shared.executeEntry now).1 := by
  rw [step, Interleaved.step, Interleaved.shared_settle, enter_eq]

theorem step_of_absent {call : Nat} (absent : watched.calls.placeOf call = none)
    (outcome : Outcome) :
    (watched.step (.advance call outcome)).calls = watched.calls := by
  rw [step, Interleaved.step, absent]

theorem step_calls_advance {call : Nat} {place : Fn}
    (found : watched.calls.placeOf call = some place) (outcome : Outcome) :
    (watched.step (.advance call outcome)).calls.shared =
      (watched.calls.shared.executeExit outcome.err outcome.now).1 := by
  rw [step, Interleaved.step, found]
  exact Interleaved.shared_settle _ _

/-- While the breaker stays half-open, or once it leaves, the period goes
on. -/
theorem step_period_of_halfOpen
    (testing : watched.calls.shared.state = .stateHalfOpen)
    (move : CallMove) :
    (watched.step move).period =
      watched.period ++ (eventOf watched.calls move).toList := by
  rw [step]
  dsimp only
  rw [if_neg (fun both => both.1 testing)]

/-- In a half-open breaker the counter counts all successes of the period. -/
structure Counted (cfg : Config) (watched : Watched) : Prop where
  consistent : Consistent cfg watched.calls.shared
  counted : watched.calls.shared.state = .stateHalfOpen →
    watched.calls.shared.successCount = (successes watched.period).length

theorem start_counted (cfg : Config) : Counted cfg (start cfg) :=
  { consistent := new_consistent cfg
    counted := nofun }

theorem step_enter_counted (counted : Counted cfg watched) (now : Int) :
    Counted cfg (watched.step (.enter now)) := by
  obtain ⟨consistent, count⟩ := counted
  refine ⟨?_, ?_⟩
  · rw [step_calls_enter]
    exact executeEntry_consistent consistent now
  · intro after
    rw [step_calls_enter] at after ⊢
    by_cases testing : watched.calls.shared.state = .stateHalfOpen
    · rw [step_period_of_halfOpen testing, eventOf,
        executeEntry_of_halfOpen testing, successes_append]
      rw [count testing]
      exact congrArg Nat.cast (congrArg List.length (List.append_nil _).symm)
    · obtain ⟨zero, admitted⟩ := executeEntry_opens_test testing after
      rw [zero, step, eventOf, admitted]
      dsimp only
      rw [if_pos ⟨testing, by
        rw [Interleaved.step, Interleaved.shared_settle, enter_eq]
        exact after⟩]
      rfl

theorem step_absent_counted (counted : Counted cfg watched) {call : Nat}
    (absent : watched.calls.placeOf call = none) (outcome : Outcome) :
    Counted cfg (watched.step (.advance call outcome)) := by
  obtain ⟨consistent, count⟩ := counted
  rw [← step_of_absent absent outcome] at consistent
  refine ⟨consistent, ?_⟩
  intro testing
  rw [step_of_absent absent] at testing ⊢
  rw [step_period_of_halfOpen testing, eventOf, absent, Option.map_none,
    Option.toList_none, List.append_nil, count testing]

/-- Only a success in a half-open breaker leaves it half-open, one higher. -/
theorem step_exit_counted (counted : Counted cfg watched) {call : Nat}
    {place : Fn} (found : watched.calls.placeOf call = some place)
    (outcome : Outcome) :
    Counted cfg (watched.step (.advance call outcome)) := by
  obtain ⟨consistent, count⟩ := counted
  refine ⟨?_, ?_⟩
  · rw [step_calls_advance found]
    exact executeExit_consistent consistent outcome.err outcome.now
  · intro after
    rw [step_calls_advance found] at after ⊢
    cases err : outcome.err with
    | some error =>
        rw [err] at after
        exact absurd after (fail_state_ne_halfOpen _ outcome.now)
    | none =>
        rw [err] at after
        change watched.calls.shared.succeed.state = _ at after
        change watched.calls.shared.succeed.successCount = _
        have testing : watched.calls.shared.state = .stateHalfOpen := by
          by_contra other
          rw [succeed_state_of_ne_halfOpen other] at after
          exact other after
        rcases succeed_of_halfOpen testing with ⟨closed, _⟩ | ⟨_, next, _⟩
        · rw [closed] at after
          cases after
        · rw [next, count testing, step_period_of_halfOpen testing, eventOf,
            found, err, successes_append, List.length_append]
          rfl

theorem step_counted (counted : Counted cfg watched) (move : CallMove) :
    Counted cfg (watched.step move) := by
  cases move with
  | enter now => exact step_enter_counted counted now
  | advance call outcome =>
      cases found : watched.calls.placeOf call with
      | none => exact step_absent_counted counted found outcome
      | some place => exact step_exit_counted counted found outcome

/-- With one place left below the threshold, the probes make it up exactly when
every success counted is of a probe. -/
theorem le_probeSuccesses_iff {period : List Event} {call : Nat}
    {threshold : Int}
    (last : threshold = (successes period).length + 1) :
    threshold ≤ probeSuccesses (period ++ [.succeeded call]) ↔
      ∀ counted ∈ successes period ++ [call],
        .admitted counted ∈ period := by
  have all : successes (period ++ [.succeeded call]) =
      successes period ++ [call] := successes_append _ _
  have members : ∀ counted,
      Event.admitted counted ∈ period ++ [.succeeded call] ↔
        .admitted counted ∈ period := by
    intro counted
    simp
  have bound : probeSuccesses (period ++ [.succeeded call]) ≤
      (successes period ++ [call]).length := by
    rw [probeSuccesses, all]
    exact List.countP_le_length
  have full : probeSuccesses (period ++ [.succeeded call]) =
        (successes period ++ [call]).length ↔
      ∀ counted ∈ successes period ++ [call],
        .admitted counted ∈ period := by
    rw [probeSuccesses, all, List.countP_eq_length]
    simp only [members, decide_eq_true_eq]
  rw [← full]
  rw [List.length_append, List.length_singleton] at bound ⊢
  omega

theorem closesOnProbes_iff (counted : Counted cfg watched)
    (move : CallMove) :
    ClosesOnProbes watched move ↔ LastSuccessOfProbes watched move := by
  cases move with
  | enter now =>
      apply iff_of_true _ trivial
      intro testing closed
      rw [step_calls_enter, executeEntry_of_halfOpen testing, testing]
        at closed
      cases closed
  | advance call outcome =>
      rw [ClosesOnProbes, LastSuccessOfProbes]
      apply imp_congr_right
      intro testing
      cases found : watched.calls.placeOf call with
      | none =>
          rw [step_of_absent found, testing]
          exact iff_of_true nofun nofun
      | some place =>
          rw [step_calls_advance found, step_period_of_halfOpen testing,
            eventOf, found]
          cases err : outcome.err with
          | some error =>
              refine iff_of_true ?_ nofun
              intro closed
              rw [executeExit, fail_of_halfOpen testing] at closed
              cases closed
          | none =>
              have below := counted.consistent.halfOpen testing
              rw [← counted.consistent.config] at below
              have length := counted.counted testing
              change (watched.calls.shared.succeed.state = .stateClosed →
                _ ≤ _) ↔ _
              rcases succeed_of_halfOpen testing with
                ⟨closed, enough⟩ | ⟨stays, _, more⟩
              · have last :
                    watched.calls.shared.config.successThreshold =
                      (successes watched.period).length + 1 := by
                  omega
                have exact_count := @le_probeSuccesses_iff watched.period call
                  _ last
                constructor
                · intro closes _ _ _
                  exact exact_count.mp (closes closed)
                · intro condition _
                  exact exact_count.mpr (condition rfl rfl enough)
              · rw [stays]
                refine iff_of_true nofun ?_
                intro _ _ enough
                omega

/-- In every interleaving of calls, the breaker is closed on the successes of
probes alone exactly when no call from before the period succeeds in a
half-open period that the run closes. -/
theorem closesOnProbes_eachCall_iff (cfg : Config) (moves : List CallMove) :
    EachCall step ClosesOnProbes (start cfg) moves ↔
      EachCall step LastSuccessOfProbes (start cfg) moves := by
  refine @eachCall_congr _ _ step (Counted cfg) _ _ ?_ ?_ _
    (start_counted cfg) moves
  · intro watched move counted _
    exact step_counted counted move
  · intro watched move counted
    exact closesOnProbes_iff counted move

/-- A call let through before the breaker opened closes it again: no probe has
succeeded. -/
theorem stale_success_closes :
    ¬ EachCall step ClosesOnProbes
      (start
        { failureThreshold := 1
          cooldownDuration := 10
          successThreshold := 1
          name := "test" })
      [.enter 0, .enter 0, .advance 0 ⟨some "fail", 1⟩, .enter 11,
        .advance 1 ⟨none, 12⟩] := by
  intro each
  obtain ⟨_, _, _, _, closes, _⟩ := each
  have enough := closes rfl rfl
  exact absurd enough (by decide)

end Watched

end Ughi.Orchestrator.Resilience
