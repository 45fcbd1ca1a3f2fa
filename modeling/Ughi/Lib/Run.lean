import Mathlib.Data.List.Basic
import Mathlib.Data.List.Induction

/-!
# Runs of a call-driven machine

A machine serves one call at a time and is otherwise idle, so a run is a list
of calls.  A safety property of the machine is a statement about the state
reached after every initial part of a run.

`EachCall` restricts a run by a condition on each call and the state the call
is served in.  When one step keeps a property exactly under that condition,
`throughout_iff_eachCall` lifts the equivalence from steps to runs.
-/

namespace Ughi.Lib

universe u v w

variable {State : Type u} {Call : Type v}

/-- The state reached from `start` once `calls` have been served in order. -/
def runCalls (step : State → Call → State) (start : State)
    (calls : List Call) : State :=
  calls.foldl step start

@[simp] theorem runCalls_nil (step : State → Call → State) (start : State) :
    runCalls step start [] = start :=
  rfl

@[simp] theorem runCalls_cons (step : State → Call → State) (start : State)
    (call : Call) (calls : List Call) :
    runCalls step start (call :: calls) =
      runCalls step (step start call) calls :=
  rfl

@[simp] theorem runCalls_append (step : State → Call → State) (start : State)
    (first second : List Call) :
    runCalls step start (first ++ second) =
      runCalls step (runCalls step start first) second :=
  List.foldl_append

/-- A watcher that follows a machine shows the machine's own run. -/
theorem view_runCalls {Watcher : Type w} {step : State → Call → State}
    {watch : Watcher → Call → Watcher} {view : Watcher → State}
    (follows : ∀ watcher call,
      view (watch watcher call) = step (view watcher) call)
    (start : Watcher) (calls : List Call) :
    view (runCalls watch start calls) = runCalls step (view start) calls := by
  induction calls generalizing start with
  | nil => rfl
  | cons call calls induction =>
      rw [runCalls_cons, runCalls_cons, induction, follows]

/-- `admissible` holds of every call of a run, in the state it is served in. -/
def EachCall (step : State → Call → State)
    (admissible : State → Call → Prop) : State → List Call → Prop
  | _, [] => True
  | state, call :: calls =>
      admissible state call ∧ EachCall step admissible (step state call) calls

@[simp] theorem eachCall_nil (step : State → Call → State)
    (admissible : State → Call → Prop) (start : State) :
    EachCall step admissible start [] :=
  trivial

@[simp] theorem eachCall_cons (step : State → Call → State)
    (admissible : State → Call → Prop) (start : State)
    (call : Call) (calls : List Call) :
    EachCall step admissible start (call :: calls) ↔
      admissible start call ∧
        EachCall step admissible (step start call) calls :=
  Iff.rfl

theorem eachCall_append (step : State → Call → State)
    (admissible : State → Call → Prop) (start : State)
    (first second : List Call) :
    EachCall step admissible start (first ++ second) ↔
      EachCall step admissible start first ∧
        EachCall step admissible (runCalls step start first) second := by
  induction first generalizing start with
  | nil => simp
  | cons call calls induction => simp [induction, and_assoc]

theorem eachCall_of_forall_mem {step : State → Call → State}
    {admissible : State → Call → Prop} {start : State} {calls : List Call}
    (everywhere : ∀ state, ∀ call ∈ calls, admissible state call) :
    EachCall step admissible start calls := by
  induction calls generalizing start with
  | nil => exact trivial
  | cons call calls induction =>
      refine ⟨everywhere start call (by simp), induction ?_⟩
      intro state later member
      exact everywhere state later (by simp [member])

theorem eachCall_calls_iff {step : State → Call → State}
    (admissible : Call → Prop) {start : State} {calls : List Call} :
    EachCall step (fun _ => admissible) start calls ↔
      ∀ call ∈ calls, admissible call := by
  induction calls generalizing start with
  | nil => simp
  | cons call calls induction =>
      rw [eachCall_cons, induction, List.forall_mem_cons]

/-- Conditions that agree wherever an invariant holds restrict runs alike, when
the calls that meet them keep the invariant. -/
theorem eachCall_congr {step : State → Call → State}
    {invariant : State → Prop} {left right : State → Call → Prop}
    (kept : ∀ state call, invariant state → right state call →
      invariant (step state call))
    (agree : ∀ state call, invariant state →
      (left state call ↔ right state call))
    {start : State} (initial : invariant start) (calls : List Call) :
    EachCall step left start calls ↔ EachCall step right start calls := by
  induction calls generalizing start with
  | nil => exact Iff.rfl
  | cons call calls induction =>
      have now := agree start call initial
      constructor
      · intro each
        have met := now.mp each.1
        have next := induction (kept start call initial met)
        exact ⟨met, next.mp each.2⟩
      · intro each
        have next := induction (kept start call initial each.1)
        exact ⟨now.mpr each.1, next.mpr each.2⟩

theorem invariant_of_eachCall {step : State → Call → State}
    {admissible : State → Call → Prop} {invariant : State → Prop}
    (preserved : ∀ state call, invariant state → admissible state call →
      invariant (step state call))
    {start : State} {calls : List Call} (initial : invariant start)
    (each : EachCall step admissible start calls) :
    invariant (runCalls step start calls) := by
  induction calls generalizing start with
  | nil => exact initial
  | cons call calls induction =>
      exact induction (preserved start call initial each.1) each.2

theorem invariant_of_calls {step : State → Call → State}
    {invariant : State → Prop}
    (preserved : ∀ state call, invariant state → invariant (step state call))
    {start : State} (initial : invariant start) (calls : List Call) :
    invariant (runCalls step start calls) := by
  induction calls generalizing start with
  | nil => exact initial
  | cons call calls induction =>
      exact induction (preserved start call initial)

/-- An invariant that also speaks of the calls served so far, kept by every
call, holds after every run. -/
theorem invariant_of_history {step : State → Call → State}
    {invariant : List Call → State → Prop} {start : State}
    (initial : invariant [] start)
    (preserved : ∀ served state call, invariant served state →
      invariant (served ++ [call]) (step state call))
    (calls : List Call) : invariant calls (runCalls step start calls) := by
  induction calls using List.reverseRecOn with
  | nil => exact initial
  | append_singleton calls call induction =>
      rw [runCalls_append]
      exact preserved calls _ call induction

/-- The state reached from `start` by calls that may fail; the first failure
ends the run. -/
def runFallible {Failure : Type w} (step : State → Call → Except Failure State)
    (start : State) (calls : List Call) : Except Failure State :=
  calls.foldlM step start

/-- Where no call fails on a state that meets the invariant, and every call
keeps it, no run fails. -/
theorem exists_runFallible {Failure : Type w}
    {step : State → Call → Except Failure State}
    {invariant : List Call → State → Prop} {start : State}
    (initial : invariant [] start)
    (preserved : ∀ served state call, invariant served state →
      ∃ next, step state call = .ok next ∧ invariant (served ++ [call]) next)
    (calls : List Call) :
    ∃ final, runFallible step start calls = .ok final ∧
      invariant calls final := by
  induction calls using List.reverseRecOn with
  | nil => exact ⟨start, rfl, initial⟩
  | append_singleton calls call induction =>
      obtain ⟨state, reached, kept⟩ := induction
      obtain ⟨next, stepped, keptNext⟩ := preserved calls state call kept
      refine ⟨next, ?_, keptNext⟩
      rw [runFallible] at reached ⊢
      rw [List.foldlM_append, reached]
      change List.foldlM step state [call] = Except.ok next
      rw [List.foldlM_cons, stepped]
      rfl

/-- A property holds in the start state and after every call of a run. -/
def Throughout (step : State → Call → State) (property : State → Prop)
    (start : State) (calls : List Call) : Prop :=
  ∀ served, served <+: calls → property (runCalls step start served)

theorem throughout_nil (step : State → Call → State)
    (property : State → Prop) (start : State) :
    Throughout step property start [] ↔ property start := by
  constructor
  · intro holds
    exact holds [] (List.prefix_refl [])
  · intro holds served isPrefix
    rw [List.prefix_nil.mp isPrefix]
    exact holds

theorem throughout_cons (step : State → Call → State)
    (property : State → Prop) (start : State)
    (call : Call) (calls : List Call) :
    Throughout step property start (call :: calls) ↔
      property start ∧ Throughout step property (step start call) calls := by
  constructor
  · intro holds
    refine ⟨holds [] (List.nil_prefix), ?_⟩
    intro served isPrefix
    exact holds (call :: served) ((List.prefix_cons_inj call).mpr isPrefix)
  · intro both served isPrefix
    obtain ⟨now, later⟩ := both
    rcases List.prefix_cons_iff.mp isPrefix with rfl | ⟨rest, rfl, restPrefix⟩
    · exact now
    · exact later rest restPrefix

theorem Throughout.last {step : State → Call → State}
    {property : State → Prop} {start : State} {calls : List Call}
    (holds : Throughout step property start calls) :
    property (runCalls step start calls) :=
  holds calls (List.prefix_refl calls)

/-- Exactness of a run condition.  `background` is kept by every call of the
`domain`.  Under it, a call keeps `property` and shows the expected `observed`
outcome exactly when it is admissible.  Then a run in the domain does so
throughout exactly when every call of it is admissible. -/
theorem throughout_and_eachCall_iff_within {step : State → Call → State}
    {domain observed admissible : State → Call → Prop}
    {background property : State → Prop}
    (kept : ∀ state call, domain state call → background state →
      background (step state call))
    (exact_step : ∀ state call, domain state call → background state →
      property state →
        (property (step state call) ∧ observed state call ↔
          admissible state call))
    {start : State} {calls : List Call}
    (inDomain : EachCall step domain start calls)
    (ground : background start) (initial : property start) :
    Throughout step property start calls ∧
        EachCall step observed start calls ↔
      EachCall step admissible start calls := by
  induction calls generalizing start with
  | nil => simpa [throughout_nil] using initial
  | cons call calls induction =>
      obtain ⟨callInDomain, restInDomain⟩ := inDomain
      have step_iff := exact_step start call callInDomain ground initial
      have nextGround := kept start call callInDomain ground
      rw [throughout_cons, eachCall_cons, eachCall_cons]
      constructor
      · intro run
        obtain ⟨⟨_, later⟩, now, rest⟩ := run
        have next : property (step start call) := later [] List.nil_prefix
        exact ⟨step_iff.mp ⟨next, now⟩,
          (induction restInDomain nextGround next).mp ⟨later, rest⟩⟩
      · intro each
        obtain ⟨now, rest⟩ := each
        obtain ⟨next, seen⟩ := step_iff.mpr now
        obtain ⟨later, seenLater⟩ :=
          (induction restInDomain nextGround next).mpr rest
        exact ⟨⟨initial, later⟩, seen, seenLater⟩

/-- `throughout_and_eachCall_iff_within` where the domain is one of calls. -/
theorem throughout_and_eachCall_iff {step : State → Call → State}
    {domain : Call → Prop} {observed admissible : State → Call → Prop}
    {background property : State → Prop}
    (kept : ∀ state call, domain call → background state →
      background (step state call))
    (exact_step : ∀ state call, domain call → background state →
      property state →
        (property (step state call) ∧ observed state call ↔
          admissible state call))
    {start : State} {calls : List Call}
    (inDomain : ∀ call ∈ calls, domain call)
    (ground : background start) (initial : property start) :
    Throughout step property start calls ∧
        EachCall step observed start calls ↔
      EachCall step admissible start calls :=
  throughout_and_eachCall_iff_within kept exact_step
    ((eachCall_calls_iff domain).mpr inDomain) ground initial

/-- `throughout_and_eachCall_iff_within` where only the states matter. -/
theorem throughout_iff_eachCall_within {step : State → Call → State}
    {domain admissible : State → Call → Prop}
    {background property : State → Prop}
    (kept : ∀ state call, domain state call → background state →
      background (step state call))
    (exact_step : ∀ state call, domain state call → background state →
      property state →
        (property (step state call) ↔ admissible state call))
    {start : State} {calls : List Call}
    (inDomain : EachCall step domain start calls)
    (ground : background start) (initial : property start) :
    Throughout step property start calls ↔
      EachCall step admissible start calls := by
  have unrestricted : EachCall step (fun _ _ => True) start calls :=
    eachCall_of_forall_mem (fun _ _ _ => trivial)
  have both : Throughout step property start calls ∧
        EachCall step (fun _ _ => True) start calls ↔
      EachCall step admissible start calls :=
    throughout_and_eachCall_iff_within kept (by simpa using exact_step)
      inDomain ground initial
  exact ⟨fun holds => both.mp ⟨holds, unrestricted⟩,
    fun each => (both.mpr each).1⟩

/-- `throughout_and_eachCall_iff` where only the states matter. -/
theorem throughout_iff_eachCall {step : State → Call → State}
    {domain : Call → Prop} {admissible : State → Call → Prop}
    {background property : State → Prop}
    (kept : ∀ state call, domain call → background state →
      background (step state call))
    (exact_step : ∀ state call, domain call → background state →
      property state →
        (property (step state call) ↔ admissible state call))
    {start : State} {calls : List Call}
    (inDomain : ∀ call ∈ calls, domain call)
    (ground : background start) (initial : property start) :
    Throughout step property start calls ↔
      EachCall step admissible start calls :=
  throughout_iff_eachCall_within kept exact_step
    ((eachCall_calls_iff domain).mpr inDomain) ground initial

/-- A relation between a state of a run and every later one. -/
def Onwards (step : State → Call → State) (related : State → State → Prop)
    (start : State) (calls : List Call) : Prop :=
  ∀ before between, before ++ between <+: calls →
    related (runCalls step start before)
      (runCalls step start (before ++ between))

/-- A reflexive and transitive relation links all states of a run, in order,
exactly when every call steps along it. -/
theorem onwards_iff_eachCall {step : State → Call → State}
    {related : State → State → Prop} (refl : ∀ state, related state state)
    (trans : ∀ first second third, related first second →
      related second third → related first third)
    {start : State} {calls : List Call} :
    Onwards step related start calls ↔
      EachCall step (fun state call => related state (step state call))
        start calls := by
  induction calls generalizing start with
  | nil =>
      constructor
      · intro _
        exact trivial
      · intro _ before between isPrefix
        have empty := List.prefix_nil.mp isPrefix
        obtain ⟨rfl, rfl⟩ := List.append_eq_nil_iff.mp empty
        exact refl start
  | cons call calls induction =>
      constructor
      · intro onwards
        refine ⟨onwards [] [call] ⟨calls, rfl⟩, induction.mp ?_⟩
        intro before between isPrefix
        exact onwards (call :: before) between
          ((List.prefix_cons_inj call).mpr isPrefix)
      · rintro ⟨now, later⟩ before between isPrefix
        have onwards := induction.mpr later
        cases before with
        | nil =>
            cases between with
            | nil => exact refl start
            | cons first between =>
                obtain ⟨rfl, inside⟩ := List.cons_prefix_cons.mp isPrefix
                exact trans _ _ _ now (onwards [] between inside)
        | cons first before =>
            obtain ⟨rfl, inside⟩ := List.cons_prefix_cons.mp isPrefix
            exact onwards before between inside

end Ughi.Lib
