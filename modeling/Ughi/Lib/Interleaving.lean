import Ughi.Lib.Run
import Ughi.Lib.Vec

/-!
# Requests that run in sections

A request runs as a sequence of sections, each of which is atomic on the shared
data.  Between two sections of a request those of other requests may run, in
any number and order.  A run is therefore a list of moves: a request enters, or
a request that is under way goes on with its next section.
-/

namespace Ughi.Lib

variable {Shared Place Input Choice Result : Type}

/-- Where a section leaves its request. -/
inductive Progress (Place Result : Type) where
  | goesOn (place : Place)
  | done (result : Result)
deriving DecidableEq, Repr

def Progress.isDone : Progress Place Result → Bool
  | .goesOn _ => false
  | .done _ => true

/-- The sections of the requests on the shared data: the first one, and the one
at each place.  A choice is what the surroundings contribute to a section. -/
structure Sections (Shared Place Input Choice Result : Type) where
  enter : Shared → Input → Shared × Progress Place Result
  advance : Shared → Place → Choice → Shared × Progress Place Result

/-- The shared data and the requests.  A request is known by the number of
requests that entered before it. -/
structure Interleaved (Shared Place Result : Type) where
  shared : Shared
  running : List (Nat × Place)
  finished : List (Nat × Result)
  entered : Nat
deriving DecidableEq, Repr

inductive Move (Input Choice : Type) where
  | enter (input : Input)
  | advance (request : Nat) (choice : Choice)
deriving DecidableEq, Repr

def Move.isEnter : Move Input Choice → Bool
  | .enter _ => true
  | .advance _ _ => false

namespace Interleaved

variable {sections : Sections Shared Place Input Choice Result}
  {system : Interleaved Shared Place Result}

def start (shared : Shared) : Interleaved Shared Place Result :=
  { shared
    running := []
    finished := []
    entered := 0 }

/-- Where a request is, if it is under way. -/
def placeOf (system : Interleaved Shared Place Result) (request : Nat) :
    Option Place :=
  (firstWith Prod.fst request system.running).map Prod.snd

/-- Note what a section of a request did. -/
def settle (system : Interleaved Shared Place Result) (request : Nat) :
    Shared × Progress Place Result → Interleaved Shared Place Result
  | (shared, .goesOn place) =>
      { system with
        shared
        running := system.running ++ [(request, place)] }
  | (shared, .done result) =>
      { system with
        shared
        finished := system.finished ++ [(request, result)] }

/-- One move.  A request that is not under way cannot go on. -/
def step (sections : Sections Shared Place Input Choice Result)
    (system : Interleaved Shared Place Result) :
    Move Input Choice → Interleaved Shared Place Result
  | .enter input =>
      settle { system with entered := system.entered + 1 } system.entered
        (sections.enter system.shared input)
  | .advance request choice =>
      match system.placeOf request with
      | none => system
      | some place =>
          settle
            { system with
              running := system.running.eraseP fun entry =>
                entry.1 = request }
            request (sections.advance system.shared place choice)

@[simp] theorem shared_settle (request : Nat)
    (outcome : Shared × Progress Place Result) :
    (system.settle request outcome).shared = outcome.1 := by
  obtain ⟨shared, progress⟩ := outcome
  cases progress <;> rfl

theorem length_settle (request : Nat)
    (outcome : Shared × Progress Place Result) :
    (system.settle request outcome).running.length +
        (system.settle request outcome).finished.length =
      system.running.length + system.finished.length + 1 := by
  obtain ⟨shared, progress⟩ := outcome
  cases progress with
  | goesOn place =>
      simp only [settle, List.length_append, List.length_singleton]
      omega
  | done result =>
      simp only [settle, List.length_append, List.length_singleton]
      omega

theorem finished_settle (request : Nat)
    (outcome : Shared × Progress Place Result) :
    (system.settle request outcome).finished.length =
      system.finished.length + outcome.2.isDone.toNat := by
  obtain ⟨shared, progress⟩ := outcome
  cases progress with
  | goesOn place => rfl
  | done result =>
      simp only [settle, List.length_append, List.length_singleton]
      rfl

theorem placeOf_eq_some {request : Nat} {place : Place}
    (found : system.placeOf request = some place) :
    ∃ entry ∈ system.running, entry.1 = request ∧ entry.2 = place := by
  obtain ⟨entry, first, same⟩ := Option.map_eq_some_iff.mp found
  have named := List.find?_some first
  exact ⟨entry, List.mem_of_find?_eq_some first, of_decide_eq_true named, same⟩

theorem length_running_erase {request : Nat} {place : Place}
    (found : system.placeOf request = some place) :
    (system.running.eraseP fun entry => entry.1 = request).length + 1 =
      system.running.length := by
  obtain ⟨entry, member, named, _⟩ := placeOf_eq_some found
  have positive := List.length_pos_of_mem member
  rw [List.length_eraseP_of_mem member (by simpa using named)]
  omega

/-! ## Rules -/

theorem shared_step {kept : Shared → Prop}
    (enters : ∀ shared input, kept shared →
      kept (sections.enter shared input).1)
    (advances : ∀ shared place choice, kept shared →
      kept (sections.advance shared place choice).1)
    (holds : kept system.shared) (move : Move Input Choice) :
    kept (system.step sections move).shared := by
  cases move with
  | enter input =>
      rw [step, shared_settle]
      exact enters system.shared input holds
  | advance request choice =>
      rw [step]
      cases system.placeOf request with
      | none => exact holds
      | some place =>
          dsimp only
          rw [shared_settle]
          exact advances system.shared place choice holds

theorem shared_runCalls {kept : Shared → Prop}
    (enters : ∀ shared input, kept shared →
      kept (sections.enter shared input).1)
    (advances : ∀ shared place choice, kept shared →
      kept (sections.advance shared place choice).1)
    (holds : kept system.shared) (moves : List (Move Input Choice)) :
    kept (runCalls (step sections) system moves).shared := by
  induction moves generalizing system with
  | nil => exact holds
  | cons move moves induction =>
      exact induction (shared_step enters advances holds move)

theorem running_add_finished (shared : Shared)
    (moves : List (Move Input Choice)) :
    let system := runCalls (step sections) (start shared) moves
    system.running.length + system.finished.length =
      moves.countP Move.isEnter := by
  refine @invariant_of_history _ _ (step sections)
    (fun served system => system.running.length + system.finished.length =
      served.countP Move.isEnter) (start shared) rfl ?_ moves
  intro served system move counted
  rw [List.countP_append]
  cases move with
  | enter input =>
      rw [step, length_settle]
      exact congrArg (· + 1) counted
  | advance request choice =>
      rw [step]
      cases found : system.placeOf request with
      | none => exact counted
      | some place =>
          have shorter := length_running_erase found
          have noEntry : List.countP Move.isEnter
            [(Move.advance request choice : Move Input Choice)] = 0 := rfl
          dsimp only
          rw [length_settle, noEntry]
          dsimp only
          omega

/-- A tally that goes up by one with every section that ends its request, and
only with these, counts the finished requests. -/
theorem tally_eq_finished {tally : Shared → Int}
    (enters : ∀ shared input, tally (sections.enter shared input).1 =
      tally shared + (sections.enter shared input).2.isDone.toNat)
    (advances : ∀ shared place choice,
      tally (sections.advance shared place choice).1 =
        tally shared +
          (sections.advance shared place choice).2.isDone.toNat)
    {shared : Shared} (zero : tally shared = 0)
    (moves : List (Move Input Choice)) :
    let system := runCalls (step sections) (start shared) moves
    tally system.shared = system.finished.length := by
  refine @invariant_of_calls _ _ (step sections)
    (fun system => tally system.shared = system.finished.length)
    ?_ (start shared) zero moves
  intro system move counted
  cases move with
  | enter input =>
      have one := enters system.shared input
      rw [step, shared_settle, finished_settle, one, counted]
      rfl
  | advance request choice =>
      rw [step]
      cases system.placeOf request with
      | none => exact counted
      | some place =>
          have one := advances system.shared place choice
          dsimp only
          rw [shared_settle, finished_settle, one, counted]
          rfl

end Interleaved

end Ughi.Lib
