import Ughi.Lib.Run

/-!
# Machines projected to one of their users

A machine answers every call.  When the calls of one user are served as if the
user were alone, from a part of the state that no other call touches, the
answers the user gets are those of a run without the others.  Two runs with the
same calls of the user then agree for the user.
-/

namespace Ughi.Lib

universe u v w x y

variable {State : Type u} {Call : Type v} {Answer : Type w} {View : Type x}
  {Own : Type y}

/-- The state after a call. -/
def afterCall (serve : State → Call → Answer × State) (state : State)
    (call : Call) : State :=
  (serve state call).2

/-- The answers to the calls of a run that `mine` selects. -/
def answersTo (serve : State → Call → Answer × State) (mine : Call → Bool) :
    State → List Call → List Answer
  | _, [] => []
  | state, call :: calls =>
      if mine call then
        (serve state call).1 ::
          answersTo serve mine (afterCall serve state call) calls
      else answersTo serve mine (afterCall serve state call) calls

/-- The answers to all calls of a run. -/
def answers (serve : State → Call → Answer × State) (start : State)
    (calls : List Call) : List Answer :=
  answersTo serve (fun _ => true) start calls

@[simp] theorem answers_nil (serve : State → Call → Answer × State)
    (start : State) : answers serve start [] = [] :=
  rfl

@[simp] theorem answers_cons (serve : State → Call → Answer × State)
    (start : State) (call : Call) (calls : List Call) :
    answers serve start (call :: calls) =
      (serve start call).1 ::
        answers serve (afterCall serve start call) calls := by
  simp [answers, answersTo]

/-- Calls of the user are served from the view alone, and other calls leave
the view as it is, wherever an invariant holds and the call is admissible. -/
structure Projects (serve : State → Call → Answer × State)
    (alone : View → Own → Answer × View) (view : State → View)
    (mine : Call → Bool) (strip : Call → Own)
    (invariant : State → Prop) (admissible : State → Call → Prop) :
    Prop where
  kept : ∀ state call, invariant state → admissible state call →
    invariant (afterCall serve state call)
  answer : ∀ state call, invariant state → admissible state call →
    mine call = true →
      (serve state call).1 = (alone (view state) (strip call)).1
  ownView : ∀ state call, invariant state → admissible state call →
    mine call = true →
      view (afterCall serve state call) =
        afterCall alone (view state) (strip call)
  otherView : ∀ state call, invariant state → admissible state call →
    mine call = false → view (afterCall serve state call) = view state

variable {serve : State → Call → Answer × State}
  {alone : View → Own → Answer × View} {view : State → View}
  {mine : Call → Bool} {strip : Call → Own} {invariant : State → Prop}
  {admissible : State → Call → Prop}

/-- The user's share of a run. -/
def shareOf (mine : Call → Bool) (strip : Call → Own) (calls : List Call) :
    List Own :=
  (calls.filter mine).map strip

/-- A run answers the user, and leaves the user's view, as the user's share of
it would alone. -/
theorem Projects.run
    (projects :
      Projects serve alone view mine strip invariant admissible)
    {start : State} (initial : invariant start) {calls : List Call}
    (each : EachCall (afterCall serve) admissible start calls) :
    answersTo serve mine start calls =
        answers alone (view start) (shareOf mine strip calls) ∧
      view (runCalls (afterCall serve) start calls) =
        runCalls (afterCall alone) (view start)
          (shareOf mine strip calls) := by
  induction calls generalizing start with
  | nil => exact ⟨rfl, rfl⟩
  | cons call calls induction =>
      obtain ⟨now, later⟩ := each
      have next := projects.kept start call initial now
      obtain ⟨restAnswers, restView⟩ := induction next later
      cases own : mine call with
      | true =>
          have answer := projects.answer start call initial now own
          have ownView := projects.ownView start call initial now own
          have share : shareOf mine strip (call :: calls) =
              strip call :: shareOf mine strip calls := by
            simp [shareOf, own]
          rw [share, answersTo, if_pos own, answers_cons, runCalls_cons,
            runCalls_cons, restAnswers, restView, answer, ownView]
          exact ⟨rfl, rfl⟩
      | false =>
          have otherView := projects.otherView start call initial now own
          have share : shareOf mine strip (call :: calls) =
              shareOf mine strip calls := by
            simp [shareOf, own]
          have skipped : ¬ mine call = true := by
            simp [own]
          rw [share, answersTo, if_neg skipped, runCalls_cons, restAnswers,
            restView, otherView]
          exact ⟨rfl, rfl⟩

theorem Projects.agree
    (projects :
      Projects serve alone view mine strip invariant admissible)
    {start : State} (initial : invariant start) {left right : List Call}
    (leftEach : EachCall (afterCall serve) admissible start left)
    (rightEach : EachCall (afterCall serve) admissible start right)
    (same : shareOf mine strip left = shareOf mine strip right) :
    answersTo serve mine start left = answersTo serve mine start right ∧
      view (runCalls (afterCall serve) start left) =
        view (runCalls (afterCall serve) start right) := by
  obtain ⟨leftAnswers, leftView⟩ := projects.run initial leftEach
  obtain ⟨rightAnswers, rightView⟩ := projects.run initial rightEach
  rw [leftAnswers, rightAnswers, leftView, rightView, same]
  exact ⟨rfl, rfl⟩

/-- Two machines answer every call alike in related states, and stay
related. -/
structure Simulates (serve : State → Call → Answer × State)
    (reference : View → Call → Answer × View)
    (related : State → View → Prop) : Prop where
  answer : ∀ state view call, related state view →
    (serve state call).1 = (reference view call).1
  kept : ∀ state view call, related state view →
    related (afterCall serve state call) (afterCall reference view call)

theorem Simulates.answers_eq {reference : View → Call → Answer × View}
    {related : State → View → Prop}
    (simulates : Simulates serve reference related) {start : State}
    {origin : View} (initial : related start origin) (calls : List Call) :
    answers serve start calls = answers reference origin calls := by
  induction calls generalizing start origin with
  | nil => rfl
  | cons call calls induction =>
      have answer := simulates.answer start origin call initial
      have next := simulates.kept start origin call initial
      rw [answers_cons, answers_cons, answer, induction next]

/-- Calls that `seen` selects are answered alike in related states and keep
them related; a call it does not select may be served in one of them alone. -/
structure Unseen (serve : State → Call → Answer × State)
    (seen : Call → Bool) (related : State → State → Prop)
    (admissible : State → Call → Prop) : Prop where
  answer : ∀ left right call, related left right → admissible right call →
    seen call = true → (serve left call).1 = (serve right call).1
  both : ∀ left right call, related left right → admissible right call →
    seen call = true →
      related (afterCall serve left call) (afterCall serve right call)
  alone : ∀ left right call, related left right → admissible right call →
    seen call = false → related left (afterCall serve right call)

/-- A run answers the calls that are seen as if the others were left out. -/
theorem Unseen.answersTo_eq {seen : Call → Bool}
    {related : State → State → Prop}
    (unseen : Unseen serve seen related admissible) {left right : State}
    (initial : related left right) {calls : List Call}
    (each : EachCall (afterCall serve) admissible right calls) :
    answersTo serve seen right calls =
      answers serve left (calls.filter seen) := by
  induction calls generalizing left right with
  | nil => rfl
  | cons call calls induction =>
      obtain ⟨now, later⟩ := each
      cases selected : seen call with
      | true =>
          have answer := unseen.answer left right call initial now selected
          have next := unseen.both left right call initial now selected
          rw [answersTo, if_pos selected, List.filter_cons_of_pos selected,
            answers_cons, answer, induction next later]
      | false =>
          have next := unseen.alone left right call initial now selected
          have skipped : ¬ seen call = true := by
            simp [selected]
          rw [answersTo, if_neg skipped, List.filter_cons_of_neg skipped,
            induction next later]

end Ughi.Lib
