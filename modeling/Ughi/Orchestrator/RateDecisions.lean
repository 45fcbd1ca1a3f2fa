import Ughi.Orchestrator.RateLimit

/-!
# What the rate limiter answers

The answers a client gets are a function of the times of its own requests: cut
into windows, each answer follows from the first request of the window and the
place of the request in it.
-/

namespace Ughi.Orchestrator.RateLimit

open Ughi.Lib

namespace Limiter

/-- The call is a request of the client. -/
def Call.isOf (key : String) : Call → Bool
  | .allow other _ => other = key
  | .cleanup _ => false

/-- The requests of a client, without those of others and the cleanups. -/
def ownCalls (key : String) (calls : List Call) : List Call :=
  calls.filter (Call.isOf key)

variable {cfg : Config} {key : String} {calls : List Call}

theorem requestTimes_ownCalls (key : String) (calls : List Call) :
    requestTimes key (ownCalls key calls) = requestTimes key calls := by
  induction calls with
  | nil => rfl
  | cons call calls induction =>
      rw [ownCalls] at induction ⊢
      cases call with
      | cleanup now =>
          rw [List.filter_cons_of_neg (by simp [Call.isOf]), induction]
          rfl
      | allow other now =>
          by_cases own : other = key
          · rw [List.filter_cons_of_pos (by simp [Call.isOf, own])]
            simp only [requestTimes, if_pos own, induction]
          · rw [List.filter_cons_of_neg (by simp [Call.isOf, own])]
            simp only [requestTimes, if_neg own, induction]

/-- Under a clock that does not go back, the requests of others and the
cleanups do not change the answers to a client, and each window of its
requests is answered place by place. -/
theorem decisionsFor_local
    (ordered : (calls.map Call.time).Pairwise (· ≤ ·)) :
    decisionsFor key (new cfg) calls =
        decisionsFor key (new cfg) (ownCalls key calls) ∧
      decisionsFor key (new cfg) calls =
        ((windows (new cfg).config.windowDuration
          (requestTimes key calls)).map (new cfg).config.answers).flatten := by
  have thinned : (ownCalls key calls).Sublist calls := List.filter_sublist
  have ownOrdered := ordered.sublist (thinned.map Call.time)
  refine ⟨?_, ?_⟩
  · rw [decisionsFor_new_eq_alone ordered,
      decisionsFor_new_eq_alone ownOrdered, requestTimes_ownCalls]
  · rw [decisionsFor_new_eq_alone ordered]
    exact decisionsAlone_eq_answers (withDefaults_positive cfg).1 _

theorem decisionsFor_local_example :
    decisionsFor "client" (new ⟨2, 10⟩)
        [.allow "client" 0, .allow "other" 5, .cleanup 12,
          .allow "client" 12] =
        decisionsFor "client" (new ⟨2, 10⟩)
          (ownCalls "client"
            [.allow "client" 0, .allow "other" 5, .cleanup 12,
              .allow "client" 12]) ∧
      decisionsFor "client" (new ⟨2, 10⟩)
          [.allow "client" 0, .allow "other" 5, .cleanup 12,
            .allow "client" 12] =
        ((windows (new ⟨2, 10⟩).config.windowDuration
          (requestTimes "client"
            [.allow "client" 0, .allow "other" 5, .cleanup 12,
              .allow "client" 12])).map
            (new ⟨2, 10⟩).config.answers).flatten :=
  decisionsFor_local (by decide +kernel)

end Limiter

end Ughi.Orchestrator.RateLimit
