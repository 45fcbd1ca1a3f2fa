import Mathlib.Data.List.Basic

/-!
# Queues that evict in batches

A queue of bounded capacity makes room before it takes an item: once it is
full it drops a batch of its oldest items.  Beside a log of all items taken,
the queue holds the last ones, and never fewer of them than what an eviction
leaves and the item it makes room for.
-/

namespace Ughi.Lib

universe u

variable {α : Type u} {capacity batch : Nat} {log queue : List α}

/-- Append an item; a full queue drops its oldest items first. -/
def evictingPush (capacity batch : Nat) (queue : List α) (item : α) :
    List α :=
  let queue :=
    if capacity ≤ queue.length then queue.drop batch
    else queue
  queue ++ [item]

/-- The queue holds the last items of the log. -/
structure Recent (capacity batch : Nat) (log queue : List α) : Prop where
  suffix : queue <:+ log
  bounded : queue.length ≤ capacity
  kept : min (capacity - batch + 1) log.length ≤ queue.length

theorem recent_nil : Recent capacity batch ([] : List α) [] where
  suffix := List.suffix_refl []
  bounded := Nat.zero_le capacity
  kept := Nat.min_le_right _ 0

/-- A push keeps the queue at the end of the log. -/
theorem Recent.push (recent : Recent capacity batch log queue)
    (positive : 0 < batch) (atMost : batch ≤ capacity) (item : α) :
    Recent capacity batch (log ++ [item])
      (evictingPush capacity batch queue item) := by
  obtain ⟨suffix, bounded, kept⟩ := recent
  have append : ∀ held : List α, held <:+ log →
      held ++ [item] <:+ log ++ [item] := by
    rintro held ⟨before, rfl⟩
    exact ⟨before, (List.append_assoc before held [item]).symm⟩
  rw [evictingPush]
  split
  next full =>
    constructor
    case suffix =>
      exact append _ ((List.drop_suffix batch queue).trans suffix)
    case bounded =>
      rw [List.length_append, List.length_drop, List.length_singleton]
      omega
    case kept =>
      rw [List.length_append, List.length_append, List.length_drop,
        List.length_singleton]
      omega
  next room =>
    constructor
    case suffix => exact append queue suffix
    case bounded =>
      rw [List.length_append, List.length_singleton]
      exact Nat.not_le.mp room
    case kept =>
      rw [List.length_append, List.length_append, List.length_singleton]
      omega

theorem Recent.last_suffix (recent : Recent capacity batch log queue) :
    log.drop (log.length - (capacity - batch + 1)) <:+ queue := by
  apply List.suffix_of_suffix_length_le (List.drop_suffix _ log) recent.suffix
  have kept := recent.kept
  rw [List.length_drop]
  omega

end Ughi.Lib
