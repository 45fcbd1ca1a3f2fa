import Mathlib.Data.List.Basic

/-!
# Messages in blocks

A message is cut into blocks of one size; what is left over is shorter than a
block.  A function that folds over the blocks of a message can be fed the
message piecemeal: `absorb` keeps the value reached and the left-over part,
which is all that later pieces depend on.
-/

namespace Ughi.Lib

universe u v

variable {α : Type u} {State : Type v}

/-- The full blocks of a message, in order. -/
def blocks (size : Nat) (message : List α) : List (List α) :=
  (List.range (message.length / size)).map fun index =>
    (message.drop (size * index)).take size

/-- What follows the last full block. -/
def leftover (size : Nat) (message : List α) : List α :=
  message.drop (size * (message.length / size))

/-- Fold over the full blocks, and keep what is left over. -/
def absorb (size : Nat) (step : State → List α → State) (state : State)
    (message : List α) : State × List α :=
  ((blocks size message).foldl step state, leftover size message)

section Blocks

variable {size : Nat} {message block rest : List α}

theorem blocks_of_lt (short : message.length < size) :
    blocks size message = [] := by
  rw [blocks, Nat.div_eq_of_lt short]
  rfl

theorem leftover_of_lt (short : message.length < size) :
    leftover size message = message := by
  rw [leftover, Nat.div_eq_of_lt short, Nat.mul_zero, List.drop_zero]

theorem length_append_div (positive : 0 < size)
    (full : block.length = size) :
    (block ++ rest).length / size = rest.length / size + 1 := by
  rw [List.length_append, full, Nat.add_div_left _ positive]

theorem blocks_append (positive : 0 < size) (full : block.length = size) :
    blocks size (block ++ rest) = block :: blocks size rest := by
  rw [blocks, length_append_div positive full, List.range_succ_eq_map,
    List.map_cons, List.map_map]
  congr 1
  · rw [Nat.mul_zero, List.drop_zero, ← full, List.take_left]
  · apply List.map_congr_left
    intro index _
    have skips : size * (index + 1) = block.length + size * index := by
      rw [full, Nat.mul_succ, Nat.add_comm]
    simp only [Function.comp_apply]
    rw [skips, List.drop_length_add_append]

theorem leftover_append (positive : 0 < size) (full : block.length = size) :
    leftover size (block ++ rest) = leftover size rest := by
  have skips : size * (rest.length / size + 1) =
      block.length + size * (rest.length / size) := by
    rw [full, Nat.mul_succ, Nat.add_comm]
  rw [leftover, length_append_div positive full, skips,
    List.drop_length_add_append, leftover]

end Blocks

section Absorb

variable {size : Nat} {step : State → List α → State} {state : State}
  {message block rest : List α}

theorem absorb_of_lt (short : message.length < size) :
    absorb size step state message = (state, message) := by
  rw [absorb, blocks_of_lt short, leftover_of_lt short, List.foldl_nil]

theorem absorb_append (positive : 0 < size) (full : block.length = size) :
    absorb size step state (block ++ rest) =
      absorb size step (step state block) rest := by
  rw [absorb, blocks_append positive full, leftover_append positive full,
    List.foldl_cons, absorb]

theorem absorb_block (positive : 0 < size) (full : block.length = size) :
    absorb size step state block = (step state block, []) := by
  have alone := @absorb_append _ _ size step state block [] positive full
  rw [List.append_nil] at alone
  rw [alone]
  exact absorb_of_lt positive

theorem length_leftover :
    (leftover size message).length = message.length % size := by
  have division := Nat.div_add_mod message.length size
  rw [leftover, List.length_drop]
  omega

theorem length_leftover_lt (positive : 0 < size) :
    (leftover size message).length < size := by
  rw [length_leftover]
  exact Nat.mod_lt message.length positive

/-- Messages are absorbed one after the other: the second one continues what
the first one left over. -/
theorem absorb_absorb (positive : 0 < size) (state : State)
    (first second : List α) :
    absorb size step state (first ++ second) =
      absorb size step (absorb size step state first).1
        ((absorb size step state first).2 ++ second) := by
  by_cases short : first.length < size
  · rw [absorb_of_lt short]
  · have full : (first.take size).length = size := by
      rw [List.length_take]
      omega
    have shorter : (first.drop size).length < first.length := by
      rw [List.length_drop]
      omega
    have cut : first = first.take size ++ first.drop size :=
      (List.take_append_drop size first).symm
    have whole : first ++ second =
        first.take size ++ (first.drop size ++ second) := by
      rw [← List.append_assoc, ← cut]
    have later := absorb_absorb positive (step state (first.take size))
      (first.drop size) second
    have firstBlock : absorb size step state first =
        absorb size step (step state (first.take size))
          (first.drop size) := by
      rw [← absorb_append positive full, ← cut]
    rw [whole, absorb_append positive full, later, firstBlock]
termination_by first.length

end Absorb

end Ughi.Lib
