import Mathlib.Data.List.Basic

/-!
# Buffered channels

A channel holds items between its senders and its receivers, never more than
its capacity.  A send or a close panics on a closed channel.  A send that must
not wait passes its item over when the buffer is full; a receive takes the
oldest item, and waits for one only while the channel is open.
-/

namespace Ughi.Lib

universe u

structure Channel (α : Type u) (capacity : Nat) where
  buffer : List α
  closed : Bool
  bounded : buffer.length ≤ capacity

inductive ChannelPanic where
  | sendOnClosed
  | closeOfClosed
deriving DecidableEq, Repr

/-- What a receive comes back with; a blocked one has not come back yet. -/
inductive Receipt (α : Type u) where
  | took (item : α)
  | closed
  | blocked
deriving DecidableEq, Repr

/-- The items a receive took. -/
def Receipt.items {α : Type u} : Receipt α → List α
  | .took item => [item]
  | .closed => []
  | .blocked => []

namespace Channel

variable {α : Type u} {capacity : Nat}

def make (α : Type u) (capacity : Nat) : Channel α capacity :=
  { buffer := []
    closed := false
    bounded := Nat.zero_le capacity }

/-- Append the item where there is room for it. -/
def enqueue (item : α) (channel : Channel α capacity) :
    Channel α capacity :=
  if room : channel.buffer.length < capacity then
    { channel with
      buffer := channel.buffer ++ [item]
      bounded := by
        rw [List.length_append, List.length_singleton]
        exact room }
  else channel

/-- A send that does not wait. -/
def trySend (item : α) (channel : Channel α capacity) :
    Except ChannelPanic (Channel α capacity) :=
  if channel.closed then .error .sendOnClosed
  else .ok (channel.enqueue item)

def close (channel : Channel α capacity) :
    Except ChannelPanic (Channel α capacity) :=
  if channel.closed then .error .closeOfClosed
  else .ok { channel with closed := true }

def receipt (channel : Channel α capacity) : Receipt α :=
  match channel.buffer with
  | item :: _ => .took item
  | [] => if channel.closed then .closed else .blocked

/-- The channel once a receive has taken what it takes. -/
def afterReceive (channel : Channel α capacity) : Channel α capacity :=
  { channel with
    buffer := channel.buffer.tail
    bounded := by
      rw [List.length_tail]
      exact Nat.le_trans (Nat.sub_le _ _) channel.bounded }

def receive (channel : Channel α capacity) :
    Receipt α × Channel α capacity :=
  (channel.receipt, channel.afterReceive)

@[simp] theorem make_buffer : (make α capacity).buffer = [] :=
  rfl

@[simp] theorem make_closed : (make α capacity).closed = false :=
  rfl

@[simp] theorem afterReceive_closed (channel : Channel α capacity) :
    channel.afterReceive.closed = channel.closed :=
  rfl

@[simp] theorem enqueue_closed (item : α) (channel : Channel α capacity) :
    (channel.enqueue item).closed = channel.closed := by
  rw [enqueue]
  split <;> rfl

theorem buffer_enqueue_cases (item : α) (channel : Channel α capacity) :
    (channel.buffer.length < capacity ∧
        (channel.enqueue item).buffer = channel.buffer ++ [item]) ∨
      (channel.buffer.length = capacity ∧
        (channel.enqueue item).buffer = channel.buffer) := by
  rw [enqueue]
  split
  next room =>
    exact Or.inl ⟨room, rfl⟩
  next full =>
    have atMost := channel.bounded
    exact Or.inr ⟨Nat.le_antisymm atMost (Nat.not_lt.mp full), rfl⟩

theorem items_receipt_append (channel : Channel α capacity) :
    channel.receipt.items ++ channel.afterReceive.buffer =
      channel.buffer := by
  rw [receipt]
  split
  next item rest held =>
    simp [Receipt.items, afterReceive, held]
  next empty =>
    split
    · simp [Receipt.items, afterReceive, empty]
    · simp [Receipt.items, afterReceive, empty]

theorem trySend_of_open {item : α} {channel : Channel α capacity}
    (isOpen : channel.closed = false) :
    channel.trySend item = .ok (channel.enqueue item) := by
  rw [trySend, isOpen]
  rfl

theorem close_of_open {channel : Channel α capacity}
    (isOpen : channel.closed = false) :
    channel.close = .ok { channel with closed := true } := by
  rw [close, isOpen]
  rfl

end Channel

end Ughi.Lib
