/-!
# Read-write mutexes

Operations of one caller on data behind a read-write mutex.  A mutex is not
reentrant: taking it while it is held blocks, also for the holder, and
releasing it while it is free is a fatal error.  An operation that stops
never returns; what it did before it stopped stays done.
-/

namespace Ughi.Lib

/-- A read-write mutex: held by a writer, or by a number of readers. -/
structure RWMutex where
  writer : Bool
  readers : Nat
deriving DecidableEq, Repr

def RWMutex.free : RWMutex :=
  { writer := false, readers := 0 }

def RWMutex.locked : RWMutex :=
  { writer := true, readers := 0 }

/-- Why an operation never returns. -/
inductive Stop where
  | blocked
  | fatal (message : String)
deriving DecidableEq, Repr

/-- Data and the mutex that guards it. -/
structure Guarded (δ : Type) where
  mu : RWMutex
  guarded : δ
deriving DecidableEq, Repr

/-- An operation on guarded data. -/
def Action (δ α : Type) : Type :=
  Guarded δ → Except Stop α × Guarded δ

namespace Action

variable {δ α β : Type}

/-- An operation that stops is followed by nothing. -/
def andThen (first : Action δ α) (next : α → Action δ β) : Action δ β :=
  fun state =>
    match first state with
    | (.error stop, state) => (.error stop, state)
    | (.ok value, state) => next value state

instance : Monad (Action δ) where
  pure value := fun state => (.ok value, state)
  bind := andThen

def lock : Action δ Unit := fun state =>
  if state.mu.writer || state.mu.readers != 0 then (.error .blocked, state)
  else (.ok (), { state with mu := { state.mu with writer := true } })

def unlock : Action δ Unit := fun state =>
  if state.mu.writer then
    (.ok (), { state with mu := { state.mu with writer := false } })
  else (.error (.fatal "sync: Unlock of unlocked RWMutex"), state)

def rLock : Action δ Unit := fun state =>
  if state.mu.writer then (.error .blocked, state)
  else
    (.ok (),
      { state with mu := { state.mu with readers := state.mu.readers + 1 } })

def rUnlock : Action δ Unit := fun state =>
  if state.mu.readers = 0 then
    (.error (.fatal "sync: RUnlock of unlocked RWMutex"), state)
  else
    (.ok (),
      { state with mu := { state.mu with readers := state.mu.readers - 1 } })

def read : Action δ δ := fun state =>
  (.ok state.guarded, state)

def write (change : δ → δ) : Action δ Unit := fun state =>
  (.ok (), { state with guarded := change state.guarded })

/-- Run `deferred` when `body` has returned, and return what `body` did. -/
def deferring (deferred : Action δ Unit) (body : Action δ α) : Action δ α := do
  let result ← body
  deferred
  return result

theorem bind_of_ok {first : Action δ α} {next : α → Action δ β} {value : α}
    {before after : Guarded δ} (returned : first before = (.ok value, after)) :
    (first >>= next) before = next value after := by
  change andThen first next before = _
  rw [andThen, returned]

theorem bind_of_error {first : Action δ α} {next : α → Action δ β}
    {stop : Stop} {before after : Guarded δ}
    (stopped : first before = (.error stop, after)) :
    (first >>= next) before = (.error stop, after) := by
  change andThen first next before = _
  rw [andThen, stopped]

theorem write_section (change : δ → δ) (data : δ) (next : Action δ α) :
    (do lock; write change; unlock; next : Action δ α)
        { mu := .free, guarded := data } =
      next { mu := .free, guarded := change data } :=
  rfl

theorem read_section (data : δ) (next : δ → Action δ α) :
    (do rLock; let value ← read; rUnlock; next value : Action δ α)
        { mu := .free, guarded := data } =
      next data { mu := .free, guarded := data } :=
  rfl

/-- A section that locks once more instead of unlocking blocks for good, with
its write done and the mutex held. -/
theorem relock_section (change : δ → δ) (data : δ) (result : α) :
    (do lock; deferring lock (do write change; return result) : Action δ α)
        { mu := .free, guarded := data } =
      (.error .blocked, { mu := .locked, guarded := change data }) :=
  rfl

end Action

end Ughi.Lib
