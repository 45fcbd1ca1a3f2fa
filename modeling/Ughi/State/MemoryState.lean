import Ughi.Lib.HashMap
import Ughi.Lib.Mutex

/-!
# Shared state kept in memory

An expiring map behind a read-write mutex.  Values are stored as the bytes
`encoding/json` makes of them.  Times are nanoseconds since Go's zero time, so
the zero time, which stands for no expiry, is 0.
-/

namespace Ughi.State

open Ughi.Lib

/-- `encoding/json`, for the values and destinations that are used. -/
structure Codec (Value Data : Type) where
  marshal : Value → Except String Data
  unmarshal : Data → Except String Value

structure MemoryItem (Data : Type) where
  data : Data
  expiresAt : Nat
deriving DecidableEq, Repr

/-- The test both cleanup paths make. -/
def MemoryItem.expired {Data : Type} (item : MemoryItem Data) (now : Nat) :
    Bool :=
  item.expiresAt ≠ 0 && item.expiresAt < now

abbrev ItemMap (Data : Type) : Type :=
  HashMap String (MemoryItem Data)

abbrev MemoryState (Data : Type) : Type :=
  Guarded (ItemMap Data)

namespace MemoryState

variable {Value Data : Type}

def new : MemoryState Data :=
  { mu := .free, guarded := ∅ }

/-- `defer s.mu.Lock()`: on return the mutex is locked a second time. -/
def set (codec : Codec Value Data) (key : String) (value : Value)
    (expiration : Int) (now : Nat) :
    Action (ItemMap Data) (Except String Unit) :=
  match codec.marshal value with
  | .error message => pure (.error message)
  | .ok data => do
      Action.lock
      Action.deferring Action.lock do
        let expiresAt := if expiration > 0 then now + expiration.toNat else 0
        Action.write fun store =>
          store.insert key { data := data, expiresAt := expiresAt }
        return .ok ()

def delete (key : String) : Action (ItemMap Data) (Except String Unit) := do
  Action.lock
  Action.write fun store => store.erase key
  Action.unlock
  return .ok ()

def get (codec : Codec Value Data) (key : String) (now : Nat) :
    Action (ItemMap Data) (Except String Value) := do
  Action.rLock
  let store ← Action.read
  Action.rUnlock
  match store.lookup key with
  | none => return .error "key not found"
  | some item =>
      if item.expired now then do
        let _ ← delete key
        return .error "key expired"
      else return codec.unmarshal item.data

/-- One pass of the cleanup loop. -/
def cleanup (now : Nat) : Action (ItemMap Data) Unit := do
  Action.lock
  Action.write (HashMap.retain fun item => !item.expired now)
  Action.unlock

section Sections

variable (codec : Codec Value Data) (key : String) (store : ItemMap Data)

theorem delete_free :
    (delete key : Action (ItemMap Data) _) { mu := .free, guarded := store } =
      (.ok (.ok ()), { mu := .free, guarded := store.erase key }) := by
  unfold delete
  rw [Action.write_section]
  rfl

theorem cleanup_free (now : Nat) :
    cleanup now { mu := .free, guarded := store } =
      (.ok (),
        { mu := .free
          guarded := HashMap.retain (fun item => !item.expired now) store }) :=
  rfl

theorem get_free (now : Nat) :
    get codec key now { mu := .free, guarded := store } =
      match store.lookup key with
      | none =>
          (.ok (.error "key not found"), { mu := .free, guarded := store })
      | some item =>
          if item.expired now then
            (.ok (.error "key expired"),
              { mu := .free, guarded := store.erase key })
          else
            (.ok (codec.unmarshal item.data),
              { mu := .free, guarded := store }) := by
  unfold get
  rw [Action.read_section]
  cases store.lookup key with
  | none => rfl
  | some item =>
      cases expired : item.expired now with
      | false =>
          simp only [expired, Bool.false_eq_true, if_false]
          rfl
      | true =>
          simp only [expired, if_true]
          rfl

theorem set_free {value : Value} {data : Data}
    (marshalled : codec.marshal value = .ok data) (expiration : Int)
    (now : Nat) :
    set codec key value expiration now { mu := .free, guarded := store } =
      (.error .blocked,
        { mu := .locked
          guarded := store.insert key
            { data := data
              expiresAt :=
                if expiration > 0 then now + expiration.toNat else 0 } }) := by
  unfold set
  rw [marshalled]
  exact Action.relock_section _ _ _

theorem set_refused {value : Value} {message : String}
    (refused : codec.marshal value = .error message) (expiration : Int)
    (now : Nat) (state : MemoryState Data) :
    set codec key value expiration now state =
      (.ok (.error message), state) := by
  unfold set
  rw [refused]
  rfl

end Sections

end MemoryState

end Ughi.State
