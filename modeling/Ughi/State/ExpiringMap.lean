import Ughi.Lib.Run
import Ughi.State.MemoryState

/-!
# The memory state as an expiring map

One caller's calls are recorded with their times, and `expected` reads off
that record what a `Get` owes its caller.  The reads, deletions and cleanup
passes keep the store in step with the record whatever it holds; a `Set` that
stores anything blocks on its own mutex.
-/

namespace Ughi.State

open Ughi.Lib

namespace MemoryState

variable {Value Data : Type}

/-- A call, and the time that has passed since the call before it. -/
inductive Call (Value : Type) where
  | set (elapsed : Nat) (key : String) (value : Value) (expiration : Int)
  | get (elapsed : Nat) (key : String)
  | delete (elapsed : Nat) (key : String)
  | cleanup (elapsed : Nat)

def Call.elapsed : Call Value → Nat
  | .set elapsed _ _ _ => elapsed
  | .get elapsed _ => elapsed
  | .delete elapsed _ => elapsed
  | .cleanup elapsed => elapsed

/-- What a call returns. -/
inductive Answer (Value : Type) where
  | stored (result : Except String Unit)
  | found (result : Except String Value)
  | deleted (result : Except String Unit)
  | cleaned

/-- A call that has returned and changed what a `Get` owes. -/
inductive Event (Value : Type) where
  | set (key : String) (value : Value) (expiration : Int) (time : Nat)
  | delete (key : String)

/-- The state with the time and the events so far, latest first. -/
structure Tracked (Value Data : Type) where
  state : MemoryState Data
  clock : Nat
  events : List (Event Value)

def Tracked.fresh (clock : Nat) : Tracked Value Data :=
  { state := new, clock := clock, events := [] }

def perform (codec : Codec Value Data) (now : Nat) :
    Call Value → Action (ItemMap Data) (Answer Value)
  | .set _ key value expiration => do
      let result ← set codec key value expiration now
      return .stored result
  | .get _ key => do
      let result ← get codec key now
      return .found result
  | .delete _ key => do
      let result ← delete key
      return .deleted result
  | .cleanup _ => do
      cleanup now
      return .cleaned

/-- The event a call leaves behind when it returns `answer`. -/
def Call.event (now : Nat) : Call Value → Answer Value → Option (Event Value)
  | .set _ key value expiration, .stored (.ok ()) =>
      some (.set key value expiration now)
  | .delete _ key, .deleted (.ok ()) => some (.delete key)
  | _, _ => none

def serve (codec : Codec Value Data) (tracked : Tracked Value Data)
    (call : Call Value) : Tracked Value Data :=
  let now := tracked.clock + call.elapsed
  let result := perform codec now call tracked.state
  { state := result.2
    clock := now
    events :=
      match result.1 with
      | .error _ => tracked.events
      | .ok answer => (call.event now answer).toList ++ tracked.events }

/-- The last `Set` of a key that no `Delete` of it followed: its value, its
ttl and its time. -/
def lastSet (key : String) :
    List (Event Value) → Option (Value × Int × Nat)
  | [] => none
  | .set other value expiration time :: earlier =>
      if other = key then some (value, expiration, time)
      else lastSet key earlier
  | .delete other :: earlier =>
      if other = key then none else lastSet key earlier

/-- The value a `Get` owes its caller, if any. -/
def expected (key : String) (now : Nat) (events : List (Event Value)) :
    Option Value :=
  match lastSet key events with
  | none => none
  | some (value, expiration, time) =>
      if expiration ≤ 0 ∨ (now : Int) ≤ time + expiration then some value
      else none

/-- The answer is the one owed: a `Get` yields the expected value, and an
error when there is none. -/
def Owed (now : Nat) (events : List (Event Value)) :
    Call Value → Answer Value → Prop
  | .get _ key, answer =>
      match expected key now events with
      | some value => answer = .found (.ok value)
      | none => ∃ message, answer = .found (.error message)
  | _, _ => True

/-- The call returns the answer it owes and leaves the mutex free. -/
def Usable (codec : Codec Value Data) (tracked : Tracked Value Data)
    (call : Call Value) : Prop :=
  ∃ answer after,
    perform codec (tracked.clock + call.elapsed) call tracked.state =
        (.ok answer, after) ∧
      after.mu = .free ∧
      Owed (tracked.clock + call.elapsed) tracked.events call answer

/-- The call is no `Set` of a value that marshals. -/
def StoresNothing (codec : Codec Value Data) : Call Value → Prop
  | .set _ _ value _ => ∀ data, codec.marshal value ≠ .ok data
  | _ => True

/-- What is stored under a key is what its last `Set` asked for; an item that
has been cleaned up has expired. -/
def Holds (codec : Codec Value Data) (clock : Nat)
    (stored : Option (MemoryItem Data)) :
    Option (Value × Int × Nat) → Prop
  | none => stored = none
  | some (value, expiration, time) =>
      (∃ data, stored = some
            { data := data
              expiresAt :=
                if expiration > 0 then time + expiration.toNat else 0 } ∧
          codec.unmarshal data = .ok value) ∨
        stored = none ∧ 0 < expiration ∧ (time : Int) + expiration < clock

/-- The mutex is free and every key holds what its events ask for. -/
structure InStep (codec : Codec Value Data) (tracked : Tracked Value Data) :
    Prop where
  free : tracked.state.mu = .free
  holds : ∀ key, Holds codec tracked.clock
    (tracked.state.guarded.lookup key) (lastSet key tracked.events)

/-- What a call that stores nothing achieves: it returns the answer it owes,
frees the mutex and keeps the store in step with the events. -/
structure Served (codec : Codec Value Data) (tracked : Tracked Value Data)
    (call : Call Value) (answer : Answer Value) (after : MemoryState Data) :
    Prop where
  returns :
    perform codec (tracked.clock + call.elapsed) call tracked.state =
      (.ok answer, after)
  free : after.mu = .free
  owed : Owed (tracked.clock + call.elapsed) tracked.events call answer
  holds : ∀ key,
    Holds codec (tracked.clock + call.elapsed) (after.guarded.lookup key)
      (lastSet key
        ((call.event (tracked.clock + call.elapsed) answer).toList ++
          tracked.events))

section Expiry

variable {codec : Codec Value Data} {clock now : Nat}
  {stored : Option (MemoryItem Data)}

theorem expired_iff (data : Data) (expiration : Int) (time now : Nat) :
    MemoryItem.expired
        { data := data
          expiresAt :=
            if expiration > 0 then time + expiration.toNat else 0 } now =
        true ↔
      0 < expiration ∧ (time : Int) + expiration < now := by
  unfold MemoryItem.expired
  by_cases positive : expiration > 0
  · have cast : (expiration.toNat : Int) = expiration :=
      Int.toNat_of_nonneg (Int.le_of_lt positive)
    have lasting : time + expiration.toNat ≠ 0 := by omega
    simp only [positive, if_true, Bool.and_eq_true, decide_eq_true_eq,
      lasting, ne_eq, not_false_eq_true, true_and]
    omega
  · simp [positive]

theorem Holds.later {last : Option (Value × Int × Nat)}
    (holds : Holds codec clock stored last) (passed : clock ≤ now) :
    Holds codec now stored last := by
  cases last with
  | none => exact holds
  | some asked =>
      obtain ⟨value, expiration, time⟩ := asked
      rcases holds with kept | ⟨gone, positive, past⟩
      · exact .inl kept
      · exact .inr ⟨gone, positive, by omega⟩

theorem Holds.drop {last : Option (Value × Int × Nat)}
    (holds : Holds codec now stored last)
    (expired : ∀ item, stored = some item → item.expired now = true) :
    Holds codec now none last := by
  cases last with
  | none => rfl
  | some asked =>
      obtain ⟨value, expiration, time⟩ := asked
      rcases holds with ⟨data, kept, _⟩ | ⟨_, positive, past⟩
      · obtain ⟨positive, past⟩ :=
          (expired_iff data expiration time now).mp (expired _ kept)
        exact .inr ⟨rfl, positive, past⟩
      · exact .inr ⟨rfl, positive, past⟩

theorem Holds.expected_of_gone {key : String} {events : List (Event Value)}
    (holds : Holds codec now none (lastSet key events)) :
    expected key now events = none := by
  unfold expected
  cases last : lastSet key events with
  | none => rfl
  | some asked =>
      obtain ⟨value, expiration, time⟩ := asked
      rw [last] at holds
      rcases holds with ⟨data, kept, _⟩ | ⟨_, positive, past⟩
      · cases kept
      · exact if_neg (by omega)

theorem Holds.expected_of_live {key : String} {events : List (Event Value)}
    {item : MemoryItem Data}
    (holds : Holds codec now (some item) (lastSet key events))
    (live : item.expired now = false) :
    ∃ value, expected key now events = some value ∧
      codec.unmarshal item.data = .ok value := by
  unfold expected
  cases last : lastSet key events with
  | none =>
      rw [last] at holds
      cases holds
  | some asked =>
      obtain ⟨value, expiration, time⟩ := asked
      rw [last] at holds
      rcases holds with ⟨data, kept, decodes⟩ | ⟨gone, _⟩
      · cases kept
        have notOver := (expired_iff data expiration time now).not.mp
          (Bool.eq_false_iff.mp live)
        exact ⟨value, if_pos (by omega), decodes⟩
      · cases gone

end Expiry

section Calls

variable {codec : Codec Value Data} {tracked : Tracked Value Data}

theorem InStep.state_eq (inStep : InStep codec tracked) :
    tracked.state = { mu := .free, guarded := tracked.state.guarded } := by
  rw [← inStep.free]

theorem set_served (inStep : InStep codec tracked) (elapsed : Nat)
    (key : String) {value : Value} (expiration : Int)
    (refused : ∀ data, codec.marshal value ≠ .ok data) :
    ∃ answer after,
      Served codec tracked (.set elapsed key value expiration) answer
        after := by
  cases marshalled : codec.marshal value with
  | ok data => exact absurd marshalled (refused data)
  | error message =>
      refine ⟨.stored (.error message), tracked.state, ?_, inStep.free,
        trivial, ?_⟩
      · rw [perform, Action.bind_of_ok
          (set_refused codec key marshalled expiration _ tracked.state)]
        rfl
      · intro other
        exact (inStep.holds other).later (Nat.le_add_right _ _)

theorem delete_served (inStep : InStep codec tracked) (elapsed : Nat)
    (key : String) :
    ∃ answer after,
      Served codec tracked (.delete elapsed key) answer after := by
  refine ⟨.deleted (.ok ()),
    { mu := .free, guarded := tracked.state.guarded.erase key }, ?_, rfl,
    trivial, ?_⟩
  · rw [inStep.state_eq, perform, Action.bind_of_ok (delete_free key _)]
    rfl
  · intro other
    have holds := (inStep.holds other).later
      (Nat.le_add_right tracked.clock elapsed)
    simp only [Call.event, Call.elapsed, Option.toList_some,
      List.singleton_append, lastSet, HashMap.lookup_erase_eq]
    by_cases same : other = key
    · simp [same, Holds]
    · have different : key ≠ other := fun equal => same equal.symm
      simpa [same, different] using holds

theorem cleanup_served (inStep : InStep codec tracked) (elapsed : Nat) :
    ∃ answer after,
      Served codec tracked (.cleanup elapsed) answer after := by
  refine ⟨.cleaned,
    { mu := .free
      guarded := HashMap.retain
        (fun item => !item.expired (tracked.clock + elapsed))
        tracked.state.guarded }, ?_, rfl, trivial, ?_⟩
  · rw [inStep.state_eq, perform, Action.bind_of_ok (cleanup_free _ _)]
    rfl
  · intro key
    have holds := (inStep.holds key).later
      (Nat.le_add_right tracked.clock elapsed)
    simp only [Call.event, Call.elapsed, Option.toList_none,
      List.nil_append, HashMap.lookup_retain]
    cases stored : tracked.state.guarded.lookup key with
    | none => simpa [stored] using holds
    | some item =>
        rw [stored] at holds
        cases expired : item.expired (tracked.clock + elapsed) with
        | false => simpa [Option.filter, expired] using holds
        | true =>
            have dropped := holds.drop (by simpa using expired)
            simpa [Option.filter, expired] using dropped

theorem get_served (inStep : InStep codec tracked) (elapsed : Nat)
    (key : String) :
    ∃ answer after,
      Served codec tracked (.get elapsed key) answer after := by
  have holds : ∀ other, Holds codec (tracked.clock + elapsed)
      (tracked.state.guarded.lookup other)
      (lastSet other tracked.events) := by
    intro other
    exact (inStep.holds other).later (Nat.le_add_right _ _)
  have result := get_free codec key tracked.state.guarded
    (tracked.clock + elapsed)
  rw [← inStep.state_eq] at result
  have holdsKey := holds key
  cases stored : tracked.state.guarded.lookup key with
  | none =>
      rw [stored] at result holdsKey
      refine ⟨.found (.error "key not found"), tracked.state, ?_,
        inStep.free, ?_, holds⟩
      · rw [perform, Call.elapsed, Action.bind_of_ok result]
        rfl
      · have nothing := holdsKey.expected_of_gone
        simp only [Owed, Call.elapsed, nothing]
        exact ⟨_, rfl⟩
  | some item =>
      rw [stored] at result holdsKey
      cases expired : item.expired (tracked.clock + elapsed) with
      | true =>
          have dropped := holdsKey.drop (by simpa using expired)
          simp only [expired, if_true] at result
          refine ⟨.found (.error "key expired"),
            { mu := .free, guarded := tracked.state.guarded.erase key }, ?_,
            rfl, ?_, ?_⟩
          · rw [perform, Call.elapsed, Action.bind_of_ok result]
            rfl
          · have nothing := dropped.expected_of_gone
            simp only [Owed, Call.elapsed, nothing]
            exact ⟨_, rfl⟩
          · intro other
            simp only [Call.event, Call.elapsed, Option.toList_none,
              List.nil_append, HashMap.lookup_erase_eq]
            by_cases same : other = key
            · subst other
              simpa using dropped
            · simpa [same] using holds other
      | false =>
          obtain ⟨value, owed, decodes⟩ := holdsKey.expected_of_live expired
          simp only [expired, Bool.false_eq_true, if_false, decodes]
            at result
          refine ⟨.found (.ok value), tracked.state, ?_, inStep.free, ?_,
            holds⟩
          · rw [perform, Call.elapsed, Action.bind_of_ok result]
            rfl
          · simp only [Owed, Call.elapsed, owed]

theorem served (inStep : InStep codec tracked) {call : Call Value}
    (harmless : StoresNothing codec call) :
    ∃ answer after, Served codec tracked call answer after := by
  cases call with
  | set elapsed key value expiration =>
      exact set_served inStep elapsed key expiration harmless
  | get elapsed key => exact get_served inStep elapsed key
  | delete elapsed key => exact delete_served inStep elapsed key
  | cleanup elapsed => exact cleanup_served inStep elapsed

theorem serve_inStep (inStep : InStep codec tracked) {call : Call Value}
    (harmless : StoresNothing codec call) :
    InStep codec (serve codec tracked call) := by
  obtain ⟨answer, after, done⟩ := served inStep harmless
  have next : serve codec tracked call =
      { state := after
        clock := tracked.clock + call.elapsed
        events :=
          (call.event (tracked.clock + call.elapsed) answer).toList ++
            tracked.events } := by
    rw [serve, done.returns]
  rw [next]
  exact ⟨done.free, done.holds⟩

theorem usable_iff (inStep : InStep codec tracked) (call : Call Value) :
    Usable codec tracked call ↔ StoresNothing codec call := by
  constructor
  · intro usable
    cases call with
    | set elapsed key value expiration =>
        intro data marshalled
        obtain ⟨answer, after, returns, _⟩ := usable
        have blocks := set_free codec key tracked.state.guarded marshalled
          expiration (tracked.clock + elapsed)
        rw [← inStep.state_eq] at blocks
        rw [perform, Call.elapsed, Action.bind_of_error blocks] at returns
        cases returns
    | _ => exact trivial
  · intro harmless
    obtain ⟨answer, after, done⟩ := served inStep harmless
    exact ⟨answer, after, done.returns, done.free, done.owed⟩

end Calls

theorem fresh_inStep (codec : Codec Value Data) (clock : Nat) :
    InStep codec (.fresh clock) where
  free := rfl
  holds := fun _ => rfl

/-- In every run, each call returns, frees the mutex and answers as the last
`Set` of its key demands, exactly when no call is a `Set` of a value that
marshals. -/
theorem usable_eachCall_iff (codec : Codec Value Data) (clock : Nat)
    (calls : List (Call Value)) :
    EachCall (serve codec) (Usable codec) (.fresh clock) calls ↔
      ∀ call ∈ calls, StoresNothing codec call := by
  have kept : ∀ tracked call, InStep codec tracked →
      StoresNothing codec call → InStep codec (serve codec tracked call) := by
    intro tracked call inStep harmless
    exact serve_inStep inStep harmless
  have agree : ∀ tracked call, InStep codec tracked →
      (Usable codec tracked call ↔ StoresNothing codec call) := by
    intro tracked call inStep
    exact usable_iff inStep call
  rw [eachCall_congr kept agree (fresh_inStep codec clock) calls,
    eachCall_calls_iff]

/-- The first `Set` of a number blocks on its own mutex. -/
theorem first_set_blocks :
    ¬ EachCall
        (serve { marshal := fun value : Nat => .ok value, unmarshal := .ok })
        (Usable { marshal := fun value : Nat => .ok value, unmarshal := .ok })
        (.fresh 1) [.set 0 "key" 7 0] := by
  intro each
  have harmless := (usable_iff (fresh_inStep _ 1) _).mp each.1
  exact harmless 7 rfl

end MemoryState

end Ughi.State
