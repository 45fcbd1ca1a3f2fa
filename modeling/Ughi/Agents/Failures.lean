import Ughi.Agents.Pool

/-!
# What a failed operation leaves behind

An operation that returns an error is meant to have had no effect.  Recovery
resets and respawns a crashed agent before it enqueues it, so the one failure
that comes late is an enqueue that finds the queue full.
-/

namespace Ughi.Agents

open Ughi.Lib

namespace Runtime

/-- The call returns an error. -/
def Fails (rt : Runtime) : Call → Prop
  | .spawn config id now elapsedUs =>
      ∃ error, (rt.spawn config id now elapsedUs).1 = .error error
  | .kill id now => ∃ error, (rt.kill id now).1 = .error error
  | .transitionAgent id newState now =>
      ∃ error, (rt.transitionAgent id newState now).1 = .error error
  | .recoverAgent id now => ∃ error, (rt.recoverAgent id now).1 = .error error
  | .schedulerTick _ => False
  | .agentAllocate id bytes =>
      ∃ error, (rt.agentAllocate id bytes).1 = .error error
  | .agentDeallocate id bytes =>
      ∃ error, (rt.agentDeallocate id bytes).1 = .error error
  | .shutdown => False

/-- The pool, the queue, the system tracker and the metrics are the same; the
pool is compared by what it maps, not by its iteration order. -/
structure Unchanged (before after : Runtime) : Prop where
  agents : ∀ id, after.agents.lookup id = before.agents.lookup id
  scheduler : after.scheduler = before.scheduler
  systemMemory : after.systemMemory = before.systemMemory
  metrics : after.metrics = before.metrics

/-- The call is no recovery of a crashed agent that meets a full queue. -/
def FailsEarly (rt : Runtime) : Call → Prop
  | .recoverAgent id _ =>
      rt.scheduler.capacity ≤ rt.scheduler.queue.length →
        ∀ agent, rt.agents.lookup id = some agent → agent.state ≠ .crashed
  | _ => True

theorem Unchanged.refl (rt : Runtime) : Unchanged rt rt :=
  ⟨fun _ => rfl, rfl, rfl, rfl⟩

section Steps

variable {rt : Runtime}

theorem Unchanged.putBack {id : String} {agent : Agent}
    (found : rt.agents.lookup id = some agent) :
    Unchanged rt { rt with agents := rt.agents.insert id agent } := by
  refine ⟨?_, rfl, rfl, rfl⟩
  intro other
  rw [HashMap.lookup_insert_eq]
  split
  next same =>
    rw [same, found]
  · rfl

theorem spawn_unchanged {config : AgentConfig} {id : String}
    {now elapsedUs : Nat} {error : RuntimeError}
    (failed : (rt.spawn config id now elapsedUs).1 = .error error) :
    Unchanged rt (rt.spawn config id now elapsedUs).2 := by
  rcases rt.spawn_cases config id now elapsedUs with
    ⟨_, refused, _⟩ | ⟨_, _, _, spawned⟩
  · rw [refused]
    exact .refl rt
  · rw [spawned] at failed
    cases failed

theorem kill_unchanged {id : String} {now : Nat} {error : RuntimeError}
    (failed : (rt.kill id now).1 = .error error) :
    Unchanged rt (rt.kill id now).2 := by
  rcases rt.kill_cases id now with ⟨_, refused⟩ | ⟨agent, _, killed⟩
  · rw [refused]
    exact .refl rt
  · rw [killed] at failed
    cases failed

theorem transitionAgent_unchanged {id : String} {newState : AgentState}
    {now : Nat} {error : RuntimeError}
    (failed : (rt.transitionAgent id newState now).1 = .error error) :
    Unchanged rt (rt.transitionAgent id newState now).2 := by
  rcases rt.transitionAgent_cases id newState now with
    ⟨_, _, refused⟩ | ⟨agent, moved, _, _, result⟩
  · rw [refused]
    exact .refl rt
  · rw [result] at failed
    cases failed

theorem agentAllocate_unchanged {id : String} {bytes : Nat}
    {error : RuntimeError}
    (words : rt.AllAgents fun agent =>
      agent.memoryTracker.currentBytes < 2 ^ 64)
    (fits : bytes < 2 ^ 64)
    (failed : (rt.agentAllocate id bytes).1 = .error error) :
    Unchanged rt (rt.agentAllocate id bytes).2 := by
  rcases rt.agentAllocate_cases id bytes with
    ⟨_, _, refused⟩ | ⟨agent, found, ⟨_, exceeded, result⟩ | ⟨_, result⟩⟩
  · rw [refused]
    exact .refl rt
  · have rolledBack := AgentMemoryTracker.allocate_error
      (words id agent found) fits exceeded
    rw [result, rolledBack]
    exact .putBack found
  · rw [result] at failed
    cases failed

theorem agentDeallocate_unchanged {id : String} {bytes : Nat}
    {error : RuntimeError}
    (failed : (rt.agentDeallocate id bytes).1 = .error error) :
    Unchanged rt (rt.agentDeallocate id bytes).2 := by
  rcases rt.agentDeallocate_cases id bytes with
    ⟨_, _, refused⟩ | ⟨agent, _, result⟩
  · rw [refused]
    exact .refl rt
  · rw [result] at failed
    cases failed

/-- A recovery that fails late has already moved its agent out of `Crashed`. -/
theorem recoverAgent_unchanged_iff (id : String) (now : Nat) :
    (rt.Fails (.recoverAgent id now) →
        Unchanged rt (rt.recoverAgent id now).2) ↔
      rt.FailsEarly (.recoverAgent id now) := by
  rcases rt.recoverAgent_cases id now with
    ⟨notCrashed, error, refused, _⟩ |
      ⟨agent, found, crashed, ⟨full, result⟩ | ⟨room, result⟩⟩
  · rw [refused]
    refine iff_of_true (fun _ => .refl rt) ?_
    intro _ agent found
    exact notCrashed agent found
  · constructor
    · intro unchanged
      have failed : rt.Fails (.recoverAgent id now) :=
        ⟨_, congrArg Prod.fst result⟩
      have sameAgent := (unchanged failed).agents id
      rw [result, AList.lookup_insert, found, Option.some_inj] at sameAgent
      have respawned : AgentState.spawned = agent.state :=
        congrArg Agent.state sameAgent
      rw [crashed] at respawned
      cases respawned
    · intro early
      exact absurd crashed (early full agent found)
  · constructor
    · intro _ full
      exact absurd full (Nat.not_le.mpr room)
    · intro _ failed
      obtain ⟨error, failed⟩ := failed
      rw [result] at failed
      cases failed

theorem serve_unchanged_iff
    (words : rt.AllAgents fun agent =>
      agent.memoryTracker.currentBytes < 2 ^ 64)
    {call : Call} (fits : call.BytesFit) :
    (rt.Fails call → Unchanged rt (rt.serve call)) ↔ rt.FailsEarly call := by
  cases call with
  | spawn config id now elapsedUs =>
      refine iff_of_true ?_ trivial
      intro failed
      exact spawn_unchanged failed.choose_spec
  | kill id now =>
      refine iff_of_true ?_ trivial
      intro failed
      exact kill_unchanged failed.choose_spec
  | transitionAgent id newState now =>
      refine iff_of_true ?_ trivial
      intro failed
      exact transitionAgent_unchanged failed.choose_spec
  | recoverAgent id now => exact recoverAgent_unchanged_iff id now
  | schedulerTick tie => exact iff_of_true False.elim trivial
  | agentAllocate id bytes =>
      refine iff_of_true ?_ trivial
      intro failed
      exact agentAllocate_unchanged words fits failed.choose_spec
  | agentDeallocate id bytes =>
      refine iff_of_true ?_ trivial
      intro failed
      exact agentDeallocate_unchanged failed.choose_spec
  | shutdown => exact iff_of_true False.elim trivial

end Steps

/-- In every reachable state, a failing call leaves the runtime as it was
exactly when it is one of `FailsEarly`. -/
theorem failed_call_unchanged_iff (config : RuntimeConfig)
    (calls : List Call) (call : Call) (fits : call.BytesFit) :
    ((runCalls serve (withConfig config) calls).Fails call →
        Unchanged (runCalls serve (withConfig config) calls)
          ((runCalls serve (withConfig config) calls).serve call)) ↔
      (runCalls serve (withConfig config) calls).FailsEarly call :=
  serve_unchanged_iff (run_allAgents currentBytes_agentInvariant config calls)
    fits

/-- Three agents at work, one of them crashed and respawned. -/
def busyCalls : List Call :=
  [.spawn { goal := "first" } "agent0000001" 0 5,
    .spawn { goal := "second", priority := .high } "agent0000002" 1 4,
    .transitionAgent "agent0000001" .planning 2,
    .agentAllocate "agent0000001" 4096,
    .spawn { goal := "third" } "agent0000003" 3 7,
    .agentAllocate "agent0000002" 65536,
    .transitionAgent "agent0000002" .crashed 4,
    .recoverAgent "agent0000002" 5,
    .schedulerTick 0]

/-- A request beyond the budget of the first agent fails. -/
theorem failed_call_unchanged_busy :
    let call : Call := .agentAllocate "agent0000001" (2 ^ 64 - 4096 - 1)
    (runCalls serve (withConfig { maxAgents := 5 }) busyCalls).Fails call ∧
      call.BytesFit ∧
      (((runCalls serve (withConfig { maxAgents := 5 }) busyCalls).Fails
            call →
          Unchanged (runCalls serve (withConfig { maxAgents := 5 }) busyCalls)
            ((runCalls serve (withConfig { maxAgents := 5 }) busyCalls).serve
              call)) ↔
        (runCalls serve (withConfig { maxAgents := 5 }) busyCalls).FailsEarly
          call) := by
  have fits : Call.BytesFit
      (.agentAllocate "agent0000001" (2 ^ 64 - 4096 - 1)) := by
    unfold Call.BytesFit
    decide
  refine ⟨⟨_, rfl⟩, fits, ?_⟩
  exact failed_call_unchanged_iff { maxAgents := 5 } busyCalls _ fits

/-- The crashed agent keeps its queue entry, so with room for one agent its
recovery finds the queue full; it fails, and the agent is `Spawned`. -/
theorem failed_recovery_respawns :
    ¬ ∀ (config : RuntimeConfig) (calls : List Call) (call : Call),
      call.BytesFit → (runCalls serve (withConfig config) calls).Fails call →
        Unchanged (runCalls serve (withConfig config) calls)
          ((runCalls serve (withConfig config) calls).serve call) := by
  intro claimed
  have unchanged := claimed { maxAgents := 1 }
    [.spawn { goal := "goal" } "agent0000001" 0 0,
      .transitionAgent "agent0000001" .crashed 1]
    (.recoverAgent "agent0000001" 2) trivial
    ⟨.schedulerFull 1, rfl⟩
  have sameAgent := unchanged.agents "agent0000001"
  exact absurd sameAgent (by decide)

end Runtime

end Ughi.Agents
