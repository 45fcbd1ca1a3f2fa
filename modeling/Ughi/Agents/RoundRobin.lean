import Ughi.Lib.Turns
import Ughi.Agents.Aging
import Ughi.Agents.QueueCoverage

/-!
# Round-robin over agents of one priority

A dequeued entry goes back with the boosts it gained, so agents of one
priority do not stay on one level.  With every sixth tick the level of a full
round rises by one; an agent that was served just after such a tick lags one
level behind, unless rounds and boosts keep step or the top level is reached
within a round.
-/

namespace Ughi.Agents

open Ughi.Lib

/-- A round is too short for a boost, consists of whole boosts, or is long
enough to reach the highest rank. -/
def RotatesEvenly (size : Nat) (priority : AgentPriority) : Prop :=
  size ≤ 5 ∨ 6 ∣ size ∨ 4 ≤ priority.rank + size / 6

instance (size : Nat) (priority : AgentPriority) :
    Decidable (RotatesEvenly size priority) :=
  inferInstanceAs (Decidable (_ ∨ _))

/-- The boosts of an entry that is enqueued by a turn of an even rotation. -/
def boosts (size turn : Nat) : Nat :=
  if size < 6 then 0 else turn / 6

/-- The entry of an agent at tick `now`, served last by the given turn; the
rotation started at tick `start`. -/
def turnEntry (size start : Nat) (priority : AgentPriority) (now : Nat)
    (turn : String × Nat) : SchedulerEntry :=
  (SchedulerEntry.new turn.1 (priority.raise (boosts size turn.2))
    (start + turn.2)).waited (now - turn.2)

section Boosts

variable {size turn now rank : Nat}

theorem boosts_le (inWindow : now - size ≤ turn) (past : turn ≤ now) :
    boosts size turn + (now - turn) / 6 ≤ boosts size now := by
  unfold boosts
  split
  · omega
  · omega

/-- In an even rotation, and before its first uneven tick, the oldest entry
has all of them. -/
theorem boosts_oldest
    (even : (size ≤ 5 ∨ 6 ∣ size ∨ 4 ≤ rank + size / 6) ∨
      now < 6 * (size / 6) + 6) :
    min 4 (rank + (boosts size (now - size) + (now - (now - size)) / 6)) =
      min 4 (rank + boosts size now) := by
  unfold boosts
  split
  · omega
  · omega

/-- At its first uneven tick a rotation has an entry above the oldest. -/
theorem boosts_uneven (large : 6 ≤ size) (uneven : ¬ 6 ∣ size)
    (low : rank + size / 6 < 4) :
    min 4 (rank + (boosts size (6 * (size / 6) + 6 - size) +
        (6 * (size / 6) + 6 - (6 * (size / 6) + 6 - size)) / 6)) <
      min 4 (rank + (boosts size 6 + (6 * (size / 6) + 6 - 6) / 6)) := by
  unfold boosts
  split
  · omega
  · omega

end Boosts

section TurnEntry

variable {size start now : Nat} {priority : AgentPriority}
  {turn : String × Nat}

theorem turnEntry_enqueuedAtTick :
    (turnEntry size start priority now turn).enqueuedAtTick =
      start + turn.2 :=
  rfl

theorem wait_turnEntry (past : turn.2 ≤ now) :
    (turnEntry size start priority now turn).wait =
      turnEntry size start priority (now + 1) turn := by
  have longer : now + 1 - turn.2 = now - turn.2 + 1 := by omega
  rw [turnEntry, SchedulerEntry.wait_waited, turnEntry, longer]

theorem turnEntry_rank :
    (turnEntry size start priority now turn).effectivePriority.rank =
      min 4 (priority.rank + (boosts size turn.2 + (now - turn.2) / 6)) := by
  rw [turnEntry, SchedulerEntry.waited_rank, SchedulerEntry.new,
    AgentPriority.rank_raise]
  omega

theorem turnEntry_now (id : String) :
    turnEntry size start priority now (id, now) =
      .new id (priority.raise (boosts size now)) (start + now) := by
  rw [turnEntry, Nat.sub_self]
  exact SchedulerEntry.waited_zero rfl

end TurnEntry

namespace Runtime

/-- The agent a tick dequeues, if any. -/
def tickDequeues (rt : Runtime) (tie : Nat) : Option String :=
  if !rt.running then none
  else (rt.scheduler.tick.dequeue tie).1.map SchedulerEntry.agentId

/-- The agents that consecutive ticks dequeue. -/
def dequeues : Runtime → List Nat → List String
  | _, [] => []
  | rt, tie :: ties =>
      (rt.tickDequeues tie).toList ++ (rt.schedulerTick tie).dequeues ties

/-- The pool holds agents of one priority, none of them spawned or terminal,
each queued once, with that priority, at the current tick. -/
structure RoundRobinStart (rt : Runtime) (priority : AgentPriority) :
    Prop where
  running : rt.running = true
  within : rt.scheduler.Within
  active : ∀ agent ∈ HashMap.values rt.agents,
    agent.isActive = true ∧ agent.priority = priority
  queued : rt.scheduler.queue.Perm
    (rt.agents.keys.map fun id =>
      .new id priority rt.scheduler.currentTick)

/-- However ties are broken, as many consecutive ticks as there are agents
dequeue each agent exactly once. -/
def RoundRobin (rt : Runtime) : Prop :=
  ∀ before window : List Nat, window.length = HashMap.size rt.agents →
    ((runCalls schedulerTick rt before).dequeues window).Perm rt.agents.keys

/-- After the turns of `log`, each agent is queued once, with the boosts of an
even rotation. -/
structure InTurn (first : Runtime) (priority : AgentPriority)
    (log waiting : List String) (rt : Runtime) : Prop where
  running : rt.running = true
  within : rt.scheduler.Within
  samePool : rt.agents = first.agents
  clock : rt.scheduler.currentTick =
    first.scheduler.currentTick + log.length
  rotation : InRotation first.agents.keys waiting log
  queue : rt.scheduler.queue.Perm
    ((turns first.agents.keys.length waiting log).map
      (turnEntry first.agents.keys.length first.scheduler.currentTick priority
        log.length))

section Start

variable {rt : Runtime} {priority : AgentPriority}

theorem RoundRobinStart.inTurn (start : rt.RoundRobinStart priority) :
    InTurn rt priority [] rt.agents.keys rt where
  running := start.running
  within := start.within
  samePool := rfl
  clock := rfl
  rotation := .initial _
  queue := by
    have fresh : (turns rt.agents.keys.length rt.agents.keys []).map
          (turnEntry rt.agents.keys.length rt.scheduler.currentTick priority
            0) =
        rt.agents.keys.map fun id =>
          .new id priority rt.scheduler.currentTick := by
      have none : boosts rt.agents.keys.length 0 = 0 := by simp [boosts]
      simp [turns, recent, Function.comp_def, turnEntry_now, none]
    rw [List.length_nil, fresh]
    exact start.queued

end Start

section Turn

variable {first rt : Runtime} {priority : AgentPriority}
  {log waiting : List String} {tie : Nat}

theorem InTurn.ticked (inTurn : InTurn first priority log waiting rt) :
    rt.scheduler.tick.queue.Perm
      ((turns first.agents.keys.length waiting log).map
        (turnEntry first.agents.keys.length first.scheduler.currentTick
          priority (log.length + 1))) := by
  have waits := inTurn.queue.map SchedulerEntry.wait
  rw [List.map_map] at waits
  rw [Scheduler.tick_queue]
  refine waits.trans (List.Perm.of_eq (List.map_congr_left ?_))
  intro turn member
  exact wait_turnEntry (InRotation.turn_le member)

theorem InTurn.popped (inTurn : InTurn first priority log waiting rt)
    (nonempty : first.agents.keys ≠ []) (tie : Nat) :
    ∃ turn rest,
      turn ∈ turns first.agents.keys.length waiting log ∧
      rt.scheduler.tick.dequeue tie =
        (some (turnEntry first.agents.keys.length
          first.scheduler.currentTick priority (log.length + 1) turn),
          rest) ∧
      ∀ other ∈ turns first.agents.keys.length waiting log,
        (turnEntry first.agents.keys.length first.scheduler.currentTick
          priority (log.length + 1) other).le
            (turnEntry first.agents.keys.length
              first.scheduler.currentTick priority (log.length + 1) turn) =
          true := by
  have bag := inTurn.ticked
  cases outcome : rt.scheduler.tick.dequeue tie with
  | mk taken rest =>
      cases taken with
      | none =>
          obtain ⟨empty, _⟩ := Scheduler.dequeue_none outcome
          have length := inTurn.rotation.turns_length.symm.trans
            ((List.length_map _).symm.trans
              (bag.length_eq.symm.trans (congrArg List.length empty)))
          exact absurd (List.length_eq_zero_iff.mp length) nonempty
      | some entry =>
          have greatest := Scheduler.dequeue_greatest outcome
          have member : entry ∈ rt.scheduler.tick.queue :=
            (Scheduler.dequeue_some outcome).1.mem_iff.mpr
              List.mem_cons_self
          obtain ⟨turn, inTurns, same⟩ :=
            List.mem_map.mp (bag.mem_iff.mp member)
          subst same
          refine ⟨turn, rest, inTurns, rfl, ?_⟩
          intro other otherTurn
          apply greatest
          exact bag.mem_iff.mpr (List.mem_map_of_mem otherTurn)

/-- The rank of a popped entry is the highest there is, and among the entries
of that rank it is the oldest. -/
theorem turnEntry_le_iff {size start now : Nat} {left right : String × Nat} :
    (turnEntry size start priority now left).le
          (turnEntry size start priority now right) = true ↔
      min 4 (priority.rank + (boosts size left.2 + (now - left.2) / 6)) <
          min 4
            (priority.rank + (boosts size right.2 + (now - right.2) / 6)) ∨
        min 4 (priority.rank + (boosts size left.2 + (now - left.2) / 6)) =
            min 4
              (priority.rank + (boosts size right.2 + (now - right.2) / 6)) ∧
          right.2 ≤ left.2 := by
  rw [SchedulerEntry.le_iff, turnEntry_rank, turnEntry_rank,
    turnEntry_enqueuedAtTick, turnEntry_enqueuedAtTick,
    Nat.add_le_add_iff_left]

/-- As long as the rotation is even, the entry of the oldest turn is popped,
with the boosts of the present turn. -/
theorem popped_oldest {start : Nat} {turn : String × Nat}
    {members : List String}
    (rotation : InRotation members waiting log) (nonempty : members ≠ [])
    (even : RotatesEvenly members.length priority ∨
      log.length + 1 < 6 * (members.length / 6) + 6)
    (member : turn ∈ turns members.length waiting log)
    (greatest : ∀ other ∈ turns members.length waiting log,
      (turnEntry members.length start priority (log.length + 1) other).le
        (turnEntry members.length start priority (log.length + 1) turn) =
          true) :
    turn.2 = log.length + 1 - members.length ∧
      (turnEntry members.length start priority (log.length + 1)
          turn).effectivePriority =
        priority.raise (boosts members.length (log.length + 1)) := by
  have size := List.length_pos_iff.mpr nonempty
  have past := InRotation.turn_le member
  have inWindow := rotation.le_turn member
  obtain ⟨oldest, oldestTurn⟩ := rotation.exists_turn _ nonempty
    (Nat.le_refl (log.length + 1 - members.length)) (by omega)
  have top := boosts_oldest even
  have bounded := boosts_le inWindow (Nat.le_succ_of_le past)
  have above := turnEntry_le_iff.mp (greatest _ oldestTurn)
  dsimp only at above
  have same : turn.2 = log.length + 1 - members.length := by omega
  refine ⟨same, ?_⟩
  apply AgentPriority.rank_injective
  rw [turnEntry_rank, AgentPriority.rank_raise, same, top]

theorem InTurn.pooled (inTurn : InTurn first priority log waiting rt)
    {turn : String × Nat}
    (member : turn ∈ turns first.agents.keys.length waiting log) :
    turn.1 ∈ first.agents := by
  have named : turn.1 ∈ waiting ++ recent first.agents.keys.length log := by
    rw [← turns_fst]
    exact List.mem_map_of_mem member
  exact AList.mem_keys.mpr (inTurn.rotation.everyone.mem_iff.mp named)

theorem InTurn.requeued (start : first.RoundRobinStart priority)
    (inTurn : InTurn first priority log waiting rt) {entry : SchedulerEntry}
    {rest : Scheduler}
    (popped : rt.scheduler.tick.dequeue tie = (some entry, rest))
    (pooled : entry.agentId ∈ first.agents) :
    rt.tickDequeues tie = some entry.agentId ∧
      (rt.schedulerTick tie).scheduler =
        { rest with
          queue :=
            .new entry.agentId entry.effectivePriority rest.currentTick ::
              rest.queue } := by
  obtain ⟨agent, found⟩ := HashMap.mem_iff_exists_lookup.mp pooled
  have active := (start.active agent (HashMap.mem_values found)).1
  have room := requeue_room inTurn.within popped
  have notFull : ¬ rest.queue.length ≥ rest.capacity := Nat.not_le.mpr room
  constructor
  · simp [tickDequeues, inTurn.running, popped]
  · simp [Runtime.schedulerTick, inTurn.running, popped, requeue,
      inTurn.samePool, found, active, Scheduler.enqueue, notFull]

theorem InTurn.tick (start : first.RoundRobinStart priority)
    (inTurn : InTurn first priority log waiting rt)
    (nonempty : first.agents.keys ≠ [])
    (even : RotatesEvenly first.agents.keys.length priority ∨
      log.length + 1 < 6 * (first.agents.keys.length / 6) + 6)
    (tie : Nat) :
    ∃ id left, rt.tickDequeues tie = some id ∧
      InTurn first priority (log ++ [id]) left (rt.schedulerTick tie) := by
  obtain ⟨turn, rest, member, popped, greatest⟩ :=
    inTurn.popped nonempty tie
  obtain ⟨oldest, boosted⟩ :=
    popped_oldest inTurn.rotation nonempty even member greatest
  obtain ⟨left, others, rotation, taken, given⟩ :=
    inTurn.rotation.serve member oldest
  obtain ⟨dequeued, scheduled⟩ :=
    inTurn.requeued start popped (inTurn.pooled member)
  have bag := (Scheduler.dequeue_some popped).1
  have remaining : rest.queue.Perm
      (others.map (turnEntry first.agents.keys.length
        first.scheduler.currentTick priority (log.length + 1))) := by
    apply List.Perm.cons_inv
    exact bag.symm.trans (inTurn.ticked.trans (taken.map _))
  have clock : rest.currentTick =
      first.scheduler.currentTick + (log.length + 1) := by
    rw [Scheduler.dequeue_some_currentTick popped,
      Scheduler.tick_currentTick, inTurn.clock]
    rfl
  refine ⟨turn.1, left, dequeued, ?_⟩
  constructor
  · rw [schedulerTick_running, inTurn.running]
  · rw [scheduled]
    exact requeue_room inTurn.within popped
  · rw [schedulerTick_agents, inTurn.samePool]
  · rw [scheduled, List.length_append, List.length_singleton]
    exact clock
  · exact rotation
  · rw [scheduled, List.length_append, List.length_singleton, given,
      List.map_append, List.map_singleton, turnEntry_now, boosted, clock]
    exact (remaining.cons _).trans (List.perm_append_singleton _ _).symm

end Turn

theorem dequeues_append (rt : Runtime) (before after : List Nat) :
    rt.dequeues (before ++ after) =
      rt.dequeues before ++
        (runCalls schedulerTick rt before).dequeues after := by
  induction before generalizing rt with
  | nil => rfl
  | cons tie ties induction => simp [dequeues, induction]

section Runs

variable {first : Runtime} {priority : AgentPriority}

theorem InTurn.run (start : first.RoundRobinStart priority)
    (nonempty : first.agents.keys ≠ []) {log waiting : List String}
    {rt : Runtime} (inTurn : InTurn first priority log waiting rt)
    (ties : List Nat)
    (even : RotatesEvenly first.agents.keys.length priority ∨
      log.length + ties.length < 6 * (first.agents.keys.length / 6) + 6) :
    (rt.dequeues ties).length = ties.length ∧
      ∃ left, InTurn first priority (log ++ rt.dequeues ties) left
        (runCalls schedulerTick rt ties) := by
  induction ties generalizing log waiting rt with
  | nil =>
      refine ⟨rfl, waiting, ?_⟩
      rw [dequeues, List.append_nil]
      exact inTurn
  | cons tie ties induction =>
      rw [List.length_cons] at even
      obtain ⟨id, left, dequeued, next⟩ := inTurn.tick start nonempty
        (even.imp_right fun early => by omega) tie
      have later := induction next (even.imp_right fun early => by
        rw [List.length_append, List.length_singleton]
        omega)
      rw [List.append_assoc] at later
      rw [dequeues, dequeued]
      exact ⟨congrArg (· + 1) later.1, later.2⟩

theorem roundRobin_of_rotatesEvenly (start : first.RoundRobinStart priority)
    (even : RotatesEvenly first.agents.keys.length priority) :
    first.RoundRobin := by
  intro before window size
  by_cases nobody : first.agents.keys = []
  · have noTicks : window = [] := by
      apply List.eq_nil_of_length_eq_zero
      rw [size, HashMap.size, nobody]
      rfl
    rw [noTicks, nobody, dequeues]
  · obtain ⟨_, left, turned⟩ :=
      start.inTurn.run start nobody before (.inl even)
    obtain ⟨length, last, all⟩ := turned.run start nobody window (.inl even)
    have exactly : ((runCalls schedulerTick first before).dequeues
        window).length = first.agents.keys.length := length.trans size
    have full : first.agents.keys.length ≤
        ([] ++ first.dequeues before ++
          (runCalls schedulerTick first before).dequeues window).length := by
      rw [List.length_append, exactly]
      exact Nat.le_add_left _ _
    have served := all.rotation.recent_perm full
    rwa [recent_append exactly] at served

/-- At the first uneven tick the oldest entry is passed over. -/
theorem InTurn.passed_over {log waiting : List String} {rt : Runtime}
    (start : first.RoundRobinStart priority)
    (inTurn : InTurn first priority log waiting rt)
    (uneven : ¬ RotatesEvenly first.agents.keys.length priority)
    (due : log.length + 1 = 6 * (first.agents.keys.length / 6) + 6)
    (tie : Nat) :
    ∃ id ∈ log.drop (log.length + 1 - first.agents.keys.length),
      rt.tickDequeues tie = some id := by
  obtain ⟨large, noStep, low⟩ : 6 ≤ first.agents.keys.length ∧
      ¬ 6 ∣ first.agents.keys.length ∧
      priority.rank + first.agents.keys.length / 6 < 4 := by
    unfold RotatesEvenly at uneven
    omega
  have nonempty : first.agents.keys ≠ [] := by
    apply List.ne_nil_of_length_pos
    omega
  obtain ⟨turn, rest, member, popped, greatest⟩ :=
    inTurn.popped nonempty tie
  obtain ⟨boosted, boostedTurn⟩ := inTurn.rotation.exists_turn 6
    nonempty (by omega) (by omega)
  have above := turnEntry_le_iff.mp (greatest _ boostedTurn)
  have gap := boosts_uneven large noStep low
  rw [due] at above
  dsimp only at above
  have inWindow := inTurn.rotation.le_turn member
  have younger :
      log.length + 1 - first.agents.keys.length < turn.2 := by
    rcases Nat.lt_or_eq_of_le inWindow with younger | oldest
    · exact younger
    · rw [← oldest, due] at above
      omega
  have later := InRotation.mem_later member younger
  obtain ⟨dequeued, _⟩ := inTurn.requeued start popped
    (inTurn.pooled member)
  exact ⟨turn.1, later, dequeued⟩

/-- An uneven rotation serves an agent twice in the window that ends with its
first uneven tick. -/
theorem not_roundRobin_of_uneven (start : first.RoundRobinStart priority)
    (uneven : ¬ RotatesEvenly first.agents.keys.length priority) :
    ¬ first.RoundRobin := by
  intro claimed
  have large : 6 ≤ first.agents.keys.length := by
    unfold RotatesEvenly at uneven
    omega
  have nonempty : first.agents.keys ≠ [] := by
    apply List.ne_nil_of_length_pos
    omega
  obtain ⟨before, beforeLength⟩ : ∃ before : List Nat, before.length =
      6 * (first.agents.keys.length / 6) + 6 - first.agents.keys.length :=
    ⟨List.replicate _ 0, List.length_replicate⟩
  obtain ⟨window, windowLength⟩ : ∃ window : List Nat,
      window.length = first.agents.keys.length - 1 :=
    ⟨List.replicate _ 0, List.length_replicate⟩
  obtain ⟨loggedBefore, left, turned⟩ :=
    start.inTurn.run start nonempty before (.inr (by
      rw [List.length_nil]
      omega))
  rw [List.nil_append] at turned
  obtain ⟨loggedWindow, last, all⟩ := turned.run start nonempty window
    (.inr (by omega))
  have total := @List.length_append _ (first.dequeues before)
    ((runCalls schedulerTick first before).dequeues window)
  obtain ⟨id, again, dequeued⟩ :=
    all.passed_over start uneven (by omega) 0
  rw [List.drop_left' (by omega)] at again
  have served := claimed before (window ++ [0]) (by
    rw [List.length_append, windowLength, List.length_singleton,
      HashMap.size]
    omega)
  rw [dequeues_append, dequeues, dequeued] at served
  have once := served.nodup_iff.mpr first.agents.keys_nodup
  have apart := List.disjoint_of_nodup_append once
  exact apart again List.mem_cons_self

end Runs

/-- The ticks serve agents of one priority round-robin if and only if their
number and priority make the rotation even. -/
theorem roundRobin_iff (rt : Runtime) (priority : AgentPriority)
    (start : rt.RoundRobinStart priority) :
    rt.RoundRobin ↔ RotatesEvenly (HashMap.size rt.agents) priority := by
  constructor
  · intro fair
    by_contra uneven
    exact not_roundRobin_of_uneven start uneven fair
  · intro even
    exact roundRobin_of_rotatesEvenly start even

/-- A runtime whose agents have been spawned and started planning. -/
def planning (ids : List String) : Runtime :=
  runCalls serve (withConfig {}) (ids.flatMap fun id =>
    [.spawn { goal := "goal" } id 0 0, .transitionAgent id .planning 1])

theorem planning_two_start :
    (planning ["agent0000001", "agent0000002"]).RoundRobinStart .normal where
  running := by decide
  within := by decide
  active := by decide
  queued := by decide

theorem roundRobin_two_agents :
    (planning ["agent0000001", "agent0000002"]).RoundRobin ↔
      RotatesEvenly
        (HashMap.size (planning ["agent0000001", "agent0000002"]).agents)
        .normal :=
  roundRobin_iff _ _ planning_two_start

theorem seven_agents_start :
    (planning ["agent0000001", "agent0000002", "agent0000003",
      "agent0000004", "agent0000005", "agent0000006",
      "agent0000007"]).RoundRobinStart .normal where
  running := by decide +kernel
  within := by decide +kernel
  active := by decide +kernel
  queued := by decide +kernel

/-- With seven agents of normal priority the twelfth tick passes over the
agent whose turn it is. -/
theorem seven_agents_unfair :
    (planning ["agent0000001", "agent0000002", "agent0000003",
        "agent0000004", "agent0000005", "agent0000006",
        "agent0000007"]).RoundRobinStart .normal ∧
      ¬ (planning ["agent0000001", "agent0000002", "agent0000003",
        "agent0000004", "agent0000005", "agent0000006",
        "agent0000007"]).RoundRobin := by
  refine ⟨seven_agents_start, not_roundRobin_of_uneven seven_agents_start ?_⟩
  have seven : (planning ["agent0000001", "agent0000002", "agent0000003",
      "agent0000004", "agent0000005", "agent0000006",
      "agent0000007"]).agents.keys.length = 7 := by
    decide +kernel
  rw [seven]
  decide

end Runtime

end Ughi.Agents
