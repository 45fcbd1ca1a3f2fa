import Mathlib.Data.List.Basic
import Mathlib.Data.List.Perm.Basic

/-!
# Turns of a rotation

Members are served one a turn, each turn some member that has waited longest.
A log lists who was served; as many of its last entries as there are members
name everyone who has been served since, and the others are still waiting for
their first turn.
-/

namespace Ughi.Lib

universe u

variable {α : Type u}

/-- The last `size` entries of a log. -/
def recent (size : Nat) (log : List α) : List α :=
  log.drop (log.length - size)

/-- Each member with the number of the turn that served it last, zero for the
members that are waiting for their first turn. -/
def turns (size : Nat) (waiting log : List α) : List (α × Nat) :=
  waiting.map (fun member => (member, 0)) ++
    (recent size log).zipIdx (log.length - size + 1)

/-- Every member either waits for its first turn or is among the recently
served, and nobody is twice. -/
structure InRotation (members waiting log : List α) : Prop where
  everyone : (waiting ++ recent members.length log).Perm members

theorem recent_length (size : Nat) (log : List α) :
    (recent size log).length = min size log.length := by
  rw [recent, List.length_drop]
  omega

theorem recent_append {size : Nat} {last : List α}
    (exactly : last.length = size) (log : List α) :
    recent size (log ++ last) = last := by
  rw [recent, List.length_append, exactly, Nat.add_sub_cancel,
    List.drop_left]

theorem turns_fst (size : Nat) (waiting log : List α) :
    (turns size waiting log).map Prod.fst = waiting ++ recent size log := by
  simp [turns, Function.comp_def]

/-- Another turn adds to the recent entries, and drops the oldest one of a
full window. -/
theorem recent_concat (size : Nat) (log : List α) (served : α) :
    recent size (log ++ [served]) =
      log.drop (log.length + 1 - size) ++
        [served].drop (log.length + 1 - size - log.length) := by
  rw [recent, List.length_append, List.length_singleton, List.drop_append]

namespace InRotation

variable {members waiting log : List α}

theorem initial (members : List α) : InRotation members members [] where
  everyone := by simp [recent]

theorem waiting_length (rotation : InRotation members waiting log) :
    waiting.length = members.length - log.length := by
  have total := rotation.everyone.length_eq
  rw [List.length_append, recent_length] at total
  omega

theorem turns_length (rotation : InRotation members waiting log) :
    (turns members.length waiting log).length = members.length := by
  have length := congrArg List.length
    (turns_fst members.length waiting log)
  rw [List.length_map, rotation.everyone.length_eq] at length
  exact length

theorem waiting_eq_nil (rotation : InRotation members waiting log)
    (full : members.length ≤ log.length) : waiting = [] := by
  apply List.eq_nil_of_length_eq_zero
  rw [rotation.waiting_length]
  omega

theorem recent_perm (rotation : InRotation members waiting log)
    (full : members.length ≤ log.length) :
    (recent members.length log).Perm members := by
  have everyone := rotation.everyone
  rwa [rotation.waiting_eq_nil full, List.nil_append] at everyone

section Turn

variable {turn : α × Nat}

theorem turn_le (member : turn ∈ turns members.length waiting log) :
    turn.2 ≤ log.length := by
  rcases List.mem_append.mp member with first | later
  · obtain ⟨id, _, rfl⟩ := List.mem_map.mp first
    exact Nat.zero_le _
  · have below := List.snd_lt_of_mem_zipIdx later
    rw [recent_length] at below
    omega

theorem le_turn (rotation : InRotation members waiting log)
    (member : turn ∈ turns members.length waiting log) :
    log.length + 1 - members.length ≤ turn.2 := by
  rcases List.mem_append.mp member with first | later
  · obtain ⟨id, waits, rfl⟩ := List.mem_map.mp first
    have some := List.length_pos_of_mem waits
    rw [rotation.waiting_length] at some
    omega
  · have above := List.le_snd_of_mem_zipIdx later
    omega

theorem exists_turn (rotation : InRotation members waiting log)
    (number : Nat) (nonempty : members ≠ [])
    (above : log.length + 1 - members.length ≤ number)
    (below : number ≤ log.length) :
    ∃ member, (member, number) ∈ turns members.length waiting log := by
  have size := List.length_pos_iff.mpr nonempty
  cases number with
  | zero =>
      have some : 0 < waiting.length := by
        rw [rotation.waiting_length]
        omega
      obtain ⟨member, waits⟩ := List.exists_mem_of_length_pos some
      refine ⟨member, List.mem_append_left _ ?_⟩
      exact List.mem_map.mpr ⟨member, waits, rfl⟩
  | succ previous =>
      have inside : previous - (log.length - members.length) <
          (recent members.length log).length := by
        rw [recent_length]
        omega
      refine ⟨(recent members.length log)[
        previous - (log.length - members.length)], List.mem_append_right _ ?_⟩
      apply List.mk_mem_zipIdx_iff_le_and_getElem?_sub.mpr
      refine ⟨by omega, ?_⟩
      have shift : previous + 1 - (log.length - members.length + 1) =
          previous - (log.length - members.length) := by omega
      rw [shift]
      exact List.getElem?_eq_getElem inside

theorem turns_of_waiting {size : Nat} (before after : List α) (id : α)
    (room : log.length < size) :
    (turns size (before ++ id :: after) log).Perm
        ((id, 0) :: turns size (before ++ after) log) ∧
      turns size (before ++ after) (log ++ [id]) =
        turns size (before ++ after) log ++ [(id, log.length + 1)] := by
  have start : log.length - size = 0 := by omega
  have next : log.length + 1 - size = 0 := by omega
  have whole : recent size log = log := by
    rw [recent, start]
    rfl
  have longer : recent size (log ++ [id]) = log ++ [id] := by
    rw [recent_concat, next]
    simp
  constructor
  · simp only [turns, List.map_append, List.map_cons, List.append_assoc,
      List.cons_append]
    exact List.perm_middle
  · simp [turns, whole, longer, List.zipIdx_append, start, next,
      Nat.add_comm]

theorem turns_of_full {size : Nat} (positive : 0 < size)
    (full : size ≤ log.length) :
    ∃ id others, turns size [] log =
        (id, log.length + 1 - size) :: others ∧
      turns size [] (log ++ [id]) = others ++ [(id, log.length + 1)] ∧
      ∀ other ∈ others, log.length + 1 - size < other.2 := by
  have nonempty : recent size log ≠ [] := by
    apply List.ne_nil_of_length_pos
    rw [recent_length]
    omega
  obtain ⟨id, later, split⟩ := List.exists_cons_of_ne_nil nonempty
  have shifted : log.length - size + 1 = log.length + 1 - size := by omega
  have rest : log.drop (log.length + 1 - size) = later := by
    have dropped := congrArg List.tail split
    rwa [recent, List.tail_drop, shifted, List.tail_cons] at dropped
  have laterLength : later.length + 1 = size := by
    have length := congrArg List.length split
    rw [recent_length, List.length_cons] at length
    omega
  refine ⟨id, later.zipIdx (log.length + 1 - size + 1), ?_, ?_, ?_⟩
  · rw [turns, split, shifted]
    rfl
  · have longer : recent size (log ++ [id]) = later ++ [id] := by
      rw [recent_concat, rest,
        show log.length + 1 - size - log.length = 0 by omega]
      rfl
    have start : (log ++ [id]).length - size + 1 =
        log.length + 1 - size + 1 := by simp
    have last : log.length + 1 - size + 1 + later.length =
        log.length + 1 := by omega
    rw [turns, longer, start, List.zipIdx_append, List.zipIdx_singleton,
      last]
    rfl
  · intro other member
    exact List.le_snd_of_mem_zipIdx member

/-- The oldest turn goes and the newest comes, whether or not somebody still
waits for the first one. -/
theorem exchange (rotation : InRotation members waiting log)
    (member : turn ∈ turns members.length waiting log)
    (oldest : turn.2 = log.length + 1 - members.length) :
    ∃ left others,
      (turns members.length waiting log).Perm (turn :: others) ∧
        turns members.length left (log ++ [turn.1]) =
          others ++ [(turn.1, log.length + 1)] := by
  rcases List.mem_append.mp member with first | later
  · obtain ⟨id, waits, rfl⟩ := List.mem_map.mp first
    have some := List.length_pos_of_mem waits
    rw [rotation.waiting_length] at some
    obtain ⟨before, after, rfl⟩ := List.append_of_mem waits
    have both := turns_of_waiting before after id
      (show log.length < members.length by omega)
    exact ⟨_, _, both.1, both.2⟩
  · have nonempty := List.length_pos_of_mem later
    rw [List.length_zipIdx, recent_length] at nonempty
    have above := List.le_snd_of_mem_zipIdx later
    have full : members.length ≤ log.length := by omega
    rw [rotation.waiting_eq_nil full] at member ⊢
    obtain ⟨id, others, split, next, younger⟩ :=
      turns_of_full (show 0 < members.length by omega) full
    rw [split] at member
    rcases List.mem_cons.mp member with rfl | among
    · exact ⟨[], others, List.Perm.of_eq split, next⟩
    · have after := younger turn among
      omega

theorem serve (rotation : InRotation members waiting log)
    (member : turn ∈ turns members.length waiting log)
    (oldest : turn.2 = log.length + 1 - members.length) :
    ∃ left others, InRotation members left (log ++ [turn.1]) ∧
      (turns members.length waiting log).Perm (turn :: others) ∧
      turns members.length left (log ++ [turn.1]) =
        others ++ [(turn.1, log.length + 1)] := by
  obtain ⟨left, others, taken, given⟩ := rotation.exchange member oldest
  refine ⟨left, others, ⟨?_⟩, taken, given⟩
  have served := congrArg (List.map Prod.fst) given
  rw [turns_fst, List.map_append] at served
  have before := taken.map Prod.fst
  rw [turns_fst] at before
  rw [served]
  exact (List.perm_append_singleton _ _).trans
    (before.symm.trans rotation.everyone)

theorem mem_later (member : turn ∈ turns members.length waiting log)
    (younger : log.length + 1 - members.length < turn.2) :
    turn.1 ∈ log.drop (log.length + 1 - members.length) := by
  rcases List.mem_append.mp member with first | later
  · obtain ⟨id, _, rfl⟩ := List.mem_map.mp first
    exact absurd younger (Nat.not_lt_zero _)
  · obtain ⟨above, found⟩ :=
      List.mk_mem_zipIdx_iff_le_and_getElem?_sub.mp later
    have position : log.length - members.length +
          (turn.2 - (log.length - members.length + 1)) =
        log.length + 1 - members.length +
          (turn.2 - 1 - (log.length + 1 - members.length)) := by omega
    rw [recent, List.getElem?_drop, position, ← List.getElem?_drop] at found
    exact List.mem_of_getElem? found

end Turn

end InRotation

end Ughi.Lib
