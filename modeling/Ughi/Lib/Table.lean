import Ughi.Lib.Vec

/-!
# Tables with a unique key

A database table is a list of rows in the order they were inserted, whose
keys a uniqueness constraint keeps distinct.  The constraint is a field, so
every statement that builds a table proves it.
-/

namespace Ughi.Lib

universe u v

structure Table {ρ : Type u} {κ : Type v} (key : ρ → κ) where
  rows : List ρ
  unique : (rows.map key).Nodup

namespace Table

variable {ρ : Type u} {κ : Type v} {key : ρ → κ}

def empty : Table key :=
  { rows := []
    unique := List.nodup_nil }

/-- `DELETE WHERE`. -/
def deleteWhere (condition : ρ → Bool) (table : Table key) : Table key :=
  { rows := table.rows.filter fun row => !condition row
    unique := table.unique.sublist (List.filter_sublist.map key) }

variable [DecidableEq κ]

/-- `SELECT` by the key. -/
def select (sought : κ) (table : Table key) : Option ρ :=
  firstWith key sought table.rows

/-- `INSERT OR REPLACE`: a row in conflict is deleted first. -/
def insertOrReplace (row : ρ) (table : Table key) : Table key :=
  { rows := (table.rows.filter fun other => key other ≠ key row) ++ [row]
    unique := by
      rw [List.map_append, List.map_singleton]
      apply List.Nodup.append
      · exact table.unique.sublist (List.filter_sublist.map key)
      · exact List.nodup_singleton (key row)
      · simp }

/-- `UPDATE` of the row with a key, which keeps its key. -/
def update (sought : κ) (change : ρ → ρ)
    (keeps : ∀ row, key (change row) = key row) (table : Table key) :
    Table key :=
  { rows := modifyFirst key sought change table.rows
    unique := by
      have kept : ∀ row ∈ table.rows, key row = sought →
          key (change row) = sought :=
        fun row _ same => (keeps row).trans same
      rw [map_modifyFirst kept]
      exact table.unique }

variable {table : Table key} {sought : κ}

theorem key_of_select {row : ρ} (found : table.select sought = some row) :
    key row = sought :=
  key_of_firstWith found

theorem select_insertOrReplace (row : ρ) :
    (table.insertOrReplace row).select sought =
      if sought = key row then some row else table.select sought := by
  rw [select, insertOrReplace, firstWith_append, firstWith_cons]
  split
  next same =>
    subst same
    have gone : firstWith key (key row)
        (table.rows.filter fun other => key other ≠ key row) = none :=
      firstWith_eq_none_iff.mpr (by simp)
    rw [gone, if_pos rfl]
    rfl
  next different =>
    rw [if_neg (Ne.symm different), firstWith_filter]
    · simp [select, firstWith]
    · intro other same
      rw [same]
      exact decide_eq_true (Ne.symm different)

theorem select_update {change : ρ → ρ}
    (keeps : ∀ row, key (change row) = key row) (wanted : κ) :
    (table.update sought change keeps).select wanted =
      if wanted = sought then (table.select sought).map change
      else table.select wanted :=
  firstWith_modifyFirst fun row _ same => (keeps row).trans same

theorem select_deleteWhere (condition : ρ → Bool) :
    (table.deleteWhere condition).select sought =
      (table.select sought).filter fun row => !condition row := by
  cases found : table.select sought with
  | none =>
      have missing := firstWith_eq_none_iff.mp found
      apply firstWith_eq_none_iff.mpr
      intro row member
      exact missing row (List.mem_of_mem_filter member)
  | some row =>
      obtain ⟨member, same⟩ :=
        (firstWith_eq_some_iff table.unique).mp found
      have unique := (table.deleteWhere condition).unique
      cases gone : condition row with
      | false =>
          rw [Option.filter_some, gone]
          apply (firstWith_eq_some_iff unique).mpr
          exact ⟨List.mem_filter.mpr ⟨member, by simp [gone]⟩, same⟩
      | true =>
          rw [Option.filter_some, gone]
          apply firstWith_eq_none_iff.mpr
          intro other otherMember otherSame
          obtain ⟨inside, stays⟩ := List.mem_filter.mp otherMember
          have equal := List.inj_on_of_nodup_map table.unique inside member
            (otherSame.trans same.symm)
          rw [equal, gone] at stays
          cases stays

end Table

end Ughi.Lib
