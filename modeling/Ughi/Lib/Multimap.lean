import Ughi.Lib.HashMap

/-!
# Multimaps

A map from keys to lists files items under their keys; a key without a list has
no items.
-/

namespace Ughi.Lib

universe u v

namespace HashMap

variable {κ : Type u} {ν : Type v} [DecidableEq κ]
  {table : HashMap κ (List ν)} {key : κ} {item : ν}

/-- The items under a key. -/
def listed (table : HashMap κ (List ν)) (key : κ) : List ν :=
  (table.lookup key).getD []

/-- File an item under a key. -/
def push (table : HashMap κ (List ν)) (key : κ) (item : ν) :
    HashMap κ (List ν) :=
  table.insert key (listed table key ++ [item])

/-- File an item under several keys. -/
def pushAll (table : HashMap κ (List ν)) (keys : List κ) (item : ν) :
    HashMap κ (List ν) :=
  keys.foldl (fun table key => push table key item) table

@[simp] theorem listed_empty (key : κ) :
    listed (∅ : HashMap κ (List ν)) key = [] :=
  rfl

theorem mem_listed_push {filed : ν} {sought : κ} :
    filed ∈ listed (push table key item) sought ↔
      filed ∈ listed table sought ∨ sought = key ∧ filed = item := by
  rw [listed, push, lookup_insert_eq]
  by_cases same : sought = key
  · subst same
    rw [if_pos rfl, Option.getD_some, List.mem_append, List.mem_singleton]
    simp
  · rw [if_neg same]
    simp [same, listed]

theorem mem_listed_pushAll {keys : List κ} {filed : ν} {sought : κ} :
    filed ∈ listed (pushAll table keys item) sought ↔
      filed ∈ listed table sought ∨ sought ∈ keys ∧ filed = item := by
  induction keys generalizing table with
  | nil => simp [pushAll]
  | cons key keys induction =>
      have rest := @induction (push table key item)
      rw [pushAll, List.foldl_cons]
      rw [pushAll] at rest
      rw [rest, mem_listed_push, List.mem_cons]
      tauto

end HashMap

end Ughi.Lib
