import Mathlib.Algebra.Order.Ring.Nat
import Mathlib.Data.List.AList
import Mathlib.Data.List.Dedup

/-!
# Hash maps

Finite maps are association lists without duplicate keys.  The order of the
list stands for the iteration order of a hash map, which no result relies on
unless it says so.
-/

namespace Ughi.Lib

universe u v w

/-- A finite map from `κ` to `ν`. -/
abbrev HashMap (κ : Type u) (ν : Type v) : Type (max u v) :=
  AList fun _ : κ => ν

namespace HashMap

variable {κ : Type u} {ν : Type v}

/-- The number of keys. -/
def size (table : HashMap κ ν) : Nat :=
  table.keys.length

def values (table : HashMap κ ν) : List ν :=
  table.entries.map Sigma.snd

/-- The keys in an iteration order: first those that `order` names, then the
others.  Every arrangement of the keys is the iteration of some `order`. -/
def iterate [DecidableEq κ] (order : List κ) (table : HashMap κ ν) : List κ :=
  order.dedup.filter (· ∈ table) ++ table.keys.filter (· ∉ order)

@[simp] theorem size_empty : size (∅ : HashMap κ ν) = 0 :=
  rfl

theorem values_length (table : HashMap κ ν) :
    (values table).length = size table := by
  simp [values, size, AList.keys, List.keys]

theorem length_le_size_of_subset {table : HashMap κ ν}
    {chosen : List κ} (distinct : chosen.Nodup)
    (inside : ∀ item ∈ chosen, item ∈ table) :
    chosen.length ≤ size table := by
  have subset : chosen ⊆ table.keys := by
    intro item member
    exact AList.mem_keys.mp (inside item member)
  exact (List.subperm_of_subset distinct subset).length_le

theorem size_congr {left right : HashMap κ ν}
    (same : ∀ key, key ∈ left ↔ key ∈ right) : size left = size right := by
  apply Nat.le_antisymm
  · apply length_le_size_of_subset left.keys_nodup
    intro key inside
    exact (same key).mp (AList.mem_keys.mpr inside)
  · apply length_le_size_of_subset right.keys_nodup
    intro key inside
    exact (same key).mpr (AList.mem_keys.mpr inside)

/-- A measure summed over the values. -/
def sumOf (measure : ν → Nat) (table : HashMap κ ν) : Nat :=
  ((values table).map measure).sum

theorem sumOf_toNat (test : ν → Bool) (table : HashMap κ ν) :
    sumOf (fun value => (test value).toNat) table =
      (values table).countP test := by
  rw [sumOf]
  induction values table with
  | nil => rfl
  | cons value rest induction =>
      rw [List.map_cons, List.sum_cons, induction]
      cases holds : test value with
      | false => simp [holds]
      | true => simp [holds, Nat.add_comm]

/-- Change every value. -/
def mapValues (change : ν → ν) (table : HashMap κ ν) : HashMap κ ν :=
  let changeEntry : (Sigma fun _ : κ => ν) → Sigma fun _ : κ => ν :=
    Sigma.map id fun _ => change
  { entries := table.entries.map changeEntry
    nodupKeys := by
      have sameKeys : (table.entries.map changeEntry).keys =
          table.entries.keys := by
        simp [changeEntry, List.keys, Function.comp_def, Sigma.map]
      rw [List.NodupKeys, sameKeys]
      exact table.nodupKeys }

/-- Keep the entries whose value meets a condition. -/
def retain (condition : ν → Bool) (table : HashMap κ ν) : HashMap κ ν :=
  { entries := table.entries.filter fun entry => condition entry.2
    nodupKeys := table.nodupKeys.sublist List.filter_sublist }

theorem flatMap_filter_nonempty {α : Type w} (chosen : κ → List α)
    (keys : List κ) :
    (keys.filter fun key => !(chosen key).isEmpty).flatMap chosen =
      keys.flatMap chosen := by
  induction keys with
  | nil => rfl
  | cons key keys induction =>
      cases empty : chosen key with
      | nil => simp [empty, induction]
      | cons first rest => simp [empty, induction]

variable [DecidableEq κ] {table : HashMap κ ν} {key other : κ} {value : ν}

theorem mem_iff_exists_lookup :
    key ∈ table ↔ ∃ value, table.lookup key = some value := by
  rw [← AList.lookup_isSome, Option.isSome_iff_exists]

theorem mem_iterate (order : List κ) :
    key ∈ iterate order table ↔ key ∈ table := by
  by_cases named : key ∈ order
  · simp [iterate, named]
  · simp [iterate, named, AList.mem_keys]

theorem nodup_iterate (order : List κ) (table : HashMap κ ν) :
    (iterate order table).Nodup := by
  apply List.nodup_append.mpr
  refine ⟨(List.nodup_dedup order).filter _, table.keys_nodup.filter _, ?_⟩
  rintro first named _ other rfl
  have listed := List.mem_dedup.mp (List.mem_filter.mp named).1
  simp [listed] at other

theorem iterate_singleton (present : key ∈ table) :
    iterate [key] table = key :: table.keys.filter (· ∉ [key]) := by
  simp [iterate, present]

theorem mem_of_lookup (found : table.lookup key = some value) :
    key ∈ table :=
  mem_iff_exists_lookup.mpr ⟨value, found⟩

theorem mem_values (found : table.lookup key = some value) :
    value ∈ values table :=
  List.mem_map.mpr ⟨⟨key, value⟩, List.of_mem_dlookup found, rfl⟩

theorem exists_lookup_of_mem_values (member : value ∈ values table) :
    ∃ key, table.lookup key = some value := by
  obtain ⟨entry, inside, rfl⟩ := List.mem_map.mp member
  exact ⟨entry.1, AList.mem_lookup_iff.mpr inside⟩

theorem lookup_insert_eq :
    (table.insert other value).lookup key =
      if key = other then some value else table.lookup key := by
  by_cases same : key = other
  · subst key
    simp
  · rw [AList.lookup_insert_ne same, if_neg same]

theorem lookup_erase_eq :
    (table.erase other).lookup key =
      if key = other then none else table.lookup key := by
  by_cases same : key = other
  · subst key
    simp
  · rw [AList.lookup_erase_ne same, if_neg same]

theorem size_insert_of_notMem (fresh : key ∉ table) :
    size (table.insert key value) = size table + 1 := by
  have absent : key ∉ table.keys := fun member =>
    fresh (AList.mem_keys.mpr member)
  simp [size, AList.keys_insert, List.erase_of_not_mem absent]

theorem size_insert_of_mem (present : key ∈ table) :
    size (table.insert key value) = size table := by
  have inside : key ∈ table.keys := AList.mem_keys.mp present
  have positive : 0 < table.keys.length := List.length_pos_of_mem inside
  simp only [size, AList.keys_insert, List.length_cons,
    List.length_erase_of_mem inside]
  omega

theorem size_erase_of_mem (present : key ∈ table) :
    size (table.erase key) + 1 = size table := by
  have inside : key ∈ table.keys := AList.mem_keys.mp present
  have positive : 0 < table.keys.length := List.length_pos_of_mem inside
  simp only [size, AList.keys_erase, List.length_erase_of_mem inside]
  omega

theorem size_erase_le (key : κ) : size (table.erase key) ≤ size table := by
  by_cases present : key ∈ table
  · have smaller := size_erase_of_mem present
    omega
  · have absent : key ∉ table.keys := fun member =>
      present (AList.mem_keys.mp member)
    simp [size, AList.keys_erase, List.erase_of_not_mem absent]

theorem sumOf_erase (measure : ν → Nat)
    (found : table.lookup key = some value) :
    measure value + sumOf measure (table.erase key) =
      sumOf measure table := by
  have inside : key ∈ table.entries.keys :=
    AList.mem_keys.mp (mem_of_lookup found)
  obtain ⟨stored, before, after, absent, split, erased⟩ :=
    List.exists_of_kerase inside
  have missing : List.dlookup key before = none :=
    List.dlookup_eq_none.mpr absent
  have lookup : List.dlookup key table.entries = some value := found
  rw [split, List.dlookup_append, missing, Option.none_or,
    List.dlookup_cons_eq, Option.some_inj] at lookup
  have rest : (table.erase key).entries = before ++ after := erased
  simp only [sumOf, values, rest, split, ← lookup, List.map_append,
    List.map_cons, List.sum_append, List.sum_cons]
  omega

theorem sumOf_insert (measure : ν → Nat) :
    sumOf measure (table.insert key value) =
      measure value + sumOf measure (table.erase key) := by
  simp only [sumOf, values, AList.entries_insert, List.map_cons,
    List.sum_cons]
  rfl

theorem sumOf_insert_of_notMem (measure : ν → Nat) (fresh : key ∉ table) :
    sumOf measure (table.insert key value) =
      measure value + sumOf measure table := by
  simp only [sumOf, values, AList.entries_insert_of_notMem fresh,
    List.map_cons, List.sum_cons]

theorem sumOf_replace (measure : ν → Nat) {old : ν}
    (found : table.lookup key = some old) :
    sumOf measure (table.insert key value) + measure old =
      sumOf measure table + measure value := by
  have shrunk := sumOf_erase measure found
  rw [sumOf_insert]
  omega

theorem le_sumOf (measure : ν → Nat)
    (found : table.lookup key = some value) :
    measure value ≤ sumOf measure table := by
  have shrunk := sumOf_erase measure found
  omega

/-- Change the value of a key, if it has one. -/
def modify (key : κ) (change : ν → ν) (table : HashMap κ ν) : HashMap κ ν :=
  match table.lookup key with
  | none => table
  | some value => table.insert key (change value)

theorem lookup_modify (change : ν → ν) :
    (modify other change table).lookup key =
      if key = other then (table.lookup key).map change
      else table.lookup key := by
  by_cases same : key = other
  · subst same
    rw [if_pos rfl, modify]
    cases found : table.lookup key with
    | none => exact found
    | some value => exact AList.lookup_insert table
  · rw [if_neg same, modify]
    cases table.lookup other with
    | none => rfl
    | some value => exact AList.lookup_insert_ne same

theorem size_modify (key : κ) (change : ν → ν) :
    size (modify key change table) = size table := by
  rw [modify]
  cases found : table.lookup key with
  | none => rfl
  | some value => exact size_insert_of_mem (mem_of_lookup found)

theorem sumOf_modify (measure : ν → Nat) {change : ν → ν}
    (kept : ∀ value, measure (change value) = measure value) :
    sumOf measure (modify key change table) = sumOf measure table := by
  rw [modify]
  cases found : table.lookup key with
  | none => rfl
  | some value =>
      have replaced : sumOf measure (table.insert key (change value)) +
          measure value = sumOf measure table + measure (change value) :=
        sumOf_replace measure found
      rw [kept] at replaced
      exact Nat.add_right_cancel replaced

/-- Pushing onto the list of a key, which is empty when the key is new, adds
one to the total length. -/
theorem sumOf_length_push (table : HashMap κ (List ν)) (key : κ)
    (item : ν) :
    sumOf List.length
        (table.insert key ((table.lookup key).getD [] ++ [item])) =
      sumOf List.length table + 1 := by
  cases found : table.lookup key with
  | none =>
      have fresh : key ∉ table := AList.lookup_eq_none.mp found
      rw [sumOf_insert_of_notMem List.length fresh, Nat.add_comm]
      rfl
  | some items =>
      have replaced : sumOf List.length (table.insert key (items ++ [item])) +
          items.length =
            sumOf List.length table + (items ++ [item]).length :=
        sumOf_replace List.length found
      rw [List.length_append, List.length_singleton] at replaced
      rw [Option.getD_some]
      omega

/-- Erase several keys. -/
def eraseAll (keys : List κ) (table : HashMap κ ν) : HashMap κ ν :=
  keys.foldl (fun table key => table.erase key) table

theorem lookup_eraseAll (keys : List κ) :
    (eraseAll keys table).lookup key =
      if key ∈ keys then none else table.lookup key := by
  induction keys generalizing table with
  | nil => simp [eraseAll]
  | cons first keys induction =>
      have rest := @induction (table.erase first)
      rw [eraseAll, List.foldl_cons]
      rw [eraseAll] at rest
      rw [rest, lookup_erase_eq]
      by_cases later : key ∈ keys
      · simp [later]
      · simp [later]

theorem size_eraseAll_le (keys : List κ) :
    size (eraseAll keys table) ≤ size table := by
  induction keys generalizing table with
  | nil => exact Nat.le_refl _
  | cons first keys induction =>
      have rest := @induction (table.erase first)
      exact Nat.le_trans rest (size_erase_le first)

theorem lookup_mapValues (change : ν → ν) :
    (mapValues change table).lookup key = (table.lookup key).map change :=
  List.dlookup_map₂ key

theorem lookup_retain (condition : ν → Bool) :
    (retain condition table).lookup key =
      (table.lookup key).filter condition := by
  apply Option.ext
  intro value
  rw [Option.filter_eq_some_iff, ← Option.mem_def, ← Option.mem_def,
    AList.mem_lookup_iff, AList.mem_lookup_iff]
  exact List.mem_filter

/-! ## What a map holds up to order -/

section Contents

variable {α : Type w} (view : ν → List α)

/-- What is stored under a key, seen as a list. -/
def viewAt (table : HashMap κ ν) (key : κ) : List α :=
  ((table.lookup key).map view).getD []

theorem flatMap_values (table : HashMap κ ν) :
    (values table).flatMap view = table.keys.flatMap (viewAt view table) := by
  have each : ∀ entry ∈ table.entries,
      view entry.2 = viewAt view table entry.1 := by
    intro entry member
    have found : table.lookup entry.1 = some entry.2 :=
      AList.mem_lookup_iff.mpr member
    rw [viewAt, found]
    rfl
  calc
    (values table).flatMap view =
        table.entries.flatMap fun entry => view entry.2 := by
      rw [values, List.flatMap_map]
    _ = table.entries.flatMap fun entry => viewAt view table entry.1 :=
      List.flatMap_congr each
    _ = table.keys.flatMap (viewAt view table) := by
      rw [AList.keys, List.keys, List.flatMap_map]

/-- Maps that look alike under every key hold the same up to order. -/
theorem flatMap_values_perm {left right : HashMap κ ν}
    (same : ∀ key, viewAt view left key = viewAt view right key) :
    ((values left).flatMap view).Perm ((values right).flatMap view) := by
  have stored : ∀ table : HashMap κ ν, ∀ key,
      viewAt view table key ≠ [] → key ∈ table.keys := by
    intro table key nonempty
    cases found : table.lookup key with
    | none =>
        rw [viewAt, found] at nonempty
        exact absurd rfl nonempty
    | some value => exact AList.mem_keys.mpr (mem_of_lookup found)
  have alike : viewAt view left = viewAt view right := funext same
  rw [flatMap_values, flatMap_values, alike,
    ← flatMap_filter_nonempty _ left.keys,
    ← flatMap_filter_nonempty _ right.keys]
  apply List.Perm.flatMap_right
  apply (List.perm_ext_iff_of_nodup (left.keys_nodup.filter _)
    (right.keys_nodup.filter _)).mpr
  intro key
  rw [List.mem_filter, List.mem_filter]
  apply and_congr_left
  intro nonempty
  have holds : viewAt view right key ≠ [] := by
    simpa using nonempty
  constructor
  · intro _
    exact stored right key holds
  · intro _
    exact stored left key (alike ▸ holds)

end Contents
/-! ## A property of every value -/

def Every (holds : ν → Prop) (table : HashMap κ ν) : Prop :=
  ∀ key value, table.lookup key = some value → holds value

variable {holds : ν → Prop}

theorem every_empty : Every holds (∅ : HashMap κ ν) := by
  intro key value found
  cases found

theorem Every.insert (every : Every holds table) (new : holds value) :
    Every holds (table.insert key value) := by
  intro sought stored found
  rw [lookup_insert_eq] at found
  split at found
  next same =>
    cases found
    exact new
  next different => exact every sought stored found

theorem Every.insertAll {pairs : List (κ × ν)} (every : Every holds table)
    (new : ∀ pair ∈ pairs, holds pair.2) :
    Every holds
      (pairs.foldl (fun table (key, value) => table.insert key value)
        table) := by
  induction pairs generalizing table with
  | nil => exact every
  | cons pair pairs induction =>
      obtain ⟨first, rest⟩ := List.forall_mem_cons.mp new
      exact induction (every.insert first) rest

theorem Every.modify (every : Every holds table) {change : ν → ν}
    (kept : ∀ value, holds value → holds (change value)) :
    Every holds (HashMap.modify key change table) := by
  rw [HashMap.modify]
  cases found : table.lookup key with
  | none => exact every
  | some value => exact every.insert (kept value (every key value found))

theorem Every.eraseAll (every : Every holds table) (keys : List κ) :
    Every holds (HashMap.eraseAll keys table) := by
  intro sought stored found
  rw [lookup_eraseAll] at found
  split at found
  next erased => cases found
  next kept => exact every sought stored found

theorem Every.erase (every : Every holds table) (key : κ) :
    Every holds (table.erase key) :=
  every.eraseAll [key]

end HashMap

end Ughi.Lib
