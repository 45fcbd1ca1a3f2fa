import Mathlib.Algebra.Order.Ring.Nat
import Mathlib.Data.List.Nodup
import Mathlib.Data.List.Sort

/-!
# Vectors of keyed items

List counterparts of the vector operations that find, overwrite and remove
items by a key: the first item with a key, an update of that item, a removal
that moves the last item into the gap, the removal of a least item, and a scan
for the first greatest one.
-/

namespace Ughi.Lib

universe u v

variable {α : Type u} {κ : Type v}

/-- The first item whose key is `sought`. -/
def firstWith [DecidableEq κ] (key : α → κ) (sought : κ) (items : List α) :
    Option α :=
  items.find? fun item => key item = sought

/-- Change the first item whose key is `sought`. -/
def modifyFirst [DecidableEq κ] (key : α → κ) (sought : κ)
    (change : α → α) : List α → List α
  | [] => []
  | item :: items =>
      if key item = sought then change item :: items
      else item :: modifyFirst key sought change items

/-- Remove the item at `index`; the last item takes its place. -/
def swapRemove (items : List α) (index : Nat) : List α :=
  match items.getLast? with
  | none => []
  | some last => (items.set index last).dropLast

/-- The first item of least rank, and the items left by its `swapRemove`. -/
def removeMinOn (rank : α → Nat) (items : List α) : Option (α × List α) :=
  (items.minIdxOn? rank).bind fun index =>
    items[index]?.map fun item => (item, swapRemove items index)

/-- Keep an item when it outranks the best one so far. -/
def keepGreater (rank : α → Nat) (best : Option α × Nat) (item : α) :
    Option α × Nat :=
  if rank item > best.2 then (some item, rank item) else best

/-- The first item of greatest rank, when some rank is positive. -/
def firstGreatest (rank : α → Nat) (items : List α) : Option α × Nat :=
  items.foldl (keepGreater rank) (none, 0)

theorem exists_split_set {items : List α} {index : Nat} {item : α}
    (found : items[index]? = some item) (changed : α) :
    ∃ before after, items = before ++ item :: after ∧
      items.set index changed = before ++ changed :: after := by
  induction items generalizing index with
  | nil => cases found
  | cons head items induction =>
      cases index with
      | zero =>
          cases found
          exact ⟨[], items, rfl, rfl⟩
      | succ index =>
          obtain ⟨before, after, split, setSplit⟩ := induction found
          refine ⟨head :: before, after, ?_, ?_⟩
          · rw [split]
            rfl
          · rw [List.set_cons_succ, setSplit]
            rfl

theorem perm_swapRemove {items : List α} {index : Nat} {item : α}
    (found : items[index]? = some item) :
    items.Perm (item :: swapRemove items index) := by
  obtain ⟨inside, rfl⟩ := List.getElem?_eq_some_iff.mp found
  rcases List.eq_nil_or_concat' items with rfl | ⟨front, last, rfl⟩
  · cases inside
  · have removed : swapRemove (front ++ [last]) index =
        ((front ++ [last]).set index last).dropLast := by
      simp [swapRemove]
    rw [removed]
    by_cases inFront : index < front.length
    · rw [List.getElem_append_left inFront, List.set_append_left _ _ inFront,
        List.dropLast_concat, List.set_eq_take_append_cons_drop,
        if_pos inFront]
      have split : front =
          front.take index ++ front[index] :: front.drop (index + 1) := by
        rw [List.getElem_cons_drop, List.take_append_drop]
      calc
        (front ++ [last]).Perm (last :: front) :=
          List.perm_append_singleton last front
        _ = last :: (front.take index ++
              front[index] :: front.drop (index + 1)) :=
          congrArg (last :: ·) split
        List.Perm _ (last :: front[index] ::
              (front.take index ++ front.drop (index + 1))) :=
          List.Perm.cons last List.perm_middle
        List.Perm _ (front[index] :: last ::
              (front.take index ++ front.drop (index + 1))) :=
          List.Perm.swap _ _ _
        List.Perm _ (front[index] ::
              (front.take index ++ last :: front.drop (index + 1))) :=
          List.Perm.cons _ List.perm_middle.symm
    · have atEnd : index = front.length := by
        rw [List.length_append, List.length_singleton] at inside
        omega
      subst atEnd
      simp

theorem perm_of_removeMinOn {rank : α → Nat} {items rest : List α} {item : α}
    (removed : removeMinOn rank items = some (item, rest)) :
    items.Perm (item :: rest) := by
  obtain ⟨index, _, picked⟩ := Option.bind_eq_some_iff.mp removed
  obtain ⟨_, found, same⟩ := Option.map_eq_some_iff.mp picked
  cases same
  exact perm_swapRemove found

theorem exists_removeMinOn {rank : α → Nat} {items : List α}
    (nonempty : items ≠ []) :
    ∃ removed, removeMinOn rank items = some removed := by
  have picked : (items.minIdxOn? rank).isSome :=
    List.isSome_minIdxOn?_iff.mpr nonempty
  obtain ⟨index, least⟩ := Option.isSome_iff_exists.mp picked
  have inside := List.lt_length_of_minIdxOn?_eq_some least
  exact ⟨(items[index], swapRemove items index), by
    rw [removeMinOn, least, Option.bind_some, List.getElem?_eq_getElem inside,
      Option.map_some]⟩

theorem le_of_removeMinOn {rank : α → Nat} {items rest : List α} {item : α}
    (removed : removeMinOn rank items = some (item, rest)) :
    ∀ other ∈ items, rank item ≤ rank other := by
  intro other member
  obtain ⟨index, least, picked⟩ := Option.bind_eq_some_iff.mp removed
  obtain ⟨_, found, same⟩ := Option.map_eq_some_iff.mp picked
  cases same
  obtain ⟨inside, rfl⟩ := List.getElem?_eq_some_iff.mp found
  have nonempty : items ≠ [] := List.ne_nil_of_mem member
  have isLeast : items[index] = items.minOn rank nonempty := by
    have present : (items.minIdxOn? rank).isSome := by
      rw [least]
      rfl
    have selected := List.getElem_get_minIdxOn? present
    simpa [least] using selected
  rw [isLeast]
  exact List.apply_minOn_le_of_mem member

theorem foldl_keepGreater_of_le {rank : α → Nat} {items : List α}
    {best : Option α × Nat} (bounded : ∀ item ∈ items, rank item ≤ best.2) :
    items.foldl (keepGreater rank) best = best := by
  induction items with
  | nil => rfl
  | cons item items induction =>
      have low : ¬ rank item > best.2 :=
        Nat.not_lt.mpr (bounded item List.mem_cons_self)
      rw [List.foldl_cons, keepGreater, if_neg low]
      apply induction
      intro other member
      exact bounded other (List.mem_cons_of_mem _ member)

/-- The scan ends with the best item it started from, or with one that
outranks it; nothing scanned ranks higher. -/
theorem foldl_keepGreater_cases (rank : α → Nat) (items : List α)
    (best : Option α × Nat) :
    let result := items.foldl (keepGreater rank) best
    (result = best ∨ ∃ item ∈ items, result = (some item, rank item) ∧
        best.2 < rank item) ∧
      best.2 ≤ result.2 ∧ ∀ item ∈ items, rank item ≤ result.2 := by
  induction items generalizing best with
  | nil => exact ⟨.inl rfl, Nat.le_refl _, by simp⟩
  | cons item items induction =>
      by_cases higher : rank item > best.2
      · obtain ⟨result, above, bounded⟩ := induction (some item, rank item)
        simp only [List.foldl_cons, keepGreater, if_pos higher]
        refine ⟨?_, Nat.le_trans (Nat.le_of_lt higher) above, ?_⟩
        · right
          rcases result with kept | ⟨other, member, kept, outranks⟩
          · exact ⟨item, List.mem_cons_self, kept, higher⟩
          · exact ⟨other, List.mem_cons_of_mem _ member, kept,
              Nat.lt_trans higher outranks⟩
        · exact List.forall_mem_cons.mpr ⟨above, bounded⟩
      · obtain ⟨result, above, bounded⟩ := induction best
        simp only [List.foldl_cons, keepGreater, if_neg higher]
        refine ⟨?_, above, ?_⟩
        · rcases result with kept | ⟨other, member, kept, outranks⟩
          · exact .inl kept
          · exact .inr ⟨other, List.mem_cons_of_mem _ member, kept, outranks⟩
        · have low := Nat.le_trans (Nat.le_of_not_lt higher) above
          exact List.forall_mem_cons.mpr ⟨low, bounded⟩

theorem firstGreatest_cases (rank : α → Nat) (items : List α) :
    ((firstGreatest rank items).1 = none ∧
        ∀ item ∈ items, rank item = 0) ∨
      ∃ item ∈ items, (firstGreatest rank items).1 = some item ∧
        0 < rank item ∧ ∀ other ∈ items, rank other ≤ rank item := by
  obtain ⟨result, _, bounded⟩ :=
    foldl_keepGreater_cases rank items (none, 0)
  rw [firstGreatest]
  rcases result with unchanged | ⟨item, member, found, positive⟩
  · left
    rw [unchanged] at bounded ⊢
    refine ⟨rfl, ?_⟩
    intro item member
    exact Nat.le_zero.mp (bounded item member)
  · right
    rw [found] at bounded ⊢
    exact ⟨item, member, rfl, positive, bounded⟩

theorem firstGreatest_cons {rank : α → Nat} {item : α} {items : List α}
    (positive : 0 < rank item)
    (greatest : ∀ other ∈ items, rank other ≤ rank item) :
    (firstGreatest rank (item :: items)).1 = some item := by
  rw [firstGreatest, List.foldl_cons, keepGreater, if_pos positive,
    foldl_keepGreater_of_le greatest]

theorem exists_mapM {β : Type u} {γ : Type v} {compute : α → Option β}
    {view : β → γ} {label : α → γ} {items : List α}
    (each : ∀ item ∈ items,
      ∃ result, compute item = some result ∧ view result = label item) :
    ∃ results, items.mapM compute = some results ∧
      results.map view = items.map label := by
  induction items with
  | nil => exact ⟨[], rfl, rfl⟩
  | cons item items induction =>
      obtain ⟨first, rest⟩ := List.forall_mem_cons.mp each
      obtain ⟨result, computed, viewed⟩ := first
      obtain ⟨results, computedRest, viewedRest⟩ := induction rest
      refine ⟨result :: results, ?_, ?_⟩
      · rw [List.mapM_cons, computed, computedRest]
        rfl
      · rw [List.map_cons, List.map_cons, viewed, viewedRest]

theorem isSome_mapM_iff {β : Type v} {compute : α → Option β}
    {items : List α} :
    (items.mapM compute).isSome = true ↔
      ∀ item ∈ items, (compute item).isSome = true := by
  induction items with
  | nil => simp
  | cons item items induction =>
      rw [List.forall_mem_cons, ← induction, List.mapM_cons]
      cases compute item with
      | none => simp
      | some first =>
          cases items.mapM compute with
          | none => simp
          | some rest => simp

theorem nodup_map_of_subperm {key : α → κ} {items other : List α}
    (distinct : (items.map key).Nodup) (thinned : other.Subperm items) :
    (other.map key).Nodup := by
  obtain ⟨middle, permutation, sublist⟩ := thinned
  have middleDistinct := distinct.sublist (sublist.map key)
  exact (permutation.map key).nodup_iff.mp middleDistinct

theorem filterMap_zipIdx {β : Type u} {indexed : α × Nat → Option β}
    {compute : α → Option β}
    (same : ∀ item index, indexed (item, index) = compute item)
    (items : List α) (start : Nat) :
    (items.zipIdx start).filterMap indexed = items.filterMap compute := by
  induction items generalizing start with
  | nil => rfl
  | cons item items induction =>
      rw [List.zipIdx_cons, List.filterMap_cons, List.filterMap_cons,
        same item start, induction (start + 1)]

theorem nodup_map_filterMap {β : Type u} {compute : α → Option β}
    {key : α → κ} {view : β → κ} {items : List α}
    (kept : ∀ item result, compute item = some result →
      view result = key item)
    (distinct : (items.map key).Nodup) :
    ((items.filterMap compute).map view).Nodup := by
  refine List.Nodup.sublist ?_ distinct
  clear distinct
  induction items with
  | nil => exact .slnil
  | cons head items induction =>
      rw [List.filterMap_cons]
      cases computed : compute head with
      | none => exact induction.cons (key head)
      | some result =>
          rw [List.map_cons, List.map_cons, kept head result computed]
          exact induction.cons_cons (key head)

theorem map_modify_of_kept {β : Type v} {view : α → β} {change : α → α}
    (kept : ∀ item, view (change item) = view item) (items : List α)
    (index : Nat) :
    (items.modify index change).map view = items.map view := by
  apply List.ext_getElem?
  intro place
  rw [List.getElem?_map, List.getElem?_map, List.getElem?_modify]
  cases items[place]? with
  | none => rfl
  | some item =>
      by_cases here : index = place
      · simp [here, kept]
      · simp [here]

theorem forall_mem_set_iff {key : α → κ} {items : List α} {item : α}
    (distinct : (items.map key).Nodup) {index : Nat}
    (found : items[index]? = some item) {property : α → Prop} (changed : α) :
    (∀ other ∈ items.set index changed, property other) ↔
      property changed ∧
        ∀ other ∈ items, key other ≠ key item → property other := by
  obtain ⟨before, after, split, setSplit⟩ := exists_split_set found changed
  rw [setSplit, split]
  rw [split, List.map_append, List.map_cons] at distinct
  obtain ⟨fresh, _⟩ := List.nodup_cons.mp
    (List.perm_middle.nodup_iff.mp distinct)
  have different : ∀ other ∈ before ++ after, key other ≠ key item := by
    intro other member same
    apply fresh
    rw [← same, ← List.map_append]
    exact List.mem_map_of_mem member
  constructor
  · intro everywhere
    refine ⟨everywhere changed (by simp), ?_⟩
    intro other member otherKey
    rcases List.mem_append.mp member with earlier | later
    · exact everywhere other (List.mem_append_left _ earlier)
    · rcases List.mem_cons.mp later with rfl | later
      · exact absurd rfl otherKey
      · exact everywhere other (by simp [later])
  · rintro ⟨now, others⟩ other member
    rcases List.mem_append.mp member with earlier | later
    · exact others other (List.mem_append_left _ earlier)
        (different other (List.mem_append_left _ earlier))
    · rcases List.mem_cons.mp later with rfl | later
      · exact now
      · exact others other (by simp [later])
          (different other (List.mem_append_right _ later))

section Keyed

variable [DecidableEq κ] {key : α → κ} {items other : List α} {item : α}
  {sought : κ}

theorem firstWith_cons (head : α) :
    firstWith key sought (head :: items) =
      if key head = sought then some head
      else firstWith key sought items := by
  by_cases same : key head = sought <;> simp [firstWith, same]

theorem firstWith_append :
    firstWith key sought (items ++ other) =
      (firstWith key sought items).or (firstWith key sought other) :=
  List.find?_append

theorem firstWith_filter {keep : α → Bool}
    (kept : ∀ item, key item = sought → keep item = true) :
    firstWith key sought (items.filter keep) =
      firstWith key sought items := by
  rw [firstWith, List.find?_filter]
  apply congrArg (List.find? · items)
  funext item
  by_cases same : key item = sought
  · simp [same, kept item same]
  · simp [same]

theorem mem_of_firstWith (found : firstWith key sought items = some item) :
    item ∈ items :=
  List.mem_of_find?_eq_some found

theorem key_of_firstWith (found : firstWith key sought items = some item) :
    key item = sought := by
  simpa using List.find?_some found

theorem firstWith_eq_none_iff :
    firstWith key sought items = none ↔ ∀ item ∈ items, key item ≠ sought := by
  simp [firstWith]

theorem firstWith_eq_some_iff (distinct : (items.map key).Nodup) :
    firstWith key sought items = some item ↔
      item ∈ items ∧ key item = sought := by
  constructor
  · intro found
    exact ⟨mem_of_firstWith found, key_of_firstWith found⟩
  · rintro ⟨member, rfl⟩
    cases found : firstWith key (key item) items with
    | none => exact absurd rfl (firstWith_eq_none_iff.mp found item member)
    | some first =>
        have sameKey := key_of_firstWith found
        have inside := mem_of_firstWith found
        rw [List.inj_on_of_nodup_map distinct inside member sameKey]

theorem perm_cons_filter_ne (distinct : (items.map key).Nodup)
    (found : firstWith key sought items = some item) :
    items.Perm (item :: items.filter fun other => key other ≠ sought) := by
  induction items with
  | nil => cases found
  | cons head items induction =>
      rw [List.map_cons, List.nodup_cons] at distinct
      rw [firstWith_cons] at found
      split at found
      next same =>
        cases found
        have others : items.filter (fun other => key other ≠ sought) =
            items := by
          apply List.filter_eq_self.mpr
          intro other member
          apply decide_eq_true
          intro equal
          apply distinct.1
          rw [same, ← equal]
          exact List.mem_map_of_mem member
        rw [List.filter_cons_of_neg (by simpa using same), others]
      next different =>
        rw [List.filter_cons_of_pos (by simpa using different)]
        have rest := (induction distinct.2 found).cons head
        exact rest.trans (List.Perm.swap item head _)

theorem map_modifyFirst {change : α → α}
    (kept : ∀ item ∈ items, key item = sought → key (change item) = sought) :
    (modifyFirst key sought change items).map key = items.map key := by
  induction items with
  | nil => rfl
  | cons head items induction =>
      by_cases same : key head = sought
      · have headKept := kept head (by simp) same
        simp [modifyFirst, same, headKept]
      · have restKept := induction fun item member =>
          kept item (List.mem_cons_of_mem head member)
        simp [modifyFirst, same, restKept]

theorem map_modifyFirst_of_kept {β : Type u} {view : α → β}
    {change : α → α} (kept : ∀ item, view (change item) = view item) :
    (modifyFirst key sought change items).map view = items.map view := by
  induction items with
  | nil => rfl
  | cons head items induction =>
      rw [modifyFirst]
      split
      · rw [List.map_cons, List.map_cons, kept]
      · rw [List.map_cons, List.map_cons, induction]

theorem length_modifyFirst {change : α → α} :
    (modifyFirst key sought change items).length = items.length := by
  induction items with
  | nil => rfl
  | cons head items induction =>
      rw [modifyFirst]
      split
      · rfl
      · rw [List.length_cons, List.length_cons, induction]

theorem sum_map_modifyFirst {change : α → α} {measure : α → Nat} {old : α}
    (found : firstWith key sought items = some old) :
    ((modifyFirst key sought change items).map measure).sum + measure old =
      (items.map measure).sum + measure (change old) := by
  induction items with
  | nil => cases found
  | cons head items induction =>
      rw [firstWith_cons] at found
      by_cases same : key head = sought
      · rw [if_pos same] at found
        cases found
        rw [modifyFirst, if_pos same, List.map_cons, List.map_cons,
          List.sum_cons, List.sum_cons]
        omega
      · rw [if_neg same] at found
        have rest := induction found
        rw [modifyFirst, if_neg same, List.map_cons, List.map_cons,
          List.sum_cons, List.sum_cons]
        omega

theorem modifyFirst_concat {change : α → α} {last : α}
    (absent : ∀ item ∈ items, key item ≠ sought)
    (same : key last = sought) :
    modifyFirst key sought change (items ++ [last]) =
      items ++ [change last] := by
  induction items with
  | nil => rw [List.nil_append, modifyFirst, if_pos same, List.nil_append]
  | cons head items induction =>
      obtain ⟨other, others⟩ := List.forall_mem_cons.mp absent
      rw [List.cons_append, modifyFirst, if_neg other, induction others,
        List.cons_append]

theorem mem_modifyFirst {change : α → α}
    (member : item ∈ modifyFirst key sought change items) :
    item ∈ items ∨
      ∃ old, firstWith key sought items = some old ∧ item = change old := by
  induction items with
  | nil => cases member
  | cons head items induction =>
      rw [firstWith_cons]
      by_cases same : key head = sought
      · rw [modifyFirst, if_pos same] at member
        rcases List.mem_cons.mp member with rfl | kept
        · exact .inr ⟨head, if_pos same, rfl⟩
        · exact .inl (List.mem_cons_of_mem head kept)
      · rw [modifyFirst, if_neg same] at member
        rcases List.mem_cons.mp member with rfl | kept
        · exact .inl List.mem_cons_self
        · rw [if_neg same]
          exact (induction kept).imp_left (List.mem_cons_of_mem head)

theorem mem_modifyFirst_of_firstWith {change : α → α}
    (found : firstWith key sought items = some item) :
    change item ∈ modifyFirst key sought change items := by
  induction items with
  | nil => cases found
  | cons head items induction =>
      rw [firstWith_cons] at found
      rw [modifyFirst]
      split at found
      next same =>
        cases found
        rw [if_pos same]
        exact List.mem_cons_self
      next different =>
        rw [if_neg different]
        exact List.mem_cons_of_mem head (induction found)

theorem firstWith_modifyFirst {change : α → α} {wanted : κ}
    (kept : ∀ item ∈ items, key item = sought → key (change item) = sought) :
    firstWith key wanted (modifyFirst key sought change items) =
      if wanted = sought then (firstWith key sought items).map change
      else firstWith key wanted items := by
  induction items with
  | nil => simp [modifyFirst, firstWith]
  | cons head items induction =>
      have restKept := induction fun item member =>
        kept item (List.mem_cons_of_mem head member)
      by_cases same : key head = sought
      · have headKept := kept head (by simp) same
        rw [modifyFirst, if_pos same, firstWith_cons, firstWith_cons,
          firstWith_cons, headKept, if_pos same, same]
        by_cases asked : wanted = sought
        · simp [asked]
        · simp [asked, Ne.symm asked]
      · rw [modifyFirst, if_neg same, firstWith_cons, restKept,
          firstWith_cons, firstWith_cons, if_neg same]
        by_cases asked : wanted = sought
        · simp [asked, same]
        · simp [asked]

/-- Where keys are distinct, the change of the first item with a key is the
change of every item with it. -/
theorem modifyFirst_eq_map {change : α → α}
    (distinct : (items.map key).Nodup) :
    modifyFirst key sought change items =
      items.map fun item =>
        if key item = sought then change item else item := by
  induction items with
  | nil => rfl
  | cons head items induction =>
      rw [List.map_cons, List.nodup_cons] at distinct
      obtain ⟨fresh, restDistinct⟩ := distinct
      rw [modifyFirst, List.map_cons]
      by_cases same : key head = sought
      · rw [if_pos same, if_pos same]
        have untouched : ∀ item ∈ items,
            (if key item = sought then change item else item) = item := by
          intro item member
          apply if_neg
          intro again
          apply fresh
          rw [same, ← again]
          exact List.mem_map_of_mem member
        rw [List.map_congr_left untouched, List.map_id']
      · rw [if_neg same, if_neg same, induction restDistinct]

/-- Where keys are distinct, dropping and reordering items turns hits into
misses and changes no hit. -/
theorem firstWith_of_subperm (distinct : (items.map key).Nodup)
    (thinned : other.Subperm items)
    (found : firstWith key sought other = some item) :
    firstWith key sought items = some item := by
  apply (firstWith_eq_some_iff distinct).mpr
  exact ⟨thinned.subset (mem_of_firstWith found), key_of_firstWith found⟩

end Keyed

end Ughi.Lib
