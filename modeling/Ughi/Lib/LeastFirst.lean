import Mathlib.Algebra.Order.Ring.Nat
import Mathlib.Data.List.Nodup

/-!
# Taking least items first

Items lie in bags, each under a key.  Items are taken until a target is
reached, and at each turn one of least rank goes.  The turns may be planned: a
queue that is sorted by rank and lists, for each bag, the ranks of its items
names at each turn a bag in which a least item of all bags lies.
-/

namespace Ughi.Lib

universe u v w x

variable {α : Type u} {κ : Type v} {γ : Type w} {ρ : Type x}

/-- The items taken from one bag. -/
def takenFrom [DecidableEq κ] (taken : List (κ × α)) (key : κ) : List α :=
  (taken.filter fun pair => pair.1 = key).map Prod.snd

/-- The size of all items taken. -/
def takenSize (size : α → Nat) (taken : List (κ × α)) : Nat :=
  (taken.map fun pair => size pair.2).sum

@[simp] theorem takenSize_cons (size : α → Nat) (pair : κ × α)
    (taken : List (κ × α)) :
    takenSize size (pair :: taken) = size pair.2 + takenSize size taken := by
  simp [takenSize]

/-- The bags before are those after with the items taken, none of which ranks
above an item that stays.  The target is reached or nothing stays, and no
proper initial part of what was taken reaches it. -/
structure TakenLeastFirst [DecidableEq κ] [LE ρ] (rank : α → ρ) (size : α → Nat)
    (target : Nat) (before after : κ → List α) (taken : List (κ × α)) :
    Prop where
  parted : ∀ key, (before key).Perm (takenFrom taken key ++ after key)
  least : ∀ pair ∈ taken, ∀ key, ∀ item ∈ after key, rank pair.2 ≤ rank item
  enough : target ≤ takenSize size taken ∨ ∀ key, after key = []
  minimal : ∀ first rest, taken = first ++ rest → rest ≠ [] →
    takenSize size first < target

section Taking

variable [DecidableEq κ] [LE ρ] {rank : α → ρ} {size : α → Nat} {target : Nat}
  {before middle after : κ → List α} {taken : List (κ × α)}

theorem takenFrom_cons (key other : κ) (item : α) :
    takenFrom ((key, item) :: taken) other =
      if key = other then item :: takenFrom taken other
      else takenFrom taken other := by
  by_cases same : key = other
  · simp [takenFrom, same]
  · simp [takenFrom, same]

theorem takenLeastFirst_nil
    (settled : target = 0 ∨ ∀ key, before key = []) :
    TakenLeastFirst rank size target before before [] where
  parted _ := List.Perm.refl _
  least _ member := by cases member
  enough := by
    rcases settled with reached | empty
    · exact .inl (Nat.le_of_eq reached)
    · exact .inr empty
  minimal first rest split nonempty := by
    obtain ⟨_, none⟩ := List.append_eq_nil_iff.mp split.symm
    exact absurd none nonempty

/-- One turn: a least item goes, and the others towards the rest of the
target. -/
theorem TakenLeastFirst.cons {key : κ} {item : α} {rest : List α}
    (later : TakenLeastFirst rank size (target - size item) middle after taken)
    (short : 0 < target)
    (removed : (before key).Perm (item :: rest))
    (replaced : ∀ other,
      middle other = if other = key then rest else before other)
    (least : ∀ other, ∀ stays ∈ before other, rank item ≤ rank stays) :
    TakenLeastFirst rank size target before after
      ((key, item) :: taken) where
  parted other := by
    have split := later.parted other
    rw [replaced] at split
    rw [takenFrom_cons]
    by_cases same : key = other
    · subst same
      rw [if_pos rfl] at split ⊢
      exact removed.trans (split.cons item)
    · rw [if_neg (Ne.symm same)] at split
      rw [if_neg same]
      exact split
  least pair member other stays stayed := by
    rcases List.mem_cons.mp member with rfl | taken
    · have inMiddle : stays ∈ middle other :=
        (later.parted other).mem_iff.mpr (List.mem_append_right _ stayed)
      rw [replaced] at inMiddle
      split at inMiddle
      next same =>
        rw [same] at stayed
        exact least key stays
          (removed.mem_iff.mpr (List.mem_cons_of_mem item inMiddle))
      next different => exact least other stays inMiddle
    · exact later.least pair taken other stays stayed
  enough := by
    rcases later.enough with reached | empty
    · refine .inl ?_
      rw [takenSize_cons]
      dsimp only
      omega
    · exact .inr empty
  minimal first rest split nonempty := by
    cases first with
    | nil => exact short
    | cons head first =>
        obtain ⟨rfl, remaining⟩ := List.cons_eq_cons.mp split
        have below := later.minimal first rest remaining nonempty
        rw [takenSize_cons]
        dsimp only
        omega

end Taking

/-! ## Planned turns -/

/-- The queue is sorted by its marks, and under each key its marks are the
ranks of the bag. -/
structure Queued [DecidableEq κ] [LE ρ] (owner : γ → κ) (mark : γ → ρ)
    (rank : α → ρ) (queue : List γ) (bags : κ → List α) : Prop where
  sorted : queue.Pairwise fun left right => mark left ≤ mark right
  marks : ∀ key, ((queue.filter fun turn => owner turn = key).map mark).Perm
    ((bags key).map rank)

section Queue

variable [DecidableEq κ] [PartialOrder ρ] {owner : γ → κ} {mark : γ → ρ}
  {rank : α → ρ} {turn : γ} {queue : List γ} {bags : κ → List α}

theorem Queued.empty (queued : Queued owner mark rank [] bags) (key : κ) :
    bags key = [] := by
  have marks := queued.marks key
  rw [List.filter_nil, List.map_nil, List.nil_perm] at marks
  exact List.map_eq_nil_iff.mp marks

theorem Queued.mark_le (queued : Queued owner mark rank (turn :: queue) bags)
    {key : κ} {item : α} (member : item ∈ bags key) :
    mark turn ≤ rank item := by
  have marked : rank item ∈
      ((turn :: queue).filter fun turn => owner turn = key).map mark :=
    (queued.marks key).mem_iff.mpr (List.mem_map_of_mem member)
  obtain ⟨other, kept, same⟩ := List.mem_map.mp marked
  have listed := (List.mem_filter.mp kept).1
  rw [← same]
  rcases List.mem_cons.mp listed with rfl | later
  · exact le_refl _
  · exact (List.pairwise_cons.mp queued.sorted).1 other later

theorem Queued.exists_rank_eq
    (queued : Queued owner mark rank (turn :: queue) bags) :
    ∃ item ∈ bags (owner turn), rank item = mark turn := by
  have listed : mark turn ∈ ((turn :: queue).filter fun other =>
      owner other = owner turn).map mark := by
    apply List.mem_map_of_mem
    simp
  exact List.mem_map.mp ((queued.marks (owner turn)).mem_iff.mp listed)

theorem Queued.rank_eq
    (queued : Queued owner mark rank (turn :: queue) bags) {item : α}
    (member : item ∈ bags (owner turn))
    (least : ∀ other ∈ bags (owner turn), rank item ≤ rank other) :
    rank item = mark turn := by
  obtain ⟨first, inside, same⟩ := queued.exists_rank_eq
  apply le_antisymm
  · rw [← same]
    exact least first inside
  · exact queued.mark_le member

theorem Queued.tail (queued : Queued owner mark rank (turn :: queue) bags)
    {item : α} {rest : List α} {left : κ → List α}
    (removed : (bags (owner turn)).Perm (item :: rest))
    (same : rank item = mark turn)
    (replaced : ∀ key,
      left key = if key = owner turn then rest else bags key) :
    Queued owner mark rank queue left where
  sorted := (List.pairwise_cons.mp queued.sorted).2
  marks key := by
    have marks := queued.marks key
    rw [replaced]
    by_cases own : key = owner turn
    · subst own
      rw [if_pos rfl]
      rw [List.filter_cons_of_pos (by simp), List.map_cons] at marks
      have ranks := marks.trans (removed.map rank)
      rw [List.map_cons, same] at ranks
      exact ranks.cons_inv
    · rw [if_neg own]
      rwa [List.filter_cons_of_neg (by simpa using Ne.symm own)] at marks

end Queue

theorem filter_flatMap_owner [DecidableEq κ] {owner : γ → κ}
    {gather : κ → List γ}
    (owned : ∀ key, ∀ turn ∈ gather key, owner turn = key) {keys : List κ}
    (distinct : keys.Nodup) (key : κ) :
    (keys.flatMap gather).filter (fun turn => owner turn = key) =
      if key ∈ keys then gather key else [] := by
  induction keys with
  | nil => rfl
  | cons first keys induction =>
      obtain ⟨absent, distinct⟩ := List.nodup_cons.mp distinct
      rw [List.flatMap_cons, List.filter_append, induction distinct]
      by_cases same : key = first
      · subst same
        have all : (gather key).filter (fun turn => owner turn = key) =
            gather key := by
          apply List.filter_eq_self.mpr
          intro turn member
          exact decide_eq_true (owned key turn member)
        rw [all, if_neg absent, if_pos List.mem_cons_self, List.append_nil]
      · have none : (gather first).filter (fun turn => owner turn = key) =
            [] := by
          apply List.filter_eq_nil_iff.mpr
          intro turn member
          rw [owned first turn member]
          simpa using Ne.symm same
        rw [none, List.nil_append]
        simp [same]

end Ughi.Lib
